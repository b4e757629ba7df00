import Adventure.Proofs.Impartiality
import Adventure.Proofs.Layout
import Adventure.Proofs.Passing
import Adventure.Proofs.Shifting
import Mathlib.Data.List.Chain

/-!
Recovery. What can start nothing is skipped, up to its `;` or past all the braces that close nothing, and is
reported once. The rest of the document reads as it would by itself, so many lines further down.
-/

namespace Adventure

open Word Token

def Word.isPassed (word : Word) : Bool :=
  word.denotations.statement?.isNone && word != mark ";" && word != mark "\x7d"

/-- What recovery skips at once: words that can start nothing, with the `;` after them, or closing
braces. -/
inductive Junk : List Word → Prop
  | unstarted {passed : List Word} (solid : ∀ word ∈ passed, word.isSolid = true)
      (passes : ∀ word ∈ passed, word.isPassed = true)
      (starts : ∀ word ∈ passed.head?, word.denotations.operand? = none) :
      Junk (passed ++ [mark ";"])
  | braces (others : Nat) : Junk (List.replicate (others + 1) (mark "\x7d"))

theorem Terminal.Fits.skips {terminal : Terminal} {word : Word} (fits : terminal.Fits word)
    (solid : word.isSolid = true) (passes : word.isPassed = true) :
    (!terminal.startsStatement && terminal.id != ";" && terminal.id != "\x7d") = true := by
  simp only [Word.isPassed, Bool.and_eq_true, Option.isNone_iff_eq_none, bne_iff_ne] at passes
  obtain ⟨⟨starts, semicolon⟩, brace⟩ := passes
  have started : terminal.startsStatement = false := by
    rw [Terminal.startsStatement, fits.statement?, starts]
    rfl
  have ids : terminal.id ≠ ";" ∧ terminal.id ≠ "\x7d" := by
    rw [fits.id]
    exact ⟨fun same => semicolon (ParseM.eq_mark_of_id solid (by decide) same),
      fun same => brace (ParseM.eq_mark_of_id solid (by decide) same)⟩
  simp [started, ids]

theorem Terminal.Fits.operand?_none {terminal : Terminal} {word : Word} (fits : terminal.Fits word)
    (idle : word.denotations.operand? = none) : terminal.denotations.operand? = none := by
  rcases fits.denotations with same | ⟨free, _⟩
  · rw [same, idle]
  · simp [Terminal.Fits.denotations_of_free free, Grammar.undefinedName] at idle

def Token.unexpected (token : Token) : Diagnostic := ⟨.unexpectedToken token.text, token.span, .error⟩

def ParseState.moved (state : ParseState) (last : Terminal) (pending : List Token) (span : Span)
    (events : Array Event) : ParseState :=
  { state with token := last, pending, previousSpan := span, events }

def ParseState.complaining (state : ParseState) : ParseState :=
  { state with
    diagnostics := state.diagnostics ++ [⟨.unexpectedToken state.token.text, state.token.span, .error⟩] }

namespace ParseM

variable {context : Context}

theorem advance_token {state : ParseState} {token : Token} {others : List Token}
    (regular : Regular context state) (solid : token.word.isSolid = true)
    (pending : state.pending = token :: others) : ∃ terminal events, terminal.Fits token.word ∧
      token.meaning? context state = some terminal ∧
      advance.run context state =
        (state.token, state.moved terminal others state.token.span events) := by
  have legible := complaints_of_solid solid
  cases meant : token.meaning? context state with
  | none =>
      have trivial := isSignificant_of_idle regular.grammar legible meant
      simp [Word.isSignificant_of_solid solid rfl] at trivial
  | some terminal =>
      obtain ⟨found, passed, rest, events, ran, split, arrival⟩ := @advance_run context state
      have here := @Arrival.terminal context state [] others token terminal (by simp) meant
      obtain ⟨rfl, rfl, rfl⟩ := here.unique arrival (by rw [← split, pending]; rfl)
      have other : token.kind ≠ .directive := by
        intro directive
        simp [Word.isSolid, Token.word, directive] at solid
      refine ⟨terminal, events, regular.meaning?_fits meant, rfl, ?_⟩
      rw [ran]
      simp [regular.grammar, legible, includeTarget_eq_none other, ParseState.moved]

theorem skip_round {again : Terminal → Bool} {state : ParseState} (present : state.token.isEnd = false)
    (here : again state.token = true) : (whileToken again (fun _ => skip) ()).run context state =
      (whileToken again (fun _ => skip) ()).run context (advance.run context state).2 :=
  whileToken_round skip_advances () present here

theorem whileToken_passes {again : Terminal → Bool} {passed rest : List Token} {state : ParseState}
    (regular : Regular context state) (solid : ∀ token ∈ passed, token.word.isSolid = true)
    (skips : ∀ token ∈ passed, ∀ terminal : Terminal, terminal.Fits token.word → again terminal = true)
    (present : state.token.isEnd = false) (here : again state.token = true)
    (pending : state.pending = passed ++ rest) : ∃ last span events,
      (whileToken again (fun _ => skip) ()).run context state =
        (whileToken again (fun _ => skip) ()).run context
          (advance.run context (state.moved last rest span events)).2 := by
  induction passed generalizing state with
  | nil =>
      refine ⟨state.token, state.previousSpan, state.events, ?_⟩
      obtain rfl : state.pending = rest := pending
      exact skip_round present here
  | cons token passed ih =>
      rw [List.forall_mem_cons] at solid skips
      obtain ⟨terminal, events, fits, _, ran⟩ := advance_token regular solid.1 pending
      let next := state.moved terminal (passed ++ rest) state.token.span events
      have regular' : Regular context next := ⟨regular.grammar, regular.bindings⟩
      obtain ⟨last, span, logged, others⟩ :=
        ih regular' solid.2 skips.2 fits.isEnd (skips.1 terminal fits) rfl
      refine ⟨last, span, logged, ?_⟩
      rw [skip_round present here, ran]
      exact others

theorem recover_passes {again : Terminal → Bool} {passed rest : List Token} {state : ParseState}
    (regular : Regular context state) (solid : ∀ token ∈ passed, token.word.isSolid = true)
    (skips : ∀ token ∈ passed, ∀ terminal : Terminal, terminal.Fits token.word → again terminal = true)
    (present : state.token.isEnd = false) (here : again state.token = true)
    (pending : state.pending = passed ++ rest) : ∃ last span events,
      (recover again).run context state = (whileToken again (fun _ => skip) ()).run context
        (advance.run context (state.complaining.moved last rest span events)).2 := by
  have regular' : Regular context state.complaining := ⟨regular.grammar, regular.bindings⟩
  exact whileToken_passes regular' solid skips present here pending

theorem skipStatement_passes {passed : List Token} {token semicolon : Token} {rest : List Token}
    {state : ParseState} (regular : Regular context state) (fits : state.token.Fits token.word)
    (solid : ∀ other ∈ token :: passed, other.word.isSolid = true ∧ other.word.isPassed = true)
    (ends : semicolon.word = mark ";") (pending : state.pending = passed ++ semicolon :: rest) :
    ∃ last span events, skipStatement.run context state =
      ((), (advance.run context (state.complaining.moved last rest span events)).2) := by
  rw [List.forall_mem_cons] at solid
  obtain ⟨here, others⟩ := solid
  obtain ⟨last, span, events, recovered⟩ := recover_passes regular
    (fun other member => (others other member).1)
    (fun other member terminal fits => fits.skips (others other member).1 (others other member).2)
    fits.isEnd (fits.skips here.1 here.2) pending
  let before := state.complaining.moved last (semicolon :: rest) span events
  have regular' : Regular context before := ⟨regular.grammar, regular.bindings⟩
  have mark : semicolon.word.isSolid = true := by
    rw [ends]
    decide
  obtain ⟨terminal, logged, stop, _, ran⟩ := @advance_token context before semicolon rest regular' mark rfl
  have id : terminal.id = ";" := by rw [stop.id, ends, Word.id_mark]
  refine ⟨terminal, last.span, logged, ?_⟩
  unfold skipStatement
  rw [run_bind, recovered, ran]
  rw [whileToken_stop () (by simp [ParseState.moved, id])]
  simp only [run_current_bind, ParseState.moved, id, if_true]
  rfl

theorem skipStatement_semicolon {state : ParseState} (id : state.token.id = ";") :
    skipStatement.run context state = ((), (advance.run context state.complaining).2) := by
  have same : state.complaining.token.id = ";" := id
  have stops : (recover fun token => !token.startsStatement && token.id != ";" && token.id != "\x7d").run
      context state = ((), state.complaining) :=
    whileToken_stop () (by simp [id])
  unfold skipStatement
  rw [run_bind_of_eq stops]
  simp only [run_current_bind, same, if_true]
  rfl

def resumed (context : Context) (tokens : List Token) (span : Span) (reported : Diagnostics)
    (events : Array Event) : ParseState :=
  { (ParseState.start context tokens).following reported events with previousSpan := span }

def opened (last : Terminal) (pending : List Token) (span : Span) (diagnostics : Diagnostics) (depth : Nat)
    (events : Array Event) : ParseState :=
  { blank with token := last, pending, previousSpan := span, diagnostics, depth, events }

theorem advance_resumes (last : Terminal) (rest : List Token) (span : Span) (reported : Diagnostics)
    (depth : Nat) (events : Array Event) : ∃ logged,
      (advance.run context (opened last rest span reported depth events)).2 =
        { resumed context rest last.span reported logged with depth } := by
  obtain ⟨found, passed, pending, logged, ran, split, arrival⟩ :=
    @advance_run context (opened last rest span reported depth events)
  obtain ⟨terminal, passed', pending', events', started, split', arrival'⟩ := @start_eq context rest
  have moved : Arrival context blank passed pending found := arrival.congr (by rfl) (by rfl)
  obtain ⟨rfl, rfl, rfl⟩ := moved.unique arrival' (split.symm.trans split')
  refine ⟨logged, ?_⟩
  rw [ran, resumed, started]
  rfl

theorem start_token {token : Token} {others : List Token} (grammar : context.grammar = Grammar.standard)
    (solid : token.word.isSolid = true) : ∃ terminal events, terminal.Fits token.word ∧
      terminal.text = token.text ∧ terminal.span = token.span ∧
      ParseState.start context (token :: others) = opened terminal others {} [] 0 events := by
  have regular : Regular context blank := ⟨grammar, ScopeTree.all_start⟩
  have legible := complaints_of_solid solid
  cases meant : token.meaning? context blank with
  | none =>
      have trivial := isSignificant_of_idle grammar legible meant
      simp [Word.isSignificant_of_solid solid rfl] at trivial
  | some terminal =>
      obtain ⟨found, passed, rest, events, started, split, arrival⟩ := @start_eq context (token :: others)
      have here := @Arrival.terminal context blank [] others token terminal (by simp) meant
      obtain ⟨rfl, rfl, rfl⟩ := here.unique arrival split
      have other : token.kind ≠ .directive := by
        intro directive
        simp [Word.isSolid, Token.word, directive] at solid
      have fits := regular.meaning?_fits meant
      obtain ⟨kind, _, same⟩ := Option.map_eq_some_iff.mp (meaning?_token? meant)
      refine ⟨terminal, events, fits, fits.text, congrArg Token.span same, ?_⟩
      · rw [started]
        simp [grammar, legible, includeTarget_eq_none other, opened, blank]

theorem resumed_depth (tokens : List Token) (span : Span) (reported : Diagnostics) (events : Array Event) :
    leave.run context { resumed context tokens span reported events with depth := 1 } =
      ((), resumed context tokens span reported events) := by
  have depth := @start_depth context tokens
  unfold resumed ParseState.following
  simp only [leave, run_modify, Nat.sub_self, ← depth]

theorem unstarted_idle {first : Word} {others passed : List Word}
    (words : first :: others = passed ++ [mark ";"])
    (solid : ∀ word ∈ passed, word.isSolid = true) (passes : ∀ word ∈ passed, word.isPassed = true)
    (starts : ∀ word ∈ passed.head?, word.denotations.operand? = none) :
    first.isSolid = true ∧ first.denotations.statement? = none ∧ first.denotations.operand? = none ∧
      first ≠ mark "\x7d" := by
  cases passed with
  | nil =>
      obtain ⟨rfl, _⟩ := List.cons.inj words
      decide
  | cons word passed =>
      obtain ⟨rfl, _⟩ := List.cons.inj words
      have passes := passes first (by simp)
      simp only [Word.isPassed, Bool.and_eq_true, Option.isNone_iff_eq_none, bne_iff_ne] at passes
      exact ⟨solid first (by simp), passes.1.1, starts first rfl, passes.2⟩

/-- A statement that nothing starts is skipped as a whole, and what follows it is read from the start. -/
theorem statement_resumes (room : Nat) (grammar : context.grammar = Grammar.standard) {first : Token}
    {others rest : List Token} {passed : List Word}
    (words : (first :: others).map Token.word = passed ++ [mark ";"])
    (solid : ∀ word ∈ passed, word.isSolid = true) (passes : ∀ word ∈ passed, word.isPassed = true)
    (starts : ∀ word ∈ passed.head?, word.denotations.operand? = none) : ∃ span logged,
      (statement (room + 1)).run context (ParseState.start context (first :: others ++ rest)) =
        (none, resumed context rest span [first.unexpected] logged) := by
  have idle := unstarted_idle words solid passes starts
  obtain ⟨terminal, events, fits, text, span, started⟩ :=
    @start_token context first (others ++ rest) grammar idle.1
  have unexpected : (⟨.unexpectedToken terminal.text, terminal.span, .error⟩ : Diagnostic) =
      first.unexpected := by rw [text, span]; rfl
  have operand := fits.operand?_none idle.2.2.1
  have statement? := fits.statement?.trans idle.2.1
  let entered := opened terminal (others ++ rest) {} [] 1 events
  have complains : entered.complaining = opened terminal (others ++ rest) {} [first.unexpected] 1 events := by
    rw [← unexpected]
    rfl
  -- The semicolon is the first word, or comes after words that are passed over.
  have skips : ∃ last span events, skipStatement.run context entered =
      ((), (advance.run context (opened last rest span [first.unexpected] 1 events)).2) := by
    cases passed with
    | nil =>
        obtain ⟨same, more⟩ := List.cons.inj words
        obtain rfl : others = [] := List.map_eq_nil_iff.mp more
        have id : entered.token.id = ";" := fits.id.trans (congrArg Word.id same)
        rw [skipStatement_semicolon id, complains]
        exact ⟨terminal, {}, events, rfl⟩
    | cons word passed =>
        obtain ⟨same, more⟩ := List.cons.inj words
        obtain ⟨skipped, last, rfl, between, ends⟩ := List.map_eq_append_iff.mp more
        obtain ⟨semicolon, rfl, mark⟩ := List.map_eq_singleton_iff.mp ends
        have regular : Regular context entered := ⟨grammar, ScopeTree.all_start⟩
        have all : ∀ other ∈ first :: skipped, other.word.isSolid = true ∧ other.word.isPassed = true := by
          intro other member
          have known : other.word ∈ word :: passed := by
            rw [← same, ← between, ← List.map_cons]
            exact List.mem_map_of_mem member
          exact ⟨solid _ known, passes _ known⟩
        obtain ⟨last, span, logged, ran⟩ := @skipStatement_passes context skipped first semicolon rest
          entered regular fits all mark (by simp [entered, opened])
        rw [complains] at ran
        exact ⟨last, span, logged, ran⟩
  obtain ⟨last, span, events, skipped⟩ := skips
  obtain ⟨logged, resumes⟩ := @advance_resumes context last rest span [first.unexpected] 1 events
  refine ⟨last.span, logged, ?_⟩
  have body : (statementBody (expression room) (statement room)).run context entered =
      (none, { resumed context rest last.span [first.unexpected] logged with depth := 1 }) := by
    simp only [statementBody, run_current_bind]
    have statement? : entered.token.denotations.statement? = none := statement?
    have operand : entered.token.denotations.operand? = none := operand
    rw [statement?, operand, run_bind_of_eq skipped, resumes]
    rfl
  rw [List.cons_append, started]
  change (statementBody (expression room) (statement room) >>= fun result =>
    leave >>= fun _ => pure result).run context entered = _
  rw [run_bind_of_eq body, run_bind_of_eq (resumed_depth rest last.span [first.unexpected] logged)]
  rfl

theorem recover_resumes (grammar : context.grammar = Grammar.standard) {first : Token}
    {others rest : List Token} (braces : ∀ token ∈ first :: others, token.word = mark "\x7d")
    (apart : (ParseState.start context rest).token.id ≠ "\x7d") : ∃ span logged,
      (recover (·.id == "\x7d")).run context (ParseState.start context (first :: others ++ rest)) =
        ((), resumed context rest span [first.unexpected] logged) := by
  have solid : ∀ token ∈ first :: others, token.word.isSolid = true := by
    intro token member
    rw [braces token member]
    decide
  have skips : ∀ token ∈ first :: others, ∀ terminal : Terminal, terminal.Fits token.word →
      (terminal.id == "\x7d") = true := by
    intro token member terminal fits
    rw [fits.id, braces token member]
    rfl
  rw [List.forall_mem_cons] at solid skips
  obtain ⟨terminal, events, fits, text, span, started⟩ :=
    @start_token context first (others ++ rest) grammar solid.1
  let state := opened terminal (others ++ rest) {} [] 0 events
  have regular : Regular context state := ⟨grammar, ScopeTree.all_start⟩
  obtain ⟨last, previous, events', recovered⟩ :=
    recover_passes regular solid.2 skips.2 fits.isEnd (skips.1 terminal fits) rfl
  have complains : state.complaining.moved last rest previous events' =
      opened last rest previous [first.unexpected] 0 events' := by
    unfold Token.unexpected
    rw [← text, ← span]
    rfl
  obtain ⟨logged, resumes⟩ := @advance_resumes context last rest previous [first.unexpected] 0 events'
  have depth := @start_depth context rest
  refine ⟨last.span, logged, ?_⟩
  rw [List.cons_append, started]
  refine recovered.trans ?_
  rw [complains, resumes, ← depth]
  exact whileToken_stop () (by simp [resumed, ParseState.following, apart])

theorem statements_resume (room : Nat) (grammar : context.grammar = Grammar.standard) {first : Token}
    {others rest : List Token} (junk : Junk ((first :: others).map Token.word))
    (apart : first.word = mark "\x7d" → (ParseState.start context rest).token.id ≠ "\x7d") :
    ∃ span logged, (statements (statement (room + 1))).run context
        (ParseState.start context (first :: others ++ rest)) =
      (statements (statement (room + 1))).run context
        (resumed context rest span [first.unexpected] logged) := by
  generalize same : (first :: others).map Token.word = words at junk
  -- What no statement starts with is skipped inside the list, braces are skipped between two lists.
  cases junk with
  | @unstarted passed solid passes starts =>
      obtain ⟨span, logged, skipped⟩ :=
        @statement_resumes context room grammar first others rest passed same solid passes starts
      obtain ⟨here, _, _, opens⟩ := unstarted_idle same solid passes starts
      obtain ⟨terminal, events, fits, _, _, started⟩ :=
        @start_token context first (others ++ rest) grammar here
      have goesOn : (terminal.id != "\x7d") = true := by
        rw [fits.id, bne_iff_ne]
        exact fun same => opens (eq_mark_of_id here (by decide) same)
      refine ⟨span, logged, ?_⟩
      have begins : (statementsUntilBrace (statement (room + 1))).run context
            (ParseState.start context (first :: others ++ rest)) =
          (statementsUntilBrace (statement (room + 1))).run context
            (resumed context rest span [first.unexpected] logged) := by
        have round := @whileToken_round _ context (·.id != "\x7d") _ (anotherStatement_advances (room + 1)) []
          (ParseState.start context (first :: others ++ rest))
          (by rw [List.cons_append, started]; exact fits.isEnd)
          (by rw [List.cons_append, started]; exact goesOn)
        refine round.trans ?_
        unfold anotherStatement
        rw [bind_assoc, run_bind_of_eq skipped]
        rfl
      unfold statements
      rw [run_bind, begins, ← run_bind]
  | braces count =>
      have braces : ∀ token ∈ first :: others, token.word = mark "\x7d" := by
        intro token member
        have known : token.word ∈ List.replicate (count + 1) (mark "\x7d") := by
          rw [← same]
          exact List.mem_map_of_mem member
        exact (List.mem_replicate.mp known).2
      have here := braces first (by simp)
      obtain ⟨span, logged, skipped⟩ := recover_resumes grammar braces (apart here)
      obtain ⟨terminal, events, fits, _, _, started⟩ :=
        @start_token context first (others ++ rest) grammar (by rw [here]; decide)
      have id : terminal.id = "\x7d" := by rw [fits.id, here, id_mark]
      refine ⟨span, logged, ?_⟩
      have stops : (statementsUntilBrace (statement (room + 1))).run context
          (ParseState.start context (first :: others ++ rest)) =
            ([], ParseState.start context (first :: others ++ rest)) := by
        refine whileToken_stop [] ?_
        rw [List.cons_append, started]
        simp [opened, id]
      have round := @whileToken_round _ context (fun _ => true) _ (afterStrayBrace_advances (room + 1)) []
        (ParseState.start context (first :: others ++ rest))
        (by rw [List.cons_append, started]; exact fits.isEnd) rfl
      unfold statements
      rw [run_bind_of_eq stops, round]
      unfold afterStrayBrace
      rw [bind_assoc, run_bind_of_eq skipped]
      simp only [List.nil_append, bind_pure]

end ParseM

namespace Document

def reporting (document : Document) (diagnostic : Diagnostic) : Document :=
  { document with diagnostics := diagnostic :: document.diagnostics }

theorem analyzed_following (document : Document) (reported : Diagnostics) (grammar : Grammar)
    (options : Options) :
    { document with diagnostics := reported ++ document.diagnostics }.analyzed grammar options =
      { document.analyzed grammar options with
        diagnostics := reported ++ (document.analyzed grammar options).diagnostics } := by
  unfold analyzed
  split
  · simp [undefinedNames]
  · rfl

/-- What is skipped at the beginning is reported, and makes no other difference. -/
theorem ofTokens_junk {context : Context} (grammar : context.grammar = Grammar.standard)
    (deep : 1 ≤ context.options.maxDepth) {first : Token} {others rest : List Token}
    (junk : Junk ((first :: others).map Token.word))
    (apart : first.word = mark "\x7d" → (ParseState.start context rest).token.id ≠ "\x7d") :
    ofTokens context (first :: others ++ rest) =
      (ofTokens context rest).reporting first.unexpected := by
  obtain ⟨room, limit⟩ := Nat.exists_eq_add_of_le' deep
  obtain ⟨span, logged, resumes⟩ := ParseM.statements_resume room grammar junk apart
  obtain ⟨events, same⟩ := (@ParseM.Composed.statements _ none).impartially (room + 1) context
    context.options [first.unexpected] logged (ParseState.start context rest) rfl
  have unchanged : context.withOptions context.options = context := rfl
  unfold ofTokens
  rw [limit, resumes, ParseM.resumed, ofRun_previousSpan]
  rw [unchanged] at same
  rw [same, ofRun_following, analyzed_following]
  rfl

end Document

/-! ## Texts -/

theorem Token.lexeme_brace (rest : List Char) : lexeme ('\x7d' :: rest) = (.operator, 1) := by
  have begins : isMark '\x7d' = true := by decide
  obtain ⟨start, digit, quote, hash, space⟩ := isMark_cases begins
  have length : operatorLength ('\x7d' :: rest) = 1 := by
    simp [operatorLength, operators, List.isPrefixOf]
    rfl
  simp [lexeme, rules, longest, length, blockCommentLength, lineCommentLength,
    nameLength_of_isNameStart start, integerLength_of_isDigit digit, spaceLength_of_isSpace space,
    stringLength_of_ne quote, directiveLength_of_ne hash]

theorem Junk.solid {words : List Word} (junk : Junk words) : ∀ word ∈ words, word.isSolid = true := by
  cases junk with
  | unstarted solid =>
      intro word member
      rcases List.mem_append.mp member with passed | last
      · exact solid word passed
      · obtain rfl := List.mem_singleton.mp last
        decide
  | braces others =>
      intro word member
      obtain rfl := (List.mem_replicate.mp member).2
      decide

structure Piece where
  word : Word
  gap : String

namespace Piece

def text (piece : Piece) : List Char := piece.word.text.toList ++ piece.gap.toList

def source (pieces : List Piece) : String := String.ofList (pieces.flatMap text)

def Blank (piece : Piece) : Prop := ∀ c ∈ piece.gap.toList, isSpace c = true

instance (piece : Piece) : Decidable piece.Blank :=
  decidable_of_iff (piece.gap.toList.all isSpace = true) List.all_eq_true

def Apart (first second : Piece) : Prop :=
  first.gap ≠ "" ∨ first.word = mark "\x7d" ∨ second.word = mark ";"

instance (first second : Piece) : Decidable (Apart first second) := by
  unfold Apart
  infer_instance

def tokens (position : Position) : List Piece → List Token
  | [] => []
  | piece :: others =>
      ⟨piece.word.kind, piece.word.text, ⟨position, position.afterAll piece.word.text.toList⟩⟩ ::
        tokens (position.afterAll piece.text) others

theorem tokens_words (position : Position) (pieces : List Piece) :
    (tokens position pieces).map Token.word = pieces.map (·.word) := by
  induction pieces generalizing position with
  | nil => rfl
  | cons piece others ih =>
      rw [tokens, List.map_cons, List.map_cons, ih]
      rfl

theorem lexeme_eq {piece : Piece} {others : List Piece} (solid : piece.word.isSolid = true)
    (blank : piece.Blank) (apart : ∀ next ∈ others.head?, piece.Apart next) (rest : List Char) :
    lexeme (piece.word.text.toList ++ (piece.gap.toList ++ (others.flatMap text ++ '\n' :: rest))) =
      (piece.word.kind, piece.word.text.length) := by
  cases gap : piece.gap.toList with
  | cons c more =>
      have delimiter : isDelimiter c = true := by
        simp [isDelimiter, blank c (by simp [gap])]
      exact Word.lexeme_eq solid delimiter
  | nil =>
      rw [String.toList_eq_nil_iff] at gap
      cases others with
      | nil => exact Word.lexeme_eq solid (by rfl)
      | cons next others =>
          rcases apart next rfl with parted | brace | semicolon
          · exact absurd gap parted
          · rw [brace]
            exact lexeme_brace _
          · refine Word.lexeme_eq solid ?_
            rw [List.flatMap_cons, text, semicolon]
            rfl

theorem visible_source {pieces : List Piece} (solid : ∀ piece ∈ pieces, piece.word.isSolid = true)
    (blank : ∀ piece ∈ pieces, piece.Blank) (apart : pieces.IsChain Apart) (rest : List Char)
    (position : Position) :
    (Cursor.mk (pieces.flatMap text ++ '\n' :: rest) position).visible =
      tokens position pieces ++
        (Cursor.mk ('\n' :: rest) (position.afterAll (pieces.flatMap text))).visible := by
  induction pieces generalizing position with
  | nil => rfl
  | cons piece others ih =>
      rw [List.forall_mem_cons] at solid blank
      rw [List.isChain_cons] at apart
      have other : piece.word.kind ≠ .whitespace := by
        intro kind
        simp [Word.isSolid, kind] at solid
      have lexed := lexeme_eq solid.1 blank.1 apart.1 rest
      rw [List.flatMap_cons, List.append_assoc, text, List.append_assoc, Cursor.visible_word lexed other,
        Cursor.visible_spaces blank.1, ih solid.2 blank.2 apart.2, tokens, text]
      simp only [Position.afterAll_append, List.cons_append]

theorem isSignificant_of_tokens {pieces : List Piece} (solid : ∀ piece ∈ pieces, piece.word.isSolid = true)
    (position : Position) : ∀ token ∈ tokens position pieces, token.isSignificant = true := by
  intro token member
  have known : token.word ∈ pieces.map (·.word) := by
    rw [← tokens_words position]
    exact List.mem_map_of_mem member
  obtain ⟨piece, found, same⟩ := List.mem_map.mp known
  exact Word.isSignificant_of_solid (solid piece found) same.symm

/-- A text with `junk` on the lines before it has the same tokens, so many lines further down. -/
theorem visible_line {junk : List Piece} (solid : ∀ piece ∈ junk, piece.word.isSolid = true)
    (blank : ∀ piece ∈ junk, piece.Blank) (apart : junk.IsChain Apart) (rest : String) :
    (Cursor.ofSource (source junk ++ "\n" ++ rest)).visible = tokens {} junk ++
      respan (Span.down ((source junk).toList.count '\n' + 1)) (Cursor.ofSource rest).visible := by
  have characters : (source junk ++ "\n" ++ rest).toList =
      junk.flatMap text ++ '\n' :: rest.toList := by simp [source]
  have spaces : ∀ c ∈ ['\n'], isSpace c = true := by simp [isSpace]
  have passed := Cursor.visible_spaces spaces rest.toList (({} : Position).afterAll (junk.flatMap text))
  rw [← Position.afterAll_append, Position.afterAll_newline, List.singleton_append] at passed
  rw [Cursor.ofSource, characters, visible_source solid blank apart, passed]
  have down := Cursor.visible_down ((source junk).toList.count '\n' + 1) (Cursor.ofSource rest)
  rw [source, String.toList_ofList] at down ⊢
  rw [← down]
  rfl

end Piece

namespace Document

theorem eq_of_withoutImports {first second : Document}
    (same : first.withoutImports = second.withoutImports) (imports : first.imports = second.imports) :
    first = second := by
  cases first
  cases second
  simp only [withoutImports, mk.injEq] at same imports ⊢
  exact ⟨same.1, same.2.1, same.2.2.1, same.2.2.2.1, imports⟩

theorem filter_visible (source : String) :
    (Cursor.ofSource source).visible.filter Token.isSignificant =
      (tokens source).filter Token.isSignificant := by
  unfold Cursor.visible
  rw [List.filter_filter]
  refine List.filter_congr fun token _ => ?_
  obtain ⟨kind, text, span⟩ := token
  cases kind <;> rfl

theorem includes_visible (source : String) :
    (Cursor.ofSource source).visible.filterMap Token.includeTarget =
      (tokens source).filterMap Token.includeTarget := by
  unfold Cursor.visible
  rw [List.filterMap_filter]
  refine List.filterMap_congr fun token _ => ?_
  by_cases blank : token.kind = .whitespace
  · simp [blank, includeTarget]
  · simp [blank]

section

variable {pieces : List Piece} (solid : ∀ piece ∈ pieces, piece.word.isSolid = true)
  (blank : ∀ piece ∈ pieces, piece.Blank) (apart : pieces.IsChain Piece.Apart) (source : String)

include solid blank apart

theorem filter_line : (tokens (Piece.source pieces ++ "\n" ++ source)).filter Token.isSignificant =
    Piece.tokens {} pieces ++ respan (Span.down ((Piece.source pieces).toList.count '\n' + 1))
      ((tokens source).filter Token.isSignificant) := by
  have own := List.filter_eq_self.mpr (Piece.isSignificant_of_tokens solid {})
  rw [← filter_visible, ← filter_visible, Piece.visible_line solid blank apart, List.filter_append, own,
    Spanned.respan_list, List.filter_map]
  rfl

theorem includes_line : (tokens (Piece.source pieces ++ "\n" ++ source)).filterMap Token.includeTarget =
    (tokens source).filterMap Token.includeTarget := by
  have none : (Piece.tokens {} pieces).filterMap Token.includeTarget = [] := by
    rw [List.filterMap_eq_nil_iff]
    intro token member
    have significant := Piece.isSignificant_of_tokens solid {} token member
    refine includeTarget_eq_none fun directive => ?_
    simp [Token.isSignificant, TokenKind.isTrivia, directive] at significant
  rw [← includes_visible, ← includes_visible, Piece.visible_line solid blank apart, List.filterMap_append,
    none, Spanned.respan_list, List.filterMap_map]
  rfl

end

theorem finish_line (line source : String) :
    (Cursor.ofSource (line ++ "\n" ++ source)).readAll.2.position =
      (Cursor.ofSource source).readAll.2.position.down (line.toList.count '\n' + 1) := by
  have characters : (line ++ "\n" ++ source).toList = line.toList ++ ['\n'] ++ source.toList := by simp
  rw [Cursor.readAll_finish, Cursor.readAll_finish, ← Position.afterAll_down]
  simp only [Cursor.ofSource]
  rw [characters, Position.afterAll_append, Position.afterAll_newline]

section

variable (options : Options) {first : Piece} {others : List Piece}

/-- Junk before a document is skipped as a whole: the document reads as it would by itself, as many lines
further down as the junk takes, and the one other report names the first word of the junk. -/
theorem parse_resumes (deep : 1 ≤ options.maxDepth) (junk : Junk ((first :: others).map (·.word)))
    (blank : ∀ piece ∈ first :: others, piece.Blank) (apart : (first :: others).IsChain Piece.Apart)
    (source : String)
    (unclosed : first.word = mark "\x7d" → (start Grammar.standard options source).token.id ≠ "\x7d") :
    parse Grammar.standard options (Piece.source (first :: others) ++ "\n" ++ source) =
      (respan (Span.down ((Piece.source (first :: others)).toList.count '\n' + 1))
        (parse Grammar.standard options source)).reporting
          ⟨.unexpectedToken first.word.text, ⟨{}, Position.ofText first.word.text.toList⟩, .error⟩ := by
  have solid : ∀ piece ∈ first :: others, piece.word.isSolid = true :=
    fun piece member => junk.solid _ (List.mem_map_of_mem member)
  have significant := filter_line solid blank apart source
  have includes := includes_line solid blank apart source
  have finish := finish_line (Piece.source (first :: others)) source
  generalize (Piece.source (first :: others)).toList.count '\n' + 1 = lines at significant finish ⊢
  generalize Piece.source (first :: others) ++ "\n" ++ source = whole at significant includes finish ⊢
  let here := context Grammar.standard options source
  let there := context Grammar.standard options whole
  let rest := respan (Span.down lines) ((tokens source).filter Token.isSignificant)
  have moved : Span.at there.finish = Span.down lines (Span.at here.finish) := congrArg Span.at finish
  have contexts : here.Mirrors (Span.down lines) there := ⟨rfl, rfl, moved⟩
  have mirrors := start_mirrors contexts (tokens source)
  have begins : first.word = mark "\x7d" → (ParseState.start there rest).token.id ≠ "\x7d" := by
    intro brace same
    refine unclosed brace ?_
    rw [← same]
    exact (congrArg Terminal.id mirrors.token).symm
  have words : Junk ((Piece.tokens {} (first :: others)).map Token.word) := by
    rw [Piece.tokens_words]
    exact junk
  have skipped : ofTokens there (Piece.tokens {} (first :: others) ++ rest) =
      (ofTokens there rest).reporting
        ⟨.unexpectedToken first.word.text, ⟨{}, ({} : Position).afterAll first.word.text.toList⟩, .error⟩ :=
    ofTokens_junk rfl deep words begins
  -- Imports are read off the tokens; all else comes from reading, which never looks at them.
  refine eq_of_withoutImports ?_ ?_
  · have same : Span.at there.finish = id (Span.at (Cursor.ofSource whole).readAll.2.position) := rfl
    have read := parse_respan Grammar.standard options whole same
    have alone := parse_respan Grammar.standard options source moved
    have stay := Unmoved.list (fun token : Token => rfl) (Piece.tokens {} (first :: others) ++ rest)
    rw [Unmoved.document, significant, stay] at read
    rw [read, ← Position.afterAll_start]
    exact (congrArg withoutImports skipped).trans (congrArg (Document.reporting · _) alone.symm)
  · obtain ⟨_, imports, _⟩ := parse_tokens Grammar.standard options whole
    obtain ⟨_, imports', _⟩ := parse_tokens Grammar.standard options source
    rw [imports, includes, ← imports']
    rfl

end

theorem parse_resumes_unmatched :
    parse Grammar.standard Options.default ") ]\n;\nint y;" =
        (respan (Span.down 2) (parse Grammar.standard Options.default "int y;")).reporting
          ⟨.unexpectedToken ")", ⟨⟨0, 0⟩, ⟨0, 1⟩⟩, .error⟩ ∧
      parse Grammar.standard Options.default "\x7d\x7d \nint y;" =
        (respan (Span.down 1) (parse Grammar.standard Options.default "int y;")).reporting
          ⟨.unexpectedToken "\x7d", ⟨⟨0, 0⟩, ⟨0, 1⟩⟩, .error⟩ := by
  have deep : 1 ≤ Options.default.maxDepth := by decide
  have starts : ∀ word ∈ [mark ")", mark "]"].head?, word.denotations.operand? = none := by decide
  have passes : ∀ word ∈ [mark ")", mark "]"], word.isPassed = true := by decide
  let brackets : List Piece := [⟨mark "]", "\n"⟩, ⟨mark ";", ""⟩]
  have blank : ∀ piece ∈ ⟨mark ")", " "⟩ :: brackets, piece.Blank := by
    decide
  have apart : List.IsChain Piece.Apart (⟨mark ")", " "⟩ :: brackets) := by
    decide
  have blank' : ∀ piece ∈ [⟨mark "\x7d", ""⟩, ⟨mark "\x7d", " "⟩], Piece.Blank piece := by
    decide
  have apart' : List.IsChain Piece.Apart [⟨mark "\x7d", ""⟩, ⟨mark "\x7d", " "⟩] := by
    decide
  have unclosed : (start Grammar.standard Options.default "int y;").token.id ≠ "\x7d" := by
    decide +kernel
  have skipped := @parse_resumes Options.default ⟨mark ")", " "⟩ brackets deep
    (.unstarted (by decide) passes starts) blank apart "int y;" (by decide)
  have skipped' := @parse_resumes Options.default ⟨mark "\x7d", ""⟩ [⟨mark "\x7d", " "⟩] deep (.braces 1)
    blank' apart' "int y;" fun _ => unclosed
  have text : Piece.source (⟨mark ")", " "⟩ :: brackets) = ") ]\n;" := by decide
  have text' : Piece.source [⟨mark "\x7d", ""⟩, ⟨mark "\x7d", " "⟩] = "\x7d\x7d " := by decide
  rw [text] at skipped
  rw [text'] at skipped'
  exact ⟨skipped, skipped'⟩

end Document

end Adventure
