import Adventure.Document
import Adventure.Proofs.Bindings
import Adventure.Proofs.Lexing
import Adventure.Proofs.Progress
import Adventure.Proofs.Syntax

/-!
Reading of words that are known in advance. As long as keywords keep their meaning, the next word
alone decides what the lookahead is, and reading can be followed word by word.
-/

namespace Adventure

theorem Diagnostics.hasErrors_append (first second : Diagnostics) :
    hasErrors (first ++ second) = (first.hasErrors || second.hasErrors) := by
  unfold hasErrors
  exact List.any_append

/-- The terminal is what the word stands for where keywords keep their meaning. -/
structure Terminal.Fits (terminal : Terminal) (word : Word) : Prop where
  origin : terminal.origin = some word.kind
  text : terminal.text = word.text
  id : terminal.id = word.id
  denotations : terminal.denotations = word.denotations ∨
    (word.isFree = true ∧ terminal.denotations = Denotations.identifier)
  significant : word.kind.isTrivia = false

namespace Terminal.Fits

variable {terminal : Terminal} {word : Word}

theorem denotations_of_free (free : word.isFree = true) :
    word.denotations = Grammar.undefinedName.denotations := by
  have name : word.kind = .name := by
    simp only [Word.isFree, Bool.and_eq_true, beq_iff_eq] at free
    exact free.1
  simp [Word.denotations, name, free]

theorem power (fits : terminal.Fits word) :
    terminal.denotations.power = word.denotations.power := by
  rcases fits.denotations with same | ⟨free, same⟩
  · rw [same]
  · rw [same, denotations_of_free free]
    rfl

theorem operator? (fits : terminal.Fits word) :
    terminal.denotations.operator? = word.denotations.operator? := by
  rcases fits.denotations with same | ⟨free, same⟩
  · rw [same]
  · rw [same, denotations_of_free free]
    rfl

theorem statement? (fits : terminal.Fits word) :
    terminal.denotations.statement? = word.denotations.statement? := by
  rcases fits.denotations with same | ⟨free, same⟩
  · rw [same]
  · rw [same, denotations_of_free free]
    rfl

theorem bound (fits : terminal.Fits word) (bound : word.isFree = false) :
    terminal.denotations = word.denotations := by
  rcases fits.denotations with same | ⟨free, _⟩
  · exact same
  · simp [bound] at free

theorem isEnd (fits : terminal.Fits word) : terminal.isEnd = false := by
  simp [Terminal.isEnd, fits.origin]

theorem isName (fits : terminal.Fits word) : terminal.isName = (word.kind == .name) := by
  simp [Terminal.isName, fits.origin]

theorem token? (fits : terminal.Fits word) :
    ∃ token, terminal.token? = some token ∧ token.word = word := by
  refine ⟨⟨word.kind, terminal.text, terminal.span⟩, ?_, ?_⟩
  · simp [Terminal.token?, fits.origin]
  · simp [Token.word, fits.text]

end Terminal.Fits

structure Definition.Clean (definition : Definition) : Prop where
  id : definition.id = (Word.name definition.name).id
  denotations : definition.denotations = (Word.name definition.name).denotations ∨
    ((Word.name definition.name).isFree = true ∧ definition.denotations = Denotations.identifier)
  reserved : definition.reserved = true ↔
    ((Word.name definition.name).isFree = false ∨ definition.name = "abstract")

def ParseState.words (state : ParseState) : List Word := Token.words state.ahead

def ParseState.trail (state : ParseState) : List Span :=
  state.previousSpan :: (state.ahead.filter Token.isSignificant).map (·.span)

namespace ParseM

structure Regular (context : Context) (state : ParseState) : Prop where
  grammar : context.grammar = Grammar.standard
  bindings : state.scopes.All Definition.Clean

/-- Keywords keep their meaning, and nothing in the tokens ahead is to be complained about. -/
structure Settled (context : Context) (state : ParseState) : Prop
    extends Regular context state where
  ended : EndKnown context state
  lookahead : ∀ token, state.token.token? = some token → state.token.Fits token.word
  legible : ∀ token ∈ state.pending, token.complaints Grammar.standard = []

variable {context : Context}

theorem Settled.of_eq {before after : ParseState} (settled : Settled context before)
    (token : after.token = before.token) (pending : after.pending = before.pending)
    (scopes : after.scopes = before.scopes) : Settled context after where
  grammar := settled.grammar
  bindings := scopes ▸ settled.bindings
  ended := settled.ended.of_eq token pending
  lookahead := by
    rw [token]
    exact settled.lookahead
  legible := by
    rw [pending]
    exact settled.legible

/-- Reading is settled, and has come there by consuming some of the words ahead one after the other. -/
structure Brings (context : Context) (before after : ParseState) : Prop extends Settled context after
    where
  trail : after.trail <:+ before.trail

theorem Brings.refl {state : ParseState} (settled : Settled context state) :
    Brings context state state :=
  ⟨settled, List.suffix_rfl⟩

theorem Brings.trans {before middle after : ParseState} (first : Brings context before middle)
    (second : Brings context middle after) : Brings context before after :=
  ⟨second.toSettled, second.trail.trans first.trail⟩

theorem Settled.stays {before after : ParseState} (settled : Settled context before)
    (token : after.token = before.token) (pending : after.pending = before.pending)
    (scopes : after.scopes = before.scopes) (previous : after.previousSpan = before.previousSpan) :
    Brings context before after := by
  have same : after.trail = before.trail := by
    simp only [ParseState.trail, ParseState.ahead, token, pending, previous]
  exact ⟨settled.of_eq token pending scopes, same ▸ List.suffix_rfl⟩

def Faces (context : Context) (terminal : Terminal) (words : List Word) : Prop :=
  match words with
  | [] => terminal = endTerminal context
  | word :: _ => terminal.Fits word

theorem Settled.faces {state : ParseState} (settled : Settled context state) :
    Faces context state.token state.words := by
  cases ended : state.token.isEnd with
  | true =>
      obtain ⟨token, pending⟩ := settled.ended ended
      have words : state.words = [] := by
        simp [ParseState.words, ParseState.ahead, token, pending, endTerminal, Terminal.token?,
          Token.words]
      rw [words]
      exact token
  | false =>
      obtain ⟨token, made, ahead⟩ := ahead_of_isEnd_false ended
      have fits := settled.lookahead token made
      have significant : token.isSignificant = true := by
        simpa [Token.isSignificant, Token.word] using fits.significant
      have words : state.words = token.word :: Token.words state.pending := by
        simp [ParseState.words, ahead, Token.words_cons, significant]
      rw [words]
      exact fits

theorem Regular.terminal_fits {state : ParseState} (regular : Regular context state)
    {token : Token} (name : token.kind = .name) :
    ((state.scopes.find state.scope token.text context.grammar).terminal token).Fits token.word := by
  have word : token.word = Word.name token.text := by simp [Token.word, Word.name, name]
  have trivia : token.word.kind.isTrivia = false := by simp [word, Word.name, TokenKind.isTrivia]
  unfold ScopeTree.find
  cases found : state.scopes.findWithin token.text state.scopes.size state.scope with
  | some definition =>
      obtain ⟨clean, same⟩ := regular.bindings.found found
      have id := clean.id
      have denotations := clean.denotations
      rw [same, ← word] at id denotations
      exact ⟨rfl, rfl, id, denotations, trivia⟩
  | none =>
      rw [regular.grammar]
      cases known : Grammar.standard.get? token.text with
      | some symbol =>
          have bound : token.word.isFree = false := by simp [word, Word.isFree, Word.name, known]
          obtain ⟨_, same⟩ := Grammar.get?_denotations known
          refine ⟨rfl, rfl, ?_, .inl ?_, trivia⟩
          · simp only [Word.id, bound]
            simp [word, Word.name, Lookup.terminal, Terminal.ofSymbol, same]
          · simp only [Word.denotations, bound]
            simp [word, Word.name, Lookup.terminal, Terminal.ofSymbol, same]
      | none =>
          have free : token.word.isFree = true := by simp [word, Word.isFree, Word.name, known]
          refine ⟨rfl, rfl, ?_, .inl ?_, trivia⟩
          · simp only [Word.id, free]
            simp [word, Word.name, Lookup.terminal, Terminal.ofSymbol]
            rfl
          · rw [Terminal.Fits.denotations_of_free free]
            rfl

theorem literalSymbol_standard :
    literalSymbol Grammar.standard = ⟨"(literal)", Grammar.standard.denotations "(literal)"⟩ := by
  decide

theorem Regular.meaning?_fits {state : ParseState} (regular : Regular context state)
    {token : Token} {terminal : Terminal} (meant : token.meaning? context state = some terminal) :
    terminal.Fits token.word := by
  unfold Token.meaning? at meant
  cases kind : token.kind with
  | comment | whitespace | directive | invalid => simp [kind] at meant
  | name =>
      simp only [kind, Option.some.injEq] at meant
      subst meant
      exact regular.terminal_fits kind
  | operator =>
      simp only [kind, Option.map_eq_some_iff] at meant
      obtain ⟨symbol, known, rfl⟩ := meant
      rw [regular.grammar] at known
      obtain ⟨_, rfl⟩ := Grammar.get?_denotations known
      have bound : token.word.isFree = false := by simp [Word.isFree, Token.word, kind]
      refine ⟨rfl, rfl, ?_, .inl ?_, by simp [Token.word, kind, TokenKind.isTrivia]⟩
      · simp only [Word.id, bound]
        simp [Token.word, kind, Terminal.ofSymbol]
      · simp only [Word.denotations, bound]
        simp [Token.word, kind, Terminal.ofSymbol]
  | integer | string =>
      simp only [kind, Option.some.injEq] at meant
      subst meant
      rw [regular.grammar, literalSymbol_standard]
      refine ⟨rfl, rfl, ?_, .inl ?_, by simp [Token.word, kind, TokenKind.isTrivia]⟩
      · simp [Word.id, Token.word, kind, Terminal.ofSymbol]
      · simp [Word.denotations, Token.word, kind, Terminal.ofSymbol]

theorem isSignificant_of_idle (grammar : context.grammar = Grammar.standard) {state : ParseState}
    {token : Token} (legible : token.complaints Grammar.standard = [])
    (idle : token.meaning? context state = none) : token.isSignificant = false := by
  unfold Token.meaning? at idle
  cases kind : token.kind with
  | comment | whitespace | directive => simp [Token.isSignificant, kind, TokenKind.isTrivia]
  | invalid => simp [Token.complaints, kind] at legible
  | operator =>
      simp only [kind, Option.map_eq_none_iff] at idle
      rw [grammar] at idle
      simp [Token.complaints, kind, idle] at legible
  | name | integer | string => simp [kind] at idle

theorem Arrival.significant (grammar : context.grammar = Grammar.standard) {state : ParseState}
    {passed pending : List Token} {terminal : Terminal}
    (legible : ∀ token ∈ passed, token.complaints Grammar.standard = [])
    (arrival : Arrival context state passed pending terminal) :
    passed.filter Token.isSignificant = terminal.token?.toList.filter Token.isSignificant := by
  cases arrival with
  | finish idle =>
      rw [endTerminal, Terminal.token?]
      simpa using fun token member =>
        isSignificant_of_idle grammar (legible token member) (idle token member)
  | @terminal skipped _ token _ idle meant =>
      have trivial : skipped.filter Token.isSignificant = [] := by
        simpa using fun token member =>
          isSignificant_of_idle grammar (legible token (by simp [member])) (idle token member)
      rw [List.filter_append, trivial, Token.meaning?_token? meant]
      rfl

theorem Arrival.words (grammar : context.grammar = Grammar.standard) {state : ParseState}
    {passed pending : List Token} {terminal : Terminal}
    (legible : ∀ token ∈ passed, token.complaints Grammar.standard = [])
    (arrival : Arrival context state passed pending terminal) :
    Token.words passed = Token.words terminal.token?.toList :=
  congrArg (List.map Token.word) (arrival.significant grammar legible)

theorem Regular.arrival_fits {state : ParseState} (regular : Regular context state)
    {passed pending : List Token} {terminal : Terminal}
    (arrival : Arrival context state passed pending terminal) :
    ∀ token, terminal.token? = some token → terminal.Fits token.word := by
  cases arrival with
  | finish => simp [endTerminal, Terminal.token?]
  | terminal _ meant =>
      intro token made
      rw [Token.meaning?_token? meant, Option.some.injEq] at made
      exact made ▸ regular.meaning?_fits meant

theorem Settled.advance {state : ParseState} (settled : Settled context state) {word : Word}
    {rest : List Word} (ahead : state.words = word :: rest) :
    ∃ final, advance.run context state = (state.token, final) ∧ Brings context state final ∧
      final.words = rest ∧ final.diagnostics = state.diagnostics := by
  have faces := settled.faces
  rw [ahead] at faces
  obtain ⟨token, made, same⟩ := Terminal.Fits.token? faces
  have significant : token.isSignificant = true := by
    have trivia := faces.significant
    rw [← same] at trivia
    simpa [Token.isSignificant, Token.word] using trivia
  have behind : Token.words state.pending = rest := by
    rw [ParseState.words, ParseState.ahead, made, Option.toList_some, List.singleton_append,
      Token.words_cons, significant] at ahead
    exact (List.cons.inj ahead).2
  obtain ⟨terminal, passed, pending, events, ran, split, arrival⟩ := @advance_run context state
  have legible := settled.legible
  rw [split] at legible
  have passedLegible : ∀ token ∈ passed, token.complaints Grammar.standard = [] :=
    fun token member => legible token (by simp [member])
  have words := arrival.words settled.grammar passedLegible
  have fits := settled.arrival_fits arrival
  have quiet : passed.flatMap (Token.complaints context.grammar) = [] := by
    rw [settled.grammar, List.flatMap_eq_nil_iff]
    exact passedLegible
  refine ⟨_, ran, ⟨?_, ?_⟩, ?_, ?_⟩
  · exact
      { grammar := settled.grammar
        bindings := settled.bindings
        ended := arrival.endKnown
        lookahead := fits
        legible := fun token member => legible token (by simp [member]) }
  · have here : token.span = state.token.span := by
      obtain ⟨kind, _, rfl⟩ := Option.map_eq_some_iff.mp made
      rfl
    have significants := arrival.significant settled.grammar passedLegible
    simp only [ParseState.trail, ParseState.ahead, made, Option.toList_some, List.singleton_append,
      List.filter_cons_of_pos significant, List.map_cons, here, split, List.filter_append, significants]
    exact List.suffix_cons _ _
  · rw [← behind, split, Token.words_append, words]
    simp [ParseState.words, ParseState.ahead, Token.words_append]
  · simp [quiet]

theorem start_settled {tokens : List Token} (grammar : context.grammar = Grammar.standard)
    (legible : ∀ token ∈ tokens, token.complaints Grammar.standard = []) :
    let state := ParseState.start context tokens
    Settled context state ∧ state.words = Token.words tokens ∧ state.diagnostics = [] := by
  let blank : ParseState :=
    { token := { id := "(end)", text := "", span := {}, origin := none }, pending := [] }
  have regular : Regular context blank := ⟨grammar, ScopeTree.all_start⟩
  obtain ⟨terminal, passed, pending, events, ran, split, arrival⟩ :=
    @terminalFrom_run context tokens blank
  rw [split] at legible
  have passedLegible : ∀ token ∈ passed, token.complaints Grammar.standard = [] :=
    fun token member => legible token (by simp [member])
  have words := arrival.words regular.grammar passedLegible
  have fits := regular.arrival_fits arrival
  have quiet : passed.flatMap (Token.complaints context.grammar) = [] := by
    rw [grammar, List.flatMap_eq_nil_iff]
    exact passedLegible
  simp only [ParseState.start, blank, ran]
  refine ⟨?_, ?_, ?_⟩
  · exact
      { grammar
        bindings := regular.bindings
        ended := arrival.endKnown
        lookahead := fits
        legible := fun token member => legible token (by simp [member]) }
  · simp [split, Token.words_append, words, ParseState.words, ParseState.ahead]
  · simp [quiet]

theorem complaints_of_solid {token : Token} (solid : token.word.isSolid = true) :
    token.complaints Grammar.standard = [] := by
  have known : ∀ text ∈ Token.operators, (Grammar.standard.get? text).isNone = false := by
    decide
  obtain ⟨kind, text, span⟩ := token
  cases kind with
  | operator =>
      have member : text ∈ Token.operators := by simpa [Word.isSolid, Token.word] using solid
      simp [Token.complaints, known text member]
  | string =>
      have closed : Token.isClosedString ⟨.string, text, span⟩ = true := by
        simp only [Word.isSolid, Token.word, Word.isStringText] at solid
        split at solid
        · rename_i others characters
          simp only [Bool.and_eq_true, beq_iff_eq] at solid
          obtain ⟨body, rfl⟩ := List.getLast?_eq_some_iff.mp solid.1
          simp [Token.isClosedString, characters, List.getLast?_cons]
        · simp at solid
      simp [Token.complaints, closed]
  | _ => simp_all [Token.complaints, Token.word, Word.isSolid]

theorem eq_mark_of_id {word : Word} {text : String} (solid : word.isSolid = true)
    (operator : text ∈ Token.operators) (id : word.id = text) : word = Word.mark text := by
  have others : "(name)" ∉ Token.operators ∧ "(literal)" ∉ Token.operators := by decide
  have apart : ∀ mark ∈ Token.operators, Word.isNameText mark = false := by decide +kernel
  obtain ⟨kind, written⟩ := word
  cases kind with
  | name =>
      cases free : Word.isFree ⟨.name, written⟩ with
      | true =>
          simp only [Word.id, free, if_true] at id
          exact absurd (id ▸ operator) others.1
      | false =>
          have same : written = text := by simpa [Word.id, free] using id
          simp [Word.isSolid, same, apart text operator] at solid
  | integer | string =>
      have same : "(literal)" = text := id
      exact absurd (same ▸ operator) others.2
  | operator =>
      have same : written = text := id
      rw [same]
      rfl
  | _ => simp [Word.isSolid] at solid

theorem complaints_of_trivial {grammar : Grammar} {token : Token}
    (trivial : token.isSignificant = false) : token.complaints grammar = [] := by
  obtain ⟨kind, text, span⟩ := token
  cases kind <;> simp_all [Token.complaints, Token.isSignificant, TokenKind.isTrivia]

theorem meaning?_of_trivial {state : ParseState} {token : Token}
    (trivial : token.isSignificant = false) : token.meaning? context state = none := by
  obtain ⟨kind, text, span⟩ := token
  cases kind <;> simp_all [Token.meaning?, Token.isSignificant, TokenKind.isTrivia]

theorem legible_of_solid {tokens : List Token} (solid : ∀ word ∈ Token.words tokens, word.isSolid = true) :
    ∀ token ∈ tokens, token.complaints Grammar.standard = [] := by
  intro token member
  cases significant : token.isSignificant with
  | false => exact complaints_of_trivial significant
  | true =>
      apply complaints_of_solid
      apply solid
      rw [Token.words, List.mem_map]
      exact ⟨token, List.mem_filter.mpr ⟨member, significant⟩, rfl⟩

theorem spaced_start {options : Options} {words : List Word}
    (solid : ∀ word ∈ words, word.isSolid = true) :
    let source := Word.spaced words
    let state := Document.start Grammar.standard options source
    Settled (Document.context Grammar.standard options source) state ∧ state.words = words ∧
      state.diagnostics = [] := by
  have same := tokens_spaced solid
  have legible : ∀ token ∈ tokens (Word.spaced words), token.complaints Grammar.standard = [] := by
    apply legible_of_solid
    rw [same]
    exact solid
  obtain ⟨settled, ahead, told⟩ :=
    @start_settled (Document.context Grammar.standard options (Word.spaced words)) _ rfl legible
  exact ⟨settled, ahead.trans same, told⟩

/-! What reading does to the words ahead. -/

/-- Wherever `before` is ahead, `action` reads up to `after`; its value and what it reports satisfy
`result`. -/
def Reads {α : Type} (context : Context) (action : ParseM α) (before after : List Word)
    (result : α → Diagnostics → Prop) : Prop :=
  ∀ state, Settled context state → state.words = before →
    ∃ value final found, action.run context state = (value, final) ∧ Brings context state final ∧
      final.words = after ∧ final.diagnostics = state.diagnostics ++ found ∧ result value found

def Quiet {α : Type} (property : α → Prop) (value : α) (found : Diagnostics) : Prop :=
  property value ∧ found = []

namespace Reads

variable {α β : Type} {action : ParseM α} {next : α → ParseM β} {before middle after : List Word}
  {result : α → Diagnostics → Prop}

theorem value {value : α} (holds : result value []) :
    Reads context (pure value) before before result := by
  intro state settled ahead
  exact ⟨value, state, [], rfl, .refl settled, ahead, by simp, holds⟩

theorem bind {result' : β → Diagnostics → Prop} (first : Reads context action before middle result)
    (second : ∀ value found, result value found →
      Reads context (next value) middle after fun last others => result' last (found ++ others)) :
    Reads context (action >>= next) before after result' := by
  intro state settled ahead
  obtain ⟨value, between, found, ran, brings, ahead', told, holds⟩ := first state settled ahead
  obtain ⟨last, final, others, ran', brings', ahead'', told', holds'⟩ :=
    second value found holds between brings.toSettled ahead'
  refine ⟨last, final, found ++ others, ?_, brings.trans brings', ahead'', ?_, holds'⟩
  · rw [run_bind_of_eq ran, ran']
  · rw [told', told, List.append_assoc]

theorem quiet {property : α → Prop} {result' : β → Diagnostics → Prop}
    (first : Reads context action before middle (Quiet property))
    (second : ∀ value, property value → Reads context (next value) middle after result') :
    Reads context (action >>= next) before after result' := by
  refine first.bind fun value found told => ?_
  obtain ⟨holds, rfl⟩ := told
  exact second value holds

theorem imp {result' : α → Diagnostics → Prop} (reads : Reads context action before after result)
    (weaker : ∀ value found, result value found → result' value found) :
    Reads context action before after result' := by
  intro state settled ahead
  obtain ⟨value, final, found, ran, settled', ahead', told, holds⟩ := reads state settled ahead
  exact ⟨value, final, found, ran, settled', ahead', told, weaker value found holds⟩

theorem grammar (reads : context.grammar = Grammar.standard →
    Reads context action before after result) : Reads context action before after result :=
  fun state settled => reads settled.grammar state settled

theorem current {next : Terminal → ParseM α}
    (reads : ∀ terminal, Faces context terminal before →
      Reads context (next terminal) before after result) :
    Reads context (ParseM.current >>= next) before after result := by
  intro state settled ahead
  rw [run_current_bind]
  have faces := settled.faces
  rw [ahead] at faces
  exact reads state.token faces state settled ahead

theorem advance {word : Word} {rest : List Word} :
    Reads context ParseM.advance (word :: rest) rest (Quiet fun terminal => terminal.Fits word) := by
  intro state settled ahead
  obtain ⟨final, ran, settled', ahead', told⟩ := settled.advance ahead
  have faces := settled.faces
  rw [ahead] at faces
  exact ⟨state.token, final, [], ran, settled', ahead', by simp [told], faces, rfl⟩

theorem aside {change : ParseState → ParseState}
    (token : ∀ state, (change state).token = state.token)
    (pending : ∀ state, (change state).pending = state.pending)
    (scopes : ∀ state, (change state).scopes = state.scopes)
    (previous : ∀ state, (change state).previousSpan = state.previousSpan)
    (told : ∀ state, (change state).diagnostics = state.diagnostics) :
    Reads context (modify change) before before (Quiet fun _ => True) := by
  intro state settled ahead
  refine ⟨(), change state, [], rfl,
    settled.stays (token state) (pending state) (scopes state) (previous state), ?_, by simp [told],
    trivial, rfl⟩
  rw [← ahead, ParseState.words, ParseState.words, ParseState.ahead, ParseState.ahead, token,
    pending]

theorem log (event : Event) : Reads context (ParseM.log event) before before (Quiet fun _ => True) :=
  aside (fun _ => rfl) (fun _ => rfl) (fun _ => rfl) (fun _ => rfl) fun _ => rfl

theorem noteOccurrence (terminal : Terminal) :
    Reads context (ParseM.noteOccurrence terminal) before before (Quiet fun _ => True) :=
  aside (fun _ => rfl) (fun _ => rfl) (fun _ => rfl) (fun _ => rfl) fun _ => rfl

theorem enter : Reads context ParseM.enter before before (Quiet fun _ => True) :=
  aside (fun _ => rfl) (fun _ => rfl) (fun _ => rfl) (fun _ => rfl) fun _ => rfl

theorem leave : Reads context ParseM.leave before before (Quiet fun _ => True) :=
  aside (fun _ => rfl) (fun _ => rfl) (fun _ => rfl) (fun _ => rfl) fun _ => rfl

theorem expect {id : String} {word : Word} {rest : List Word} (same : word.id = id) :
    Reads context (ParseM.expect id) (word :: rest) rest
      (Quiet fun terminal => terminal.Fits word) := by
  unfold ParseM.expect
  refine current fun terminal faces => ?_
  have met : (terminal.id == id) = true := by
    rw [beq_iff_eq, ← same]
    exact faces.id
  simp only [met, errorUnless, if_true, pure_bind]
  exact advance

theorem skip {word : Word} {rest : List Word} :
    Reads context ParseM.skip (word :: rest) rest (Quiet fun _ => True) :=
  advance.quiet fun _ _ => value ⟨trivial, rfl⟩

theorem stop {again : Terminal → Bool} {body : α → ParseM α} {start : α}
    (past : ∀ terminal, Faces context terminal before → (!terminal.isEnd && again terminal) = false)
    (holds : result start []) :
    Reads context (whileToken again body start) before before result := by
  intro state settled ahead
  have faces := settled.faces
  rw [ahead] at faces
  exact ⟨start, state, [], whileToken_stop start (past state.token faces), .refl settled, ahead,
    by simp, holds⟩

theorem round {again : Terminal → Bool} {body : α → ParseM α} {start : α} {word : Word}
    {rest : List Word} (advances : Advances context again body)
    (goesOn : ∀ terminal, terminal.Fits word → again terminal = true)
    (reads : Reads context (body start >>= whileToken again body) (word :: rest) after result) :
    Reads context (whileToken again body start) (word :: rest) after result := by
  intro state settled ahead
  have faces := settled.faces
  rw [ahead] at faces
  rw [whileToken_round advances start faces.isEnd (goesOn state.token faces)]
  exact reads state settled ahead

end Reads

theorem reservation_clean {terminal : Terminal} {word : Word} (fits : terminal.Fits word)
    (kept : word.isFree = false ∨ word.text = "abstract") (name : terminal.isName = true)
    (scope : Nat) : (ScopeTree.reservation scope terminal).Clean := by
  have same : Word.name terminal.text = word := by
    obtain ⟨kind, text⟩ := word
    have kind : kind = .name := by simpa [fits.isName] using name
    simp [Word.name, fits.text, kind]
  refine ⟨?_, ?_, ?_⟩
  · simp only [ScopeTree.reservation, same]
    exact fits.id
  · simp only [ScopeTree.reservation, same]
    exact fits.denotations
  · simp only [ScopeTree.reservation, same]
    simpa [fits.text] using kept

/-- Keywords are bound to nothing but themselves, so taking one as a name is not reported. -/
theorem Settled.reserve_quiet {state : ParseState} (settled : Settled context state)
    {terminal : Terminal} {word : Word} (fits : terminal.Fits word)
    (kept : word.isFree = false ∨ word.text = "abstract") :
    (state.scopes.reserve state.scope terminal).2 = none := by
  unfold ScopeTree.reserve
  cases skipped : !terminal.isName || terminal.reserved with
  | true => rfl
  | false =>
      have name : terminal.isName = true := by
        simp only [Bool.or_eq_false_iff, Bool.not_eq_false'] at skipped
        exact skipped.1
      cases present : state.scopes.get? state.scope with
      | none => rfl
      | some target =>
          cases bound : target.get? terminal.text with
          | none => simp [bound]
          | some previous =>
              have clean := settled.bindings _ _ _ _ present bound
              have reserved := (reservation_clean fits kept name 0).reserved
              have again : previous.reserved = true := by
                rw [clean.reserved, ScopeTree.get?_name bound]
                exact reserved.mp rfl
              simp [bound, again]

namespace Reads

variable {α : Type} {before : List Word}

theorem reserve {terminal : Terminal} {word : Word} (fits : terminal.Fits word)
    (kept : word.isFree = false ∨ word.text = "abstract") :
    Reads context (ParseM.reserve terminal) before before (Quiet fun _ => True) := by
  intro state settled ahead
  have quiet := settled.reserve_quiet fits kept
  refine ⟨(), _, [], reserve_run terminal state, ?_, ahead, by simp [quiet], trivial, rfl⟩
  refine ⟨?_, List.suffix_rfl⟩
  exact
    { settled with
      bindings := settled.bindings.reserve _ fun name _ => reservation_clean fits kept name _ }

theorem define {terminal : Terminal} {word : Word} (fits : terminal.Fits word)
    (free : word.isFree = true) (other : word.text ≠ "abstract") (arity : Arity)
    (valueType? : Option ValueType) :
    Reads context (ParseM.define terminal arity valueType?) before before
      fun _ found => found.hasErrors = false := by
  intro state settled ahead
  have name : Word.name terminal.text = word := by
    have kind : word.kind = .name := by
      simp only [Word.isFree, Bool.and_eq_true, beq_iff_eq] at free
      exact free.1
    simp [Word.name, fits.text, ← kind]
  have clean : (declared terminal arity valueType? state.scope).Clean := by
    refine ⟨?_, .inr ⟨?_, rfl⟩, ?_⟩
    · simp only [declared, name]
      exact fits.id
    · simp only [declared, name]
      exact free
    · simp only [declared, name, free]
      simp [fits.text, other]
  refine ⟨(), _, _, define_run terminal arity valueType? state, ?_, ahead, rfl, ?_⟩
  · exact ⟨{ settled with bindings := settled.bindings.define _ clean }, List.suffix_rfl⟩
  · unfold ScopeTree.define
    cases present : state.scopes.get? state.scope with
    | none => rfl
    | some target =>
        cases bound : target.get? terminal.text with
        | none => simp [declared, bound, Diagnostics.hasErrors]
        | some previous =>
            have reserved := (settled.bindings _ _ _ _ present bound).reserved
            rw [ScopeTree.get?_name bound, name, free, fits.text] at reserved
            have declared' : previous.reserved = false := by simpa [other] using reserved
            simp [declared, bound, declared', Diagnostics.hasErrors]

end Reads

def Mild {α : Type} (property : α → Prop) (value : α) (found : Diagnostics) : Prop :=
  property value ∧ found.hasErrors = false

theorem Quiet.mild {α : Type} {property : α → Prop} {value : α} {found : Diagnostics}
    (quiet : Quiet property value found) : Mild property value found := by
  obtain ⟨holds, rfl⟩ := quiet
  exact ⟨holds, rfl⟩

namespace Reads

variable {α β : Type} {action : ParseM α} {next : α → ParseM β} {before middle after : List Word}
  {property : α → Prop} {property' : β → Prop}

theorem calm (reads : Reads context action before after (Quiet property)) :
    Reads context action before after (Mild property) :=
  reads.imp fun _ _ => Quiet.mild

theorem mild (first : Reads context action before middle (Mild property))
    (second : ∀ value, property value →
      Reads context (next value) middle after (Mild property')) :
    Reads context (action >>= next) before after (Mild property') := by
  refine first.bind fun value found told => ?_
  obtain ⟨holds, silent⟩ := told
  refine (second value holds).imp fun last others told' => ?_
  obtain ⟨holds', silent'⟩ := told'
  refine ⟨holds', ?_⟩
  rw [Diagnostics.hasErrors_append, silent, silent']
  rfl

theorem pure_mild {value : α} (holds : property value) :
    Reads context (pure value) before before (Mild property) :=
  .value ⟨holds, rfl⟩

theorem warning (problem : Problem) (span : Span) :
    Reads context (ParseM.warning problem span) before before (Mild fun _ => True) := by
  intro state settled ahead
  exact ⟨(), _, _, run_warning problem span state, settled.stays rfl rfl rfl rfl, ahead, rfl,
    trivial, rfl⟩

theorem warningUnless (met : Bool) (problem : Problem) (span : Span) :
    Reads context (ParseM.warningUnless met problem span) before before (Mild fun _ => True) := by
  cases met with
  | true => exact pure_mild trivial
  | false => exact warning problem span

theorem noteIfUndefined (terminal : Terminal) :
    Reads context (ParseM.noteIfUndefined terminal) before before (Quiet fun _ => True) := by
  intro state settled ahead
  unfold ParseM.noteIfUndefined
  rw [run_bind, run_lookup]
  cases Lookup.isUndefined (state.scopes.find state.scope terminal.text context.grammar) with
  | true => exact noteOccurrence terminal state settled ahead
  | false => exact value ⟨trivial, rfl⟩ state settled ahead

theorem expectSemicolon {rest : List Word} :
    Reads context ParseM.expectSemicolon (Word.mark ";" :: rest) rest (Quiet fun _ => True) := by
  intro state settled ahead
  have faces := settled.faces
  rw [ahead] at faces
  have id : state.token.id = ";" := Terminal.Fits.id faces
  have same : ParseM.expectSemicolon.run context state = ParseM.skip.run context state := by
    simp [ParseM.expectSemicolon, id]
  rw [same]
  exact skip state settled ahead

theorem pushScope : Reads context ParseM.pushScope before before (Quiet fun _ => True) := by
  intro state settled ahead
  refine ⟨(), _, [], rfl, ?_, ahead, by simp, trivial, rfl⟩
  exact ⟨{ settled with bindings := settled.bindings.push _ }, List.suffix_rfl⟩

theorem popScope : Reads context ParseM.popScope before before (Quiet fun _ => True) := by
  intro state settled ahead
  unfold ParseM.popScope
  rw [run_bind, run_get]
  cases popped : state.scopes.pop state.scope with
  | error problem =>
      cases problem
      exact ⟨(), _, [], rfl, settled.stays rfl rfl rfl rfl, ahead, by simp, trivial, rfl⟩
  | ok scopes =>
      refine ⟨(), _, [], rfl, ?_, ahead, by simp, trivial, rfl⟩
      exact ⟨{ settled with bindings := settled.bindings.pop popped }, List.suffix_rfl⟩

end Reads

/-! Items with commas between them. -/

/-- To read the items that the words spell, and then any that follow, is to read those that follow
once these were made. -/
def ReadsItems {α : Type} (context : Context) (first item : ParseM α) (words : List Word)
    (result : List α → Diagnostics → Prop) : Prop :=
  ∀ ⦃rest after : List Word⦄ ⦃final : List α → Diagnostics → Prop⦄, Word.limit rest = 0 →
    (∀ made found, result made found →
      Reads context (whileToken (·.id == ",") (afterComma item) made) rest after
        fun last others => final last (found ++ others)) →
    Reads context (first >>= afterCommas item) (words ++ rest) after final

theorem closing_limit : ∀ text ∈ Word.closers, (Grammar.standard.denotations text).power = 0 := by
  decide

namespace ReadsItems

variable {α : Type} {first item : ParseM α} {words others : List Word}
  {result result' : List α → Diagnostics → Prop}

theorem one (reads : ∀ rest, Word.limit rest = 0 →
    Reads context first (words ++ rest) rest fun made found => result [made] found) :
    ReadsItems context first item words result :=
  fun _ _ _ closed goesOn => (reads _ closed).bind fun made found holds =>
    goesOn [made] found holds

theorem more (before : ReadsItems context first item words result)
    (advances : Advances context (·.id == ",") (afterComma item))
    (last : ∀ rest made found, Word.limit rest = 0 → result made found →
      Reads context item (others ++ rest) rest
        fun next more => result' (made ++ [next]) (found ++ more)) :
    ReadsItems context first item (words ++ Word.mark "," :: others) result' := by
  intro rest after final closed goesOn
  rw [List.append_assoc]
  have apart : Word.limit (Word.mark "," :: others ++ rest) = 0 := closing_limit "," (by decide)
  refine before apart fun made found holds => ?_
  refine Reads.round advances (fun terminal fits => ?_) ?_
  · rw [fits.id]
    decide
  · have reads : Reads context (afterComma item made) (Word.mark "," :: others ++ rest) rest
        fun all more => result' all (found ++ more) := by
      refine (Reads.expect (Word.id_mark ",")).quiet fun _ _ => ?_
      refine (last rest made found closed holds).bind fun next more holds' => .value ?_
      rw [List.append_nil]
      exact holds'
    refine reads.bind fun all more holds' => ?_
    refine (goesOn all (found ++ more) holds').imp fun last others told => ?_
    rw [← List.append_assoc]
    exact told

theorem all (reads : ReadsItems context first item words result) {text : String}
    (closes : text ∈ Word.closers) (apart : text ≠ ",") (rest : List Word) :
    Reads context (first >>= afterCommas item) (words ++ Word.mark text :: rest)
      (Word.mark text :: rest) result := by
  refine reads (closing_limit text closes) fun made found holds =>
    .stop (fun terminal faces => ?_) (by simpa using holds)
  have id : terminal.id = text := Terminal.Fits.id faces
  simp [id, apart]

end ReadsItems

theorem Reads.commaList {α : Type} {item : ParseM α} {closing : String} {words rest : List Word}
    {result : List α → Diagnostics → Prop}
    (empty : words = [] → result [] [])
    (reads : words ≠ [] → ReadsItems context item item words result)
    (opens : ∀ word ∈ words.head?, word.id ≠ closing) (closes : closing ∈ Word.closers)
    (apart : closing ≠ ",") :
    Reads context (ParseM.commaList closing item) (words ++ Word.mark closing :: rest)
      (Word.mark closing :: rest) result := by
  unfold ParseM.commaList
  refine Reads.current fun terminal faces => ?_
  cases words with
  | nil =>
      have id : terminal.id = closing := Terminal.Fits.id faces
      simp only [id, if_true]
      exact .value (empty rfl)
  | cons word others =>
      have id : terminal.id ≠ closing := by
        rw [Terminal.Fits.id faces]
        exact opens word rfl
      simp only [id, if_false]
      exact (reads (by simp)).all closes apart rest

end ParseM

end Adventure
