import Adventure.Proofs.Remaking

/-!
Programs that lack some of their `;`. Whatever `;` of a program are left out where they can be, the same
statements are read, and each of them that is missing is reported once.
-/

namespace Adventure

open Word

namespace ParseM

variable {context : Context} {dropped : Nat → Bool} {room : Nat}

section

variable {body : List Stmt} {words rest : List Word}

def MendsStatement (context : Context) (dropped : Nat → Bool) (room : Nat) (formed : Stmt)
    (words : List Word) : Prop :=
  ∀ ⦃rest : List Word⦄, Follows rest → Mends context dropped (statement room) (words ++ rest) rest
    fun made => made.map Stmt.unplaced = some formed.unplaced

theorem statement_mends {before after : List Word} {property : Option Stmt → Prop}
    (mends : Mends context dropped (statementBody (expression room) (statement room)) before after
      property) :
    Mends context dropped (statement (room + 1)) before after property := by
  rw [statement]
  apply (Mends.aside fun _ => Reads.enter.calm).bind
  intro _ _
  apply mends.bind
  intro made holds
  apply (Mends.aside fun _ => Reads.leave.calm).bind
  intro _ _
  exact .value holds

theorem isTidy_of_statement? {word : Word} {form : StatementForm}
    (acts : word.denotations.statement? = some form) : word.isTidy = true := by
  have idle : (mark ";").denotations.statement? = none ∧ (mark ".").denotations.statement? = none := by
    decide
  simp only [isTidy, Bool.and_eq_true, bne_iff_ne]
  constructor
  · rintro rfl
    rw [idle.1] at acts
    cases acts
  · rintro rfl
    rw [idle.2] at acts
    cases acts

theorem formed_mends {word : Word} {form : StatementForm} {others : List Word} {formed : Stmt}
    (acts : word.denotations.statement? = some form)
    (remakes : Omits dropped (word :: others) → ∀ terminal : Terminal, terminal.Fits word →
      Remakes context dropped (statementForm (expression room) (statement room) terminal form) others
        rest formed) :
    Mends context dropped (statement (room + 1)) (word :: others) rest
      fun made => made.map Stmt.unplaced = some formed.unplaced := by
  have tidy := isTidy_of_statement? acts
  apply statement_mends
  apply Mends.current
  intro ahead omits faces
  rw [omits.kept_cons (ne_of_isTidy tidy)] at faces
  have forms : ahead.denotations.statement? = some form := by
    rw [Terminal.Fits.statement? faces, acts]
  simp only [forms]
  unfold formedStatement
  simp only [bind_assoc]
  apply (Mends.single tidy fun _ => Reads.advance.calm).bind
  intro terminal fits
  apply (Mends.aside fun _ => (Reads.log _).calm).bind
  intro _ _
  apply (Mends.aside fun _ => (Reads.reserve fits (.inl (isFree_of_statement? acts))).calm).bind
  intro _ _
  apply (remakes omits terminal fits).bind
  intro made same
  exact .value (congrArg some same)

theorem ne_of_opens {word : Word} (opens : word.opens = true) : word ≠ mark ";" := by
  rintro rfl
  exact id_ne_of_opens opens (by decide) (id_mark ";")

theorem expression_mends {value : Expr} (spelled : Spelled room (.value value) words)
    (accepted : value.isAccepted = true) :
    Mends context dropped (statement (room + 1)) (words ++ mark ";" :: rest) rest
      fun made => made.map Stmt.unplaced = some (Stmt.expression value).unplaced := by
  obtain ⟨word, others, rfl, opens⟩ := accepted_opens spelled accepted
  apply statement_mends
  apply Mends.facing (ne_of_opens opens)
  intro ahead fits
  have plain : ahead.denotations.statement? = none := by
    rw [fits.statement?, statement?_of_opens opens]
  obtain ⟨form, starts⟩ : ∃ form, ahead.denotations.operand? = some form := by
    rcases fits.denotations with same | ⟨_, same⟩
    · rw [same]
      exact Option.isSome_iff_exists.mp opens
    · rw [same]
      exact ⟨_, rfl⟩
  simp only [plain, starts]
  unfold expressionStatement
  simp only [bind_assoc]
  apply (value_mends spelled accepted).bind
  intro made same
  apply (Mends.aside fun _ => Reads.warningUnless _ _ _).bind
  intro _ _
  apply Mends.expectSemicolon.bind
  intro _ _
  rw [pure_bind]
  apply Mends.value
  simp only [Option.map_some, Stmt.unplaced, same]

theorem MendsBody.nothing : MendsBody context dropped room [] [] :=
  fun _ _ _ _ goesOn => goesOn [] rfl

theorem MendsBody.another {formed : Stmt} {word : Word} {others : List Word}
    (before : MendsBody context dropped room body words) (starts : word.starts = true)
    (last : MendsStatement context dropped room formed (word :: others)) :
    MendsBody context dropped room (body ++ [formed]) (words ++ word :: others) := by
  intro rest after property follows goesOn
  have other : word ≠ mark ";" := by
    rintro rfl
    exact id_ne_of_starts starts (by decide) (id_mark ";")
  have id : word.id ≠ "\x7d" := id_ne_of_starts starts (by decide)
  rw [List.append_assoc]
  apply before
  · intro next member
    obtain rfl := Option.some.inj member
    exact ⟨id_ne_of_starts starts (by decide), other⟩
  · intro made same
    apply Mends.round (anotherStatement_advances room) other
    · intro terminal fits
      rw [fits.id]
      exact bne_iff_ne.mpr id
    · have mends : Mends context dropped (anotherStatement (statement room) made) (word :: others ++ rest)
          rest fun all => Stmt.unplacedAll all = Stmt.unplacedAll (body ++ [formed]) := by
        apply (last follows).bind
        intro next sameNext
        apply Mends.value
        rw [unplacedAll_append, unplacedAll_append, same, unplacedAll_toList sameNext]
      exact mends.bind goesOn

theorem MendsElse.none : MendsElse context dropped room none [] := by
  intro rest follows
  unfold elseBody
  apply Mends.current
  intro terminal omits faces
  have other : terminal.id ≠ "else" := by
    cases rest with
    | nil =>
        have atEnd : terminal = endTerminal context := faces
        simp [atEnd, endTerminal]
    | cons word rest =>
        obtain ⟨apart, plain⟩ := follows word rfl
        have fits : terminal.Fits word := by
          rw [List.nil_append, Omits.kept_cons omits plain] at faces
          exact faces
        rw [fits.id]
        exact apart
  rw [if_neg other]
  exact .value rfl

theorem else_mends {after : List Word} (mends : Mends context dropped (alternative (statement room)) words
    after fun made => Stmt.unplacedAll made = Stmt.unplacedAll body) :
    Mends context dropped (elseBody (statement room)) (name "else" :: words) after
      fun made => Stmt.unplacedElse made = Stmt.unplacedElse (some body) := by
  have bound : (name "else").isFree = false := by decide
  unfold elseBody
  apply Mends.facing (by decide)
  intro terminal fits
  have id : terminal.id = "else" := by
    rw [fits.id, id_name, bound]
    rfl
  rw [if_pos id]
  apply (Mends.single (isTidy_name _) fun _ => Reads.advance.calm).bind
  intro keyword fits
  apply (Mends.aside fun _ => (Reads.reserve fits (.inl bound)).calm).bind
  intro _ _
  apply mends.bind
  intro made same
  exact .value (congrArg some same)

theorem MendsElse.block (mends : MendsBody context dropped room body words) :
    MendsElse context dropped room (some body) (name "else" :: braces words) := by
  intro rest _
  apply else_mends
  unfold alternative
  apply Mends.facing (by decide)
  intro terminal fits
  have id : terminal.id = "\x7b" := fits.id
  have other : ¬terminal.id = "if" := by
    rw [id]
    decide
  rw [if_neg other]
  exact block_mends mends

theorem MendsElse.chain {formed : Stmt} (chained : words.head? = some (name "if"))
    (mends : MendsStatement context dropped room formed words) :
    MendsElse context dropped room (some [formed]) (name "else" :: words) := by
  intro rest follows
  have bound : (name "if").isFree = false := by decide
  obtain ⟨others, rfl⟩ : ∃ others, words = name "if" :: others := by
    cases words with
    | nil => cases chained
    | cons word others =>
        cases chained
        exact ⟨others, rfl⟩
  apply else_mends
  unfold alternative
  apply Mends.facing (by decide)
  intro terminal fits
  have id : terminal.id = "if" := by
    rw [fits.id, id_name, bound]
    rfl
  rw [if_pos id]
  apply (mends follows).bind
  intro made same
  exact .value (unplacedAll_toList same)

end

/-! ## Programs -/

def MendsPart (context : Context) (dropped : Nat → Bool) (room : Nat) : Part → List Word → Prop
  | .statement formed, words => MendsStatement context dropped room formed words ∧
      ∃ word others, words = word :: others ∧ word.starts = true
  | .body body, words => MendsBody context dropped room body words
  | .alternative statements?, words => MendsElse context dropped room statements? words

theorem MendsPart.of_remakes {formed : Stmt} {word : Word} {form : StatementForm} {others : List Word}
    (acts : word.denotations.statement? = some form)
    (remakes : ∀ terminal : Terminal, terminal.Fits word → ∀ rest, Follows rest →
      Omits dropped (word :: (others ++ rest)) →
        Remakes context dropped (statementForm (expression room) (statement room) terminal form)
          (others ++ rest) rest formed) :
    MendsPart context dropped (room + 1) (.statement formed) (word :: others) := by
  refine ⟨?_, word, others, rfl, starts_of_statement? acts⟩
  intro rest follows
  apply formed_mends acts
  intro omits terminal fits
  exact remakes terminal fits rest follows omits

/-- A program is read as it was written, whatever `;` it lacks. -/
theorem written_mends {part : Part} {words : List Word} (written : Written room part words)
    (formed : part.wellFormed = true) : MendsPart context dropped room part words := by
  -- On how the program is written: a part mends if its keyword's reader does, and that does if the parts do.
  induction written with
  | expression spelled =>
      obtain ⟨word, others, rfl, opens⟩ := accepted_opens spelled formed
      refine ⟨?_, word, _, rfl, starts_of_opens opens⟩
      intro rest _
      rw [List.append_assoc]
      exact expression_mends spelled formed
  | @function _ head returnType _ _ words others names signature _ ih =>
      simp only [Part.wellFormed, Stmt.wellFormed, Bool.and_eq_true] at formed
      obtain ⟨⟨fresh, parametersFormed⟩, bodyFormed⟩ := formed
      have acts : (name returnType.keyword).denotations.statement? =
          some (.declaration returnType) := by cases returnType <;> decide
      apply MendsPart.of_remakes acts
      intro terminal fits rest _ _
      have shape : name head.text :: (brackets "(" ")" words ++ braces others) ++ rest =
          name head.text :: mark "(" :: (words ++ mark ")" :: (braces others ++ rest)) := by
        simp [brackets]
      rw [shape]
      exact function_remakes fresh signature parametersFormed (ih bodyFormed)
  | @classDefinition _ head isAbstract _ _ words others names superclass _ ih =>
      simp only [Part.wellFormed, Stmt.wellFormed, Bool.and_eq_true] at formed
      obtain ⟨⟨fresh, _⟩, bodyFormed⟩ := formed
      have acts : (name "class").denotations.statement? = some .classDefinition := by decide
      apply MendsPart.of_remakes acts
      intro terminal fits rest _ _
      rw [List.append_assoc, List.cons_append, List.append_assoc]
      exact class_remakes fresh superclass (ih bodyFormed)
  | @verb _ _ word _ _ words others spells literal plain second third =>
      simp only [Part.wellFormed, Stmt.wellFormed, Bool.and_eq_true] at formed
      obtain ⟨⟨⟨_, isWord⟩, actionOperand⟩, flagsOperand⟩ := formed
      have acts : (name "verb").denotations.statement? = some .verb := by decide
      apply MendsPart.of_remakes acts
      intro terminal fits rest _ _
      have shape : brackets "(" ")" (⟨.string, word.text⟩ :: mark "," ::
            (words ++ mark "," :: others)) ++ [mark ";"] ++ rest =
          mark "(" :: (⟨.string, word.text⟩ :: mark "," :: (words ++ mark "," ::
            (others ++ mark ")" :: mark ";" :: rest))) := by
        simp [brackets]
      have same := fits.head_keyword (isFree_of_statement? acts) spells
      rw [shape]
      exact verb_remakes same isWord second actionOperand third flagsOperand
  | @declaration _ _ valueType _ _ spells storable separated =>
      simp only [Part.wellFormed, Stmt.wellFormed, Bool.and_eq_true] at formed
      have acts : (name valueType.keyword).denotations.statement? =
          some (.declaration valueType) := by cases valueType <;> decide
      apply MendsPart.of_remakes acts
      intro terminal fits rest _ _
      have same := fits.head_keyword (isFree_of_statement? acts) spells
      rw [List.append_assoc]
      exact variables_remakes same storable separated formed.2
  | block spells _ ih =>
      simp only [Part.wellFormed, Stmt.wellFormed, Bool.and_eq_true] at formed
      have acts : (mark "\x7b").denotations.statement? = some .block := by decide
      apply MendsPart.of_remakes acts
      intro terminal fits rest _ _
      rw [List.append_assoc]
      exact block_remakes (fits.head_mark spells) (ih formed.2)
  | @returning _ _ _ words spells value =>
      simp only [Part.wellFormed, Stmt.wellFormed, Bool.and_eq_true] at formed
      have acts : (name "return").denotations.statement? = some .returning := by decide
      apply MendsPart.of_remakes acts
      intro terminal fits rest _ omits
      have same := fits.head_keyword (isFree_of_statement? acts) spells
      rw [List.append_assoc] at omits ⊢
      refine returning_remakes same value formed.2 fun none => ?_
      subst none
      by_contra drops
      have dispensable := omits [name "return"] (mark ";") rest rfl (by simpa using drops)
      exact dispensable.2.1 (by decide)
  | guarded spells acts spelled _ ih =>
      simp only [Part.wellFormed, Stmt.wellFormed, Bool.and_eq_true] at formed
      obtain ⟨⟨_, accepted⟩, bodyFormed⟩ := formed
      have acts := statement?_name acts
      apply MendsPart.of_remakes acts
      intro terminal fits rest _ _
      have same := fits.head_keyword (isFree_of_statement? acts) spells
      rw [List.append_assoc]
      exact guarded_remakes same spelled accepted (ih bodyFormed)
  | doWhile spells _ spelled ih =>
      simp only [Part.wellFormed, Stmt.wellFormed, Bool.and_eq_true] at formed
      obtain ⟨⟨_, bodyFormed⟩, accepted⟩ := formed
      have acts : (name "do").denotations.statement? = some .doWhile := by decide
      apply MendsPart.of_remakes acts
      intro terminal fits rest _ _
      have same := fits.head_keyword (isFree_of_statement? acts) spells
      rw [List.append_assoc, List.cons_append, List.append_assoc]
      exact doWhile_remakes same (ih bodyFormed) spelled accepted
  | ifElse spells spelled _ _ thenIH elseIH =>
      simp only [Part.wellFormed, Stmt.wellFormed, Bool.and_eq_true] at formed
      obtain ⟨⟨⟨_, accepted⟩, thenFormed⟩, elseFormed⟩ := formed
      have acts : (name "if").denotations.statement? = some .ifElse := by decide
      apply MendsPart.of_remakes acts
      intro terminal fits rest follows _
      have same := fits.head_keyword (isFree_of_statement? acts) spells
      rw [List.append_assoc, List.append_assoc]
      exact ifElse_remakes same spelled accepted (thenIH thenFormed) (elseIH elseFormed) follows
  | @forLoop _ _ _ _ _ _ firstWords conditionWords stepWords words spells first condition step _ ih =>
      simp only [Part.wellFormed, Stmt.wellFormed, Bool.and_eq_true] at formed
      obtain ⟨⟨⟨⟨_, firstAccepted⟩, conditionAccepted⟩, stepAccepted⟩, bodyFormed⟩ := formed
      have acts : (name "for").denotations.statement? = some .forLoop := by decide
      apply MendsPart.of_remakes acts
      intro terminal fits rest _ _
      have shape : brackets "(" ")" (firstWords ++ mark ";" ::
            (conditionWords ++ mark ";" :: stepWords)) ++ braces words ++ rest =
          mark "(" :: (firstWords ++ mark ";" :: (conditionWords ++ mark ";" ::
            (stepWords ++ mark ")" :: (braces words ++ rest)))) := by
        simp [brackets]
      have same := fits.head_keyword (isFree_of_statement? acts) spells
      rw [shape]
      exact forLoop_remakes same first firstAccepted condition conditionAccepted step stepAccepted
        (ih bodyFormed)
  | caseLabel spells spelled =>
      simp only [Part.wellFormed, Stmt.wellFormed, Bool.and_eq_true] at formed
      have acts : (name "case").denotations.statement? = some .caseLabel := by decide
      apply MendsPart.of_remakes acts
      intro terminal fits rest _ _
      have same := fits.head_keyword (isFree_of_statement? acts) spells
      rw [List.append_assoc]
      exact caseLabel_remakes same spelled formed.2
  | bare spells acts =>
      have acts := statement?_name acts
      apply MendsPart.of_remakes acts
      intro terminal fits rest _ _
      exact bare_remakes (fits.head_keyword (isFree_of_statement? acts) spells)
  | nothing => exact MendsBody.nothing
  | @another _ _ statement _ _ _ _ beforeIH lastIH =>
      rw [Part.wellFormed, Stmt.wellFormedAll_append, Bool.and_eq_true] at formed
      have last : statement.wellFormed = true := by
        simpa only [Stmt.wellFormedAll, Bool.and_true] using formed.2
      obtain ⟨mends, word, others, rfl, starts⟩ := lastIH last
      have before : MendsBody context dropped _ _ _ := beforeIH formed.1
      exact before.another starts mends
  | noElse => exact MendsElse.none
  | elseBlock _ ih => exact MendsElse.block (ih formed)
  | elseIf chained _ ih =>
      simp only [Part.wellFormed, Stmt.wellFormedElse, Stmt.wellFormedAll, Bool.and_true] at formed
      exact MendsElse.chain chained (ih formed).1

theorem MendsBody.statements {body : List Stmt} {words : List Word}
    (mends : MendsBody context dropped room body words) :
    Mends context dropped (statements (statement room)) words []
      fun made => Stmt.unplacedAll made = Stmt.unplacedAll body := by
  have past (again : Terminal → Bool) : Omits dropped [] → ∀ terminal,
      Faces context terminal (kept dropped []) → (!terminal.isEnd && again terminal) = false := by
    intro _ terminal faces
    have atEnd : terminal = endTerminal context := faces
    simp [atEnd, endTerminal, Terminal.isEnd]
  have first : Mends context dropped (statementsUntilBrace (statement room)) (words ++ []) []
      fun made => Stmt.unplacedAll made = Stmt.unplacedAll body := by
    apply mends
    · intro word member
      cases member
    · intro made same
      exact .stop (past _) same
  rw [List.append_nil] at first
  apply first.bind
  intro made same
  exact .stop (past _) same

theorem start_trail {tokens : List Token} (grammar : context.grammar = Grammar.standard)
    (legible : ∀ token ∈ tokens, token.complaints Grammar.standard = []) :
    (ParseState.start context tokens).trail =
      {} :: (tokens.filter Token.isSignificant).map (·.span) := by
  obtain ⟨terminal, passed, pending, events, started, split, arrival⟩ := @start_eq context tokens
  have passedLegible : ∀ token ∈ passed, token.complaints Grammar.standard = [] := by
    intro token member
    exact legible token (by simp [split, member])
  have significant := arrival.significant grammar passedLegible
  rw [started, split, List.filter_append, significant]
  simp only [ParseState.trail, ParseState.ahead, List.filter_append]
  rfl

end ParseM

namespace Document

open ParseM

theorem errors_analyzed (grammar : Grammar) (options : Options) (document : Document) :
    (document.analyzed grammar options).diagnostics.errors = document.diagnostics.errors := by
  have silent := undefinedNames_hasErrors grammar options document
  unfold analyzed
  split
  · rw [Diagnostics.errors_append, Diagnostics.errors_eq_nil silent, List.append_nil]
  · rfl

section

variable {program : List Stmt} {options : Options} {words : List Word}
  (formed : Stmt.wellFormedAll program = true) (written : Written options.maxDepth (.body program) words)

include formed written

theorem parse_mends {dropped : Nat → Bool} (omits : Omits dropped words) {source : String}
    (same : Token.words (tokens source) = kept dropped words) :
    Stmt.unplacedAll (parse Grammar.standard options source).statements = Stmt.unplacedAll program ∧
      (parse Grammar.standard options source).diagnostics.errors =
        missing dropped ({} :: ((tokens source).filter Token.isSignificant).map (·.span)) words := by
  have solid : ∀ word ∈ Token.words (tokens source), word.isSolid = true := by
    intro word member
    rw [same] at member
    exact written.solid formed word ((kept_sublist dropped words).subset member)
  have legible := legible_of_solid solid
  let context := context Grammar.standard options source
  obtain ⟨settled, ahead, told⟩ := @start_settled context (tokens source) rfl legible
  have trail := @start_trail context (tokens source) rfl legible
  have body : MendsBody context dropped options.maxDepth program words := written_mends written formed
  have stands : Stands context dropped (missing dropped
      ({} :: ((tokens source).filter Token.isSignificant).map (·.span)) words) words
      (ParseState.start context (tokens source)) := by
    refine ⟨settled, omits, ahead.trans same, ?_⟩
    rw [told, trail]
    rfl
  obtain ⟨made, final, ran, ended, remade⟩ := body.statements _ _ stands
  have run : run Grammar.standard options source = (made, final) := ran
  have reports := ended.reports
  rw [missing_nil, List.append_nil] at reports
  simp only [parse, statements_analyzed, errors_analyzed, run]
  exact ⟨remade, reports⟩

/-- Where `;` are left out of a program that can be, it is read as it would be with them; the errors are as
many as they are, and each says that one is missing, at the word before it. -/
theorem parse_omitting {dropped : Nat → Bool} (omits : Omits dropped words) {source : String}
    (same : Token.words (tokens source) = kept dropped words) :
    (∀ intact, Token.words (tokens intact) = words →
      Stmt.unplacedAll (parse Grammar.standard options source).statements =
        Stmt.unplacedAll (parse Grammar.standard options intact).statements) ∧
      Stmt.unplacedAll (parse Grammar.standard options source).statements = Stmt.unplacedAll program ∧
      (parse Grammar.standard options source).diagnostics.errors =
        missing dropped ({} :: ((tokens source).filter Token.isSignificant).map (·.span)) words ∧
      (parse Grammar.standard options source).diagnostics.errors.length +
        (Token.words (tokens source)).length = words.length := by
  obtain ⟨remade, reports⟩ := parse_mends formed written omits same
  refine ⟨?_, remade, reports, ?_⟩
  · intro intact whole
    have nothing : Omits (fun _ => false) words := by
      intro before word after split drops
      cases drops
    have all : kept (fun _ => false) words = words := by
      have untouched : ∀ before word after, words = before ++ word :: after → false = false :=
        fun _ _ _ _ => rfl
      have keeps := @kept_append (fun _ => false) words [] untouched
      rwa [List.append_nil, kept, List.append_nil] at keeps
    have read := parse_mends formed written nothing (whole.trans all.symm)
    rw [remade, read.1]
  · rw [reports, same]
    apply length_missing
    rw [List.length_cons, List.length_map, ← same, Token.words, List.length_map]

end

theorem parse_omitting_loop :
    let source := "int x while ( x ) \x7b break \x7d return x"
    Stmt.unplacedAll (parse Grammar.standard Options.default source).statements =
        Stmt.unplacedAll (parse Grammar.standard Options.default
          "int x ; while ( x ) \x7b break ; \x7d return x ;").statements ∧
      (parse Grammar.standard Options.default source).diagnostics.errors =
        [⟨.missingSemicolon, ⟨⟨0, 4⟩, ⟨0, 5⟩⟩, .error⟩,
          ⟨.missingSemicolon, ⟨⟨0, 20⟩, ⟨0, 25⟩⟩, .error⟩,
          ⟨.missingSemicolon, ⟨⟨0, 35⟩, ⟨0, 36⟩⟩, .error⟩] := by
  intro source
  let head (id text : String) : Head := { id, text, span := {} }
  let x : Atom := ⟨.name, head "(name)" "x"⟩
  let program : List Stmt :=
    [.declaration (head "int" "int") .int [⟨x, false, none, none⟩],
      .guarded (head "while" "while") (.atom x) [.bare (head "break" "break")],
      .returning (head "return" "return") (some (.atom x))]
  let dropped (after : Nat) : Bool := [0, 4, 11].contains after
  have formed : Stmt.wellFormedAll program = true := by decide
  have room : Stmt.nestingAll program ≤ Options.default.maxDepth := by decide
  have written : Written Options.default.maxDepth (.body program) (Stmt.wordsAll program) :=
    Written.mono (Stmt.wordsAfter_written program formed (Nat.le_refl _) .nothing) room
  have omits : Omits dropped (Stmt.wordsAll program) := by decide
  have same : Token.words (tokens source) = kept dropped (Stmt.wordsAll program) := by decide +kernel
  have whole : Token.words (tokens "int x ; while ( x ) \x7b break ; \x7d return x ;") =
      Stmt.wordsAll program := by decide +kernel
  have places : missing dropped ({} :: ((tokens source).filter Token.isSignificant).map (·.span))
      (Stmt.wordsAll program) = [⟨.missingSemicolon, ⟨⟨0, 4⟩, ⟨0, 5⟩⟩, .error⟩,
        ⟨.missingSemicolon, ⟨⟨0, 20⟩, ⟨0, 25⟩⟩, .error⟩,
        ⟨.missingSemicolon, ⟨⟨0, 35⟩, ⟨0, 36⟩⟩, .error⟩] := by decide +kernel
  have read := parse_omitting formed written omits same
  exact ⟨read.1 _ whole, read.2.2.1.trans places⟩

end Document

end Adventure
