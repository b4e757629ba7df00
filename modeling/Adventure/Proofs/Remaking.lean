import Adventure.Proofs.Mending

/-!
Statements that lack their `;`, after their first word. Each form of statement goes on past the `;` that are
missing from it and from what is in it, and makes what it would make with them.
-/

namespace Adventure

open Word

namespace ParseM

variable {context : Context} {dropped : Nat → Bool} {room : Nat}

/-! ## Pieces of statements -/

section

variable {words rest : List Word}

theorem parenthesized_mends {value : Expr} (spelled : Spelled room (.value value) words)
    (accepted : value.isAccepted = true) :
    Mends context dropped (parenthesized (expression room)) (brackets "(" ")" words ++ rest) rest
      fun made => made.unplaced = value.unplaced := by
  apply Mends.of_reads (tidy_brackets (by decide) (by decide) spelled.tidy)
  intro _
  exact (parenthesized_reads spelled accepted _).calm

theorem value_mends {value : Expr} (spelled : Spelled room (.value value) words)
    (accepted : value.isAccepted = true) :
    Mends context dropped (expression room Power.none) (words ++ mark ";" :: rest) (mark ";" :: rest)
      fun made => made.unplaced = value.unplaced := by
  apply Mends.of_reads spelled.tidy
  intro omits
  exact (accepted_reads spelled accepted (limit_of_ending (ending omits))).calm

theorem optional_mends {value? : Option Expr} (optional : Optional room value? words)
    (accepted : value?.all Expr.isAccepted = true)
    (valued : words = [] → Omits dropped (mark ";" :: rest) → dropped rest.length = false) :
    Mends context dropped (ParseM.optional (expression room) ";") (words ++ mark ";" :: rest)
      (mark ";" :: rest) fun made? => made?.map Expr.unplaced = value?.map Expr.unplaced := by
  apply Mends.of_reads optional.tidy
  intro omits
  cases optional with
  | none =>
      have stays : kept dropped (mark ";" :: rest) = mark ";" :: kept dropped rest := by
        rw [kept, valued rfl omits]
        rfl
      rw [stays]
      exact (optional_reads .none rfl (by decide) _).calm
  | @some value _ spelled =>
      have accepted : value.isAccepted = true := accepted
      obtain ⟨word, others, rfl, opens⟩ := accepted_opens spelled accepted
      unfold ParseM.optional
      apply Reads.current
      intro terminal faces
      have id : terminal.id ≠ ";" := by
        rw [Terminal.Fits.id faces]
        exact id_ne_of_opens opens (by decide)
      rw [if_neg id]
      have reads := @accepted_reads context room value _ _ spelled accepted
        (limit_of_ending (ending omits))
      apply Reads.mild reads.calm
      intro made same
      exact .pure_mild (congrArg some same)

theorem optional_goesOn {value? : Option Expr} {closing : Word} (optional : Optional room value? words)
    (accepted : value?.all Expr.isAccepted = true) (closes : closing.resumes = false) :
    ∃ next ∈ (words ++ closing :: rest).head?, next.resumes = false := by
  cases optional with
  | none => exact ⟨closing, rfl, closes⟩
  | @some value _ spelled =>
      have accepted : value.isAccepted = true := accepted
      obtain ⟨word, others, rfl, opens⟩ := accepted_opens spelled accepted
      have other : word ≠ mark "\x7d" := by
        rintro rfl
        exact id_ne_of_opens opens (by decide) (id_mark "\x7d")
      refine ⟨word, rfl, ?_⟩
      simp [Word.resumes, statement?_of_opens opens, other]

end

def Follows (rest : List Word) : Prop := ∀ word ∈ rest.head?, word.id ≠ "else" ∧ word ≠ mark ";"

/-- To read the statements of a block and those after them is to read these once the first were made. -/
def MendsBody (context : Context) (dropped : Nat → Bool) (room : Nat) (body : List Stmt)
    (words : List Word) : Prop :=
  ∀ ⦃rest after : List Word⦄ ⦃property : List Stmt → Prop⦄, Follows rest →
    (∀ made, Stmt.unplacedAll made = Stmt.unplacedAll body →
      Mends context dropped (whileToken (·.id != "\x7d") (anotherStatement (statement room)) made) rest
        after property) →
    Mends context dropped (statementsUntilBrace (statement room)) (words ++ rest) after property

section

variable {body : List Stmt} {words rest : List Word} {terminal : Terminal} {head : Head}

theorem MendsBody.closed (mends : MendsBody context dropped room body words) :
    Mends context dropped (statementsUntilBrace (statement room)) (words ++ mark "\x7d" :: rest)
      (mark "\x7d" :: rest) fun made => Stmt.unplacedAll made = Stmt.unplacedAll body := by
  apply mends
  · intro word member
    obtain rfl := Option.some.inj member
    decide
  · intro made same
    refine .stop (fun omits terminal faces => ?_) same
    rw [omits.kept_cons (by decide)] at faces
    have id : terminal.id = "\x7d" := Terminal.Fits.id faces
    simp [id]

theorem blockBody_mends (mends : MendsBody context dropped room body words) :
    Mends context dropped (blockBody (statement room)) (words ++ mark "\x7d" :: rest) rest
      fun made => Stmt.unplacedAll made = Stmt.unplacedAll body := by
  unfold blockBody
  apply (Mends.aside fun _ => Reads.pushScope.calm).bind
  intro _ _
  apply mends.closed.bind
  intro made same
  apply (Mends.aside fun _ => Reads.popScope.calm).bind
  intro _ _
  apply (Mends.expect (by decide)).bind
  intro _ _
  exact .value same

theorem atBrace_mends :
    Mends context dropped atBrace (mark "\x7b" :: rest) (mark "\x7b" :: rest) (· = true) :=
  @Mends.upTo context dropped _ atBrace rest [] (mark "\x7b") _ tidy_nil (by decide) fun rest =>
    (atBrace_reads rest).calm

theorem skip_mends {word : Word} (tidy : word.isTidy = true) :
    Mends context dropped skip (word :: rest) rest fun _ => True :=
  Mends.single tidy fun _ => Reads.skip.calm

theorem block_mends (mends : MendsBody context dropped room body words) :
    Mends context dropped (block (statement room)) (braces words ++ rest) rest
      fun made => Stmt.unplacedAll made = Stmt.unplacedAll body := by
  rw [braces_append]
  unfold block
  apply atBrace_mends.bind
  rintro opened rfl
  apply (skip_mends (by decide)).bind
  intro _ _
  exact blockBody_mends mends

theorem functionBody_mends (mends : MendsBody context dropped room body words) :
    Mends context dropped (functionBody (statement room)) (braces words ++ rest) rest
      fun made => Stmt.unplacedAll made = Stmt.unplacedAll body := by
  rw [braces_append]
  unfold functionBody
  apply atBrace_mends.bind
  rintro opened rfl
  apply (skip_mends (by decide)).bind
  intro _ _
  apply mends.closed.bind
  intro made same
  apply (Mends.aside fun _ => Reads.popScope.calm).bind
  intro _ _
  apply (Mends.expect (by decide)).bind
  intro _ _
  exact .value same

/-! ## Statements, after their first word -/

def Remakes (context : Context) (dropped : Nat → Bool) (action : ParseM Stmt) (before after : List Word)
    (formed : Stmt) : Prop :=
  Mends context dropped action before after fun made => made.unplaced = formed.unplaced

theorem block_remakes (same : terminal.head.unplaced = head.unplaced)
    (mends : MendsBody context dropped room body words) :
    Remakes context dropped (statementForm (expression room) (statement room) terminal .block)
      (words ++ mark "\x7d" :: rest) rest (.block head body) := by
  apply (blockBody_mends mends).bind
  intro made inside
  apply Mends.value
  simp only [Stmt.unplaced, same, inside]

theorem guarded_remakes {subject : Expr} {others : List Word}
    (same : terminal.head.unplaced = head.unplaced) (spelled : Spelled room (.value subject) words)
    (accepted : subject.isAccepted = true) (mends : MendsBody context dropped room body others) :
    Remakes context dropped (statementForm (expression room) (statement room) terminal .guarded)
      (brackets "(" ")" words ++ (braces others ++ rest)) rest (.guarded head subject body) := by
  apply (parenthesized_mends spelled accepted).bind
  intro made outside
  apply (block_mends mends).bind
  intro made' inside
  apply Mends.value
  simp only [Stmt.unplaced, same, outside, inside]

theorem doWhile_remakes {condition : Expr} {others : List Word}
    (same : terminal.head.unplaced = head.unplaced) (mends : MendsBody context dropped room body words)
    (spelled : Spelled room (.value condition) others) (accepted : condition.isAccepted = true) :
    Remakes context dropped (statementForm (expression room) (statement room) terminal .doWhile)
      (braces words ++ name "while" :: (brackets "(" ")" others ++ mark ";" :: rest)) rest
      (.doWhile head body condition) := by
  have bound : (name "while").isFree = false := by decide
  have id : (name "while").id = "while" := by
    rw [id_name, bound]
    rfl
  apply (block_mends mends).bind
  intro made inside
  apply Mends.facing (by decide)
  intro keyword fits
  apply (Mends.aside fun _ => (Reads.reserve fits (.inl bound)).calm).bind
  intro _ _
  apply (Mends.single (isTidy_name _) fun _ => (Reads.expect id).calm).bind
  intro _ _
  apply (parenthesized_mends spelled accepted).bind
  intro made' outside
  apply Mends.expectSemicolon.bind
  intro _ _
  apply Mends.value
  simp only [Stmt.unplaced, same, inside, outside]

theorem caseLabel_remakes {value : Expr} (same : terminal.head.unplaced = head.unplaced)
    (spelled : Spelled room (.value value) words) (accepted : value.isAccepted = true) :
    Remakes context dropped (statementForm (expression room) (statement room) terminal .caseLabel)
      (brackets "(" ")" words ++ mark ";" :: rest) rest (.caseLabel head value) := by
  apply (parenthesized_mends spelled accepted).bind
  intro made inside
  apply Mends.expectSemicolon.bind
  intro _ _
  apply Mends.value
  simp only [Stmt.unplaced, same, inside]

theorem bare_remakes (same : terminal.head.unplaced = head.unplaced) :
    Remakes context dropped (statementForm (expression room) (statement room) terminal .bare)
      (mark ";" :: rest) rest (.bare head) := by
  apply Mends.expectSemicolon.bind
  intro _ _
  apply Mends.value
  simp only [Stmt.unplaced, same]

theorem returning_remakes {value? : Option Expr} (same : terminal.head.unplaced = head.unplaced)
    (optional : Optional room value? words) (accepted : value?.all Expr.isAccepted = true)
    (valued : words = [] → dropped rest.length = false) :
    Remakes context dropped (statementForm (expression room) (statement room) terminal .returning)
      (words ++ mark ";" :: rest) rest (.returning head value?) := by
  apply (optional_mends optional accepted fun none _ => valued none).bind
  intro made inside
  apply Mends.expectSemicolon.bind
  intro _ _
  apply Mends.current
  intro next _ _
  apply (Mends.aside fun _ => Reads.warningUnless _ _ _).bind
  intro _ _
  apply Mends.value
  simp only [Stmt.unplaced, same, inside]

theorem forLoop_remakes {first? condition? step? : Option Expr}
    {firstWords conditionWords stepWords : List Word} (same : terminal.head.unplaced = head.unplaced)
    (first : Optional room first? firstWords) (firstAccepted : first?.all Expr.isAccepted = true)
    (condition : Optional room condition? conditionWords)
    (conditionAccepted : condition?.all Expr.isAccepted = true)
    (step : Optional room step? stepWords) (stepAccepted : step?.all Expr.isAccepted = true)
    (mends : MendsBody context dropped room body words) :
    Remakes context dropped (statementForm (expression room) (statement room) terminal .forLoop)
      (mark "(" :: (firstWords ++ mark ";" :: (conditionWords ++ mark ";" ::
        (stepWords ++ mark ")" :: (braces words ++ rest))))) rest
      (.forLoop head first? condition? step? body) := by
  have second := @optional_goesOn room conditionWords
    (stepWords ++ mark ")" :: (braces words ++ rest)) condition? (mark ";") condition conditionAccepted
    (by decide)
  have third := @optional_goesOn room stepWords (braces words ++ rest) step? (mark ")") step stepAccepted
    (by decide)
  apply (Mends.expect (by decide)).bind
  intro _ _
  apply (optional_mends first firstAccepted fun _ omits => stays_of_goesOn omits second).bind
  intro _ one
  apply (Mends.expectBetween second).bind
  intro _ _
  apply (optional_mends condition conditionAccepted fun _ omits => stays_of_goesOn omits third).bind
  intro _ two
  apply (Mends.expectBetween third).bind
  intro _ _
  apply (Mends.upTo step.tidy (by decide) fun _ =>
    (optional_reads step stepAccepted (by decide) _).calm).bind
  intro _ three
  apply (Mends.expect (by decide)).bind
  intro _ _
  apply (block_mends mends).bind
  intro _ inside
  apply Mends.value
  simp only [Stmt.unplaced, same, one, two, three, inside]

def MendsElse (context : Context) (dropped : Nat → Bool) (room : Nat)
    (statements? : Option (List Stmt)) (words : List Word) : Prop :=
  ∀ ⦃rest : List Word⦄, Follows rest → Mends context dropped (elseBody (statement room)) (words ++ rest)
    rest fun made => Stmt.unplacedElse made = Stmt.unplacedElse statements?

theorem ifElse_remakes {condition : Expr} {elseBody? : Option (List Stmt)}
    {thenWords elseWords : List Word} (same : terminal.head.unplaced = head.unplaced)
    (spelled : Spelled room (.value condition) words) (accepted : condition.isAccepted = true)
    (thenMends : MendsBody context dropped room body thenWords)
    (elseMends : MendsElse context dropped room elseBody? elseWords) (follows : Follows rest) :
    Remakes context dropped (statementForm (expression room) (statement room) terminal .ifElse)
      (brackets "(" ")" words ++ (braces thenWords ++ (elseWords ++ rest))) rest
      (.ifElse head condition body elseBody?) := by
  apply (parenthesized_mends spelled accepted).bind
  intro _ outside
  apply (block_mends thenMends).bind
  intro _ inside
  apply (elseMends follows).bind
  intro _ other
  apply Mends.value
  simp only [Stmt.unplaced, same, outside, inside, other]

theorem operand_mends {leaf : Atom} (taken : leaf.Taken words) (operand : leaf.isOperand = true) :
    Mends context dropped takeAtom (words ++ rest) rest fun made => made.unplaced = leaf.unplaced := by
  apply Mends.of_reads (taken.tidy operand)
  intro _
  exact (operand_reads taken operand _).calm

theorem verb_remakes {word : Head} {action flags : Atom} {others : List Word}
    (same : terminal.head.unplaced = head.unplaced) (isWord : Atom.isWord ⟨.literal, word⟩ = true)
    (second : action.Taken words) (actionOperand : action.isOperand = true)
    (third : flags.Taken others) (flagsOperand : flags.isOperand = true) :
    Remakes context dropped (statementForm (expression room) (statement room) terminal .verb)
      (mark "(" :: (⟨.string, word.text⟩ :: mark "," :: (words ++ mark "," :: (others ++ mark ")" ::
        mark ";" :: rest)))) rest (.verb head ⟨.literal, word⟩ action flags) := by
  simp only [Atom.isWord, Bool.and_eq_true, beq_iff_eq, Bool.not_eq_true'] at isWord
  obtain ⟨⟨id, plain⟩, closed⟩ := isWord
  have first : Atom.Taken ⟨.literal, word⟩ [⟨.string, word.text⟩] :=
    .literal id plain (.inr rfl) closed
  have wordOperand : Atom.isOperand ⟨.literal, word⟩ = true := by
    simp [Atom.isOperand, id, plain, closed]
  have literal : (⟨.string, word.text⟩ : Word) ≠ mark ";" := by simp [mark]
  apply (Mends.expect (by decide)).bind
  intro _ _
  apply (@Mends.upTo context dropped _ checkWord _ [] _ _ tidy_nil literal fun _ =>
    (checkWord_reads _).calm).bind
  intro _ _
  apply (@operand_mends context dropped [⟨.string, word.text⟩] _ _ first wordOperand).bind
  intro _ one
  apply (Mends.expect (by decide)).bind
  intro _ _
  apply (Mends.aside fun _ => checkAction_reads _).bind
  intro _ _
  apply (operand_mends second actionOperand).bind
  intro _ two
  apply (Mends.expect (by decide)).bind
  intro _ _
  apply (Mends.aside fun _ => checkFlags_reads _).bind
  intro _ _
  apply (operand_mends third flagsOperand).bind
  intro _ three
  apply (Mends.expect (by decide)).bind
  intro _ _
  apply Mends.expectSemicolon.bind
  intro _ _
  apply Mends.value
  simp only [Stmt.unplaced, same, one, two, three]

theorem class_remakes {isAbstract : Bool} {superclass? : Option Atom} {others : List Word}
    (fresh : head.isFresh = true) (written : Superclass superclass? words)
    (mends : MendsBody context dropped room body others) :
    Remakes context dropped (statementForm (expression room) (statement room) terminal .classDefinition)
      ((if isAbstract then [name "abstract"] else []) ++
        name head.text :: (words ++ (braces others ++ rest))) rest
      (.classDefinition head isAbstract superclass? body) := by
  have modifier : Tidy (if isAbstract then [name "abstract"] else []) := by
    cases isAbstract with
    | true => exact tidy_singleton (isTidy_name _)
    | false => exact tidy_nil
  have named : name head.text ≠ mark ";" := by simp [name, mark]
  rw [braces_append]
  apply (Mends.upTo modifier named fun _ => (abstractModifier_reads fresh _).calm).bind
  intro _ modified
  apply (Mends.single (isTidy_name _) fun _ => className_reads terminal fresh _).bind
  intro _ same
  apply (Mends.upTo written.tidy (by decide) fun _ => (superclass_reads written _).calm).bind
  intro _ base
  rw [← braces_append]
  apply (block_mends mends).bind
  intro _ inside
  apply Mends.value
  simp only [Stmt.unplaced, modified, same, base, inside]

theorem function_mends {named : Terminal} {returnType : ValueType} {parameters : List Parameter}
    {others : List Word} (fresh : head.isFresh = true) (fits : named.Fits (name head.text))
    (written : Parameters parameters words) (formed : parameters.all Parameter.wellFormed = true)
    (mends : MendsBody context dropped room body others) :
    Remakes context dropped (function (statement room) named returnType)
      (mark "(" :: (words ++ mark ")" :: (braces others ++ rest))) rest
      (.function head returnType parameters body) := by
  have isName : named.isName = true := fits.isName
  unfold function functionName
  rw [if_pos isName]
  apply (Mends.aside fun _ => define_reads fresh fits _ _ _).bind
  intro _ _
  apply (Mends.expect (by decide)).bind
  intro _ _
  apply (Mends.aside fun _ => Reads.pushScope.calm).bind
  intro _ _
  apply (Mends.upTo written.tidy (by decide) fun _ => parameters_read written formed _).bind
  intro _ listed
  apply (Mends.expect (by decide)).bind
  intro _ _
  apply (functionBody_mends mends).bind
  intro _ inside
  apply Mends.value
  simp only [Stmt.unplaced, fits.head_name (head.names_of_isFresh fresh), listed, inside]

theorem function_remakes {returnType : ValueType} {parameters : List Parameter} {others : List Word}
    (fresh : head.isFresh = true) (written : Parameters parameters words)
    (formed : parameters.all Parameter.wellFormed = true)
    (mends : MendsBody context dropped room body others) :
    Remakes context dropped
      (statementForm (expression room) (statement room) terminal (.declaration returnType))
      (name head.text :: mark "(" :: (words ++ mark ")" :: (braces others ++ rest))) rest
      (.function head returnType parameters body) := by
  have opens := id_name_closers (Head.solid_of_isFresh fresh).1
  apply (Mends.single (isTidy_name _) fun _ => (advanceUnlessCloser_reads opens _).calm).bind
  intro named fits
  apply Mends.facing (by decide)
  intro next faces
  have id : next.id = "(" := faces.id
  simp only [id, beq_self_eq_true, Bool.or_true, if_true]
  exact function_mends fresh fits written formed mends

theorem variables_remakes {valueType : ValueType} {declarators : List Declarator}
    (same : terminal.head.unplaced = head.unplaced) (storable : valueType.isStorable = true)
    (separated : Separated (Declarator.Spelled room) declarators words)
    (formed : declarators.all Declarator.wellFormed = true) :
    Remakes context dropped
      (statementForm (expression room) (statement room) terminal (.declaration valueType))
      (words ++ mark ";" :: rest) rest (.declaration head valueType declarators) := by
  have tidy := separated.tidy fun next words spelled => Declarator.Spelled.tidy spelled
  obtain ⟨first, others, rfl, fresh, apart, reads⟩ :=
    @declarators_read context room words declarators valueType separated (List.all_eq_true.mp formed)
  have tidyOthers := tidy_of_cons tidy
  have opens := id_name_closers (Head.solid_of_isFresh fresh).1
  rw [List.cons_append]
  apply (Mends.single (isTidy_name _) fun _ => (advanceUnlessCloser_reads opens _).calm).bind
  intro named fits
  apply Mends.current
  intro next omits faces
  rw [kept_append (omits.untouched tidyOthers.1)] at faces
  have ends := ending (omits.suffix tidyOthers.2)
  have id : next.id ≠ "(" := by
    cases others with
    | nil => exact id_ne_of_ending ends faces (by decide)
    | cons word others =>
        rw [Terminal.Fits.id faces]
        exact apart word rfl
  have storing : (!valueType.isStorable || next.id == "(") = false := by
    simp [storable, id]
  simp only [storing, Bool.false_eq_true, if_false]
  have shape : variableList (expression room) terminal named valueType = (do
      let made ← declarator (expression room) valueType named >>=
        afterCommas (nextDeclarator (expression room) valueType)
      expectSemicolon
      return .declaration terminal.head valueType made) := by
    simp only [variableList, bind_assoc]
  have listed : Mends context dropped (declarator (expression room) valueType named >>=
      afterCommas (nextDeclarator (expression room) valueType)) (others ++ mark ";" :: rest)
      (mark ";" :: rest) fun made =>
        made.map Declarator.unplaced = declarators.map Declarator.unplaced := by
    apply Mends.of_reads tidyOthers
    intro omits
    apply reads named fits (limit_of_ending (ending omits))
    intro made found holds
    refine .stop (fun terminal faces => ?_) (by simpa using holds)
    have other := id_ne_of_ending (ending omits) faces (by decide : "," ∈ [",", "("])
    simp [other]
  rw [shape]
  apply listed.bind
  intro made sameAll
  apply Mends.expectSemicolon.bind
  intro _ _
  apply Mends.value
  simp only [Stmt.unplaced, same, sameAll]

end

end ParseM

end Adventure
