import Adventure.Proofs.Expressions
import Adventure.Proofs.Programs

/-!
Reading of statements that are written correctly. Every statement is read up to what follows it,
whatever that is, except that an `else` would be taken as part of it.
-/

namespace Adventure

open Word

namespace Word

theorem statement?_of_isFree {word : Word} (free : word.isFree = true) :
    word.denotations.statement? = none := by
  rw [Terminal.Fits.denotations_of_free free]
  rfl

theorem isFree_of_statement? {word : Word} {form : StatementForm}
    (acts : word.denotations.statement? = some form) : word.isFree = false := by
  cases free : word.isFree with
  | false => rfl
  | true =>
      rw [statement?_of_isFree free] at acts
      cases acts

theorem statement?_name {text : String} {form : StatementForm}
    (acts : (Grammar.standard.denotations text).statement? = some form) :
    (name text).denotations.statement? = some form := by
  rw [denotations_name]
  split
  · rename_i free
    have unknown : Grammar.standard.get? text = none := by simpa [isFree, name] using free
    simp [Grammar.denotations, unknown] at acts
  · exact acts

theorem exists_denotations {word : Word} (bound : word.isFree = false) :
    ∃ id, word.denotations = Grammar.standard.denotations id := by
  obtain ⟨kind, text⟩ := word
  cases kind with
  | integer | string => exact ⟨"(literal)", rfl⟩
  | _ => exact ⟨text, by simp [denotations, bound]⟩

theorem statement?_of_opens {word : Word} (opens : word.opens = true) :
    word.denotations.statement? = none := by
  have apart := @Grammar.denotations_induction Grammar.standard
    (fun _ denotations => denotations.operand?.isSome = true → denotations.statement? = none)
    (fun _ => by simp) (by decide)
  by_cases free : word.isFree = true
  · exact statement?_of_isFree free
  · obtain ⟨id, same⟩ := exists_denotations (by simpa using free)
    rw [Word.opens, same] at opens
    rw [same]
    exact apart id opens

end Word

namespace Terminal.Fits

variable {terminal : Terminal}

theorem head_keyword {head : Head} {text : String} (fits : terminal.Fits (name text))
    (bound : (name text).isFree = false) (spells : head.Spells text) :
    terminal.head.unplaced = head.unplaced := by
  have id : terminal.id = text := by
    rw [fits.id, id_name, bound]
    rfl
  have same : terminal.text = text := fits.text
  simp only [Terminal.head, Head.unplaced, id, same, spells.id, spells.text, spells.plain]

theorem isCloser {word : Word} (fits : terminal.Fits word) (opens : word.id ∉ closers) :
    terminal.isCloser = false := by
  have id : closers.contains terminal.id = false := by
    rw [fits.id, List.contains_eq_mem]
    exact decide_eq_false opens
  rw [Terminal.isCloser, fits.isEnd, Bool.false_or]
  exact id

end Terminal.Fits

theorem Word.id_name_closers {text : String} (solid : isNameText text = true) :
    (name text).id ∉ closers := by
  have apart : ∀ closing ∈ closers, closing ≠ "(name)" ∧ isNameText closing = false := by
    decide
  intro member
  obtain ⟨named, short⟩ := apart _ member
  rw [id_name] at named short
  split at named
  · exact named rfl
  · rename_i bound
    rw [if_neg bound, solid] at short
    cases short

theorem Head.solid_of_isFresh {head : Head} (fresh : head.isFresh = true) :
    isNameText head.text = true ∧ head.text ≠ "abstract" := by
  simp only [isFresh, Bool.and_eq_true, bne_iff_ne] at fresh
  exact ⟨fresh.1.1.2, fresh.2⟩

namespace ParseM

variable {context : Context} {room : Nat}

/-! Pieces of statements. -/

theorem accepted_reads {value : Expr} {words rest : List Word}
    (spelled : Spelled room (.value value) words) (accepted : value.isAccepted = true)
    (closed : limit rest = 0) :
    Reads context (expression room Power.none) (words ++ rest) rest
      (Quiet fun made => made.unplaced = value.unplaced) := by
  have formed := Expr.formed_of_isAccepted accepted
  simp only [Expr.isAccepted, Bool.and_eq_true, List.isEmpty_iff] at accepted
  refine ((spelled_leading spelled formed).inside formed closed).imp fun made found makes => ?_
  refine ⟨makes.1, ?_⟩
  have told := makes.2
  rw [Told, accepted.2, List.map_nil, List.map_eq_nil_iff] at told
  exact told

theorem accepted_opens {value : Expr} {words : List Word}
    (spelled : Spelled room (.value value) words) (accepted : value.isAccepted = true) :
    ∃ word others, words = word :: others ∧ word.opens = true := by
  have formed : Phrase.wellFormed (.value value) = true := Expr.formed_of_isAccepted accepted
  exact spelled.opens formed rfl

theorem parenthesized_reads {value : Expr} {words : List Word}
    (spelled : Spelled room (.value value) words) (accepted : value.isAccepted = true)
    (rest : List Word) :
    Reads context (parenthesized (expression room)) (brackets "(" ")" words ++ rest) rest
      (Quiet fun made => made.unplaced = value.unplaced) := by
  have shape : brackets "(" ")" words ++ rest = mark "(" :: (words ++ mark ")" :: rest) := by
    simp [brackets]
  have closed : limit (mark ")" :: rest) = 0 := closing_limit ")" (by decide)
  rw [shape]
  unfold parenthesized
  refine (Reads.expect (id_mark "(")).quiet fun _ _ => ?_
  refine (accepted_reads spelled accepted closed).quiet fun made same => ?_
  exact (Reads.expect (id_mark ")")).quiet fun _ _ => .value ⟨same, rfl⟩

theorem optional_reads {value? : Option Expr} {words : List Word} {closing : String}
    (optional : Optional room value? words) (accepted : value?.all Expr.isAccepted = true)
    (closes : closing ∈ closers) (rest : List Word) :
    Reads context (ParseM.optional (expression room) closing) (words ++ mark closing :: rest)
      (mark closing :: rest)
      (Quiet fun made? => made?.map Expr.unplaced = value?.map Expr.unplaced) := by
  unfold ParseM.optional
  refine Reads.current fun terminal faces => ?_
  cases optional with
  | none =>
      have id : terminal.id = closing := Terminal.Fits.id faces
      simp only [id, if_true]
      exact .value ⟨rfl, rfl⟩
  | @some value words spelled =>
      obtain ⟨word, others, rfl, opens⟩ := accepted_opens spelled accepted
      have id : terminal.id ≠ closing := by
        rw [Terminal.Fits.id faces]
        exact id_ne_of_opens opens closes
      simp only [id, if_false]
      have closed : limit (mark closing :: rest) = 0 := closing_limit closing closes
      refine (accepted_reads spelled accepted closed).quiet fun made same => ?_
      exact .value ⟨congrArg some same, rfl⟩

/-- To read the statements of a block and those after them is to read these once the first were
made. -/
def ReadsBody (context : Context) (room : Nat) (body : List Stmt) (words : List Word) : Prop :=
  ∀ ⦃rest after : List Word⦄ ⦃property : List Stmt → Prop⦄,
    (∀ word ∈ rest.head?, word.id ≠ "else") →
    (∀ made, Stmt.unplacedAll made = Stmt.unplacedAll body →
      Reads context (whileToken (·.id != "\x7d") (anotherStatement (statement room)) made) rest
        after (Mild property)) →
    Reads context (statementsUntilBrace (statement room)) (words ++ rest) after (Mild property)

variable {body : List Stmt} {words : List Word}

theorem ReadsBody.closed (reads : ReadsBody context room body words) (rest : List Word) :
    Reads context (statementsUntilBrace (statement room)) (words ++ mark "\x7d" :: rest)
      (mark "\x7d" :: rest) (Mild fun made => Stmt.unplacedAll made = Stmt.unplacedAll body) := by
  refine reads (by simp) fun made same =>
    .stop (fun terminal faces => ?_) ⟨same, rfl⟩
  have id : terminal.id = "\x7d" := Terminal.Fits.id faces
  simp [id]

theorem blockBody_reads (reads : ReadsBody context room body words) (rest : List Word) :
    Reads context (blockBody (statement room)) (words ++ mark "\x7d" :: rest) rest
      (Mild fun made => Stmt.unplacedAll made = Stmt.unplacedAll body) := by
  unfold blockBody
  refine Reads.pushScope.quiet fun _ _ => ?_
  refine (reads.closed rest).mild fun made same => ?_
  refine Reads.popScope.quiet fun _ _ => ?_
  exact (Reads.expect (id_mark "\x7d")).quiet fun _ _ => .pure_mild same

theorem atBrace_reads (rest : List Word) :
    Reads context atBrace (mark "\x7b" :: rest) (mark "\x7b" :: rest) (Quiet (· = true)) := by
  unfold atBrace
  refine Reads.current fun terminal faces => ?_
  have id : terminal.id = "\x7b" := Terminal.Fits.id faces
  simp only [id, beq_self_eq_true, errorUnless, if_true, pure_bind]
  exact .value ⟨rfl, rfl⟩

theorem braces_append (words rest : List Word) :
    braces words ++ rest = mark "\x7b" :: (words ++ mark "\x7d" :: rest) := by
  simp [braces, brackets]

theorem block_reads (reads : ReadsBody context room body words) (rest : List Word) :
    Reads context (block (statement room)) (braces words ++ rest) rest
      (Mild fun made => Stmt.unplacedAll made = Stmt.unplacedAll body) := by
  rw [braces_append]
  unfold block
  refine (atBrace_reads _).quiet fun opened same => ?_
  subst same
  exact Reads.skip.quiet fun _ _ => blockBody_reads reads rest

theorem functionBody_reads (reads : ReadsBody context room body words) (rest : List Word) :
    Reads context (functionBody (statement room)) (braces words ++ rest) rest
      (Mild fun made => Stmt.unplacedAll made = Stmt.unplacedAll body) := by
  rw [braces_append]
  unfold functionBody
  refine (atBrace_reads _).quiet fun opened same => ?_
  subst same
  refine Reads.skip.quiet fun _ _ => ?_
  refine (reads.closed rest).mild fun made same => ?_
  refine Reads.popScope.quiet fun _ _ => ?_
  exact (Reads.expect (id_mark "\x7d")).quiet fun _ _ => .pure_mild same

/-! Statements, after their first word. -/

def Forms (context : Context) (action : ParseM Stmt) (before after : List Word) (formed : Stmt) :
    Prop :=
  Reads context action before after (Mild fun made => made.unplaced = formed.unplaced)

variable {terminal : Terminal} {head : Head}

theorem block_forms (same : terminal.head.unplaced = head.unplaced)
    (reads : ReadsBody context room body words) (rest : List Word) :
    Forms context (statementForm (expression room) (statement room) terminal .block)
      (words ++ mark "\x7d" :: rest) rest (.block head body) := by
  refine (blockBody_reads reads rest).mild fun made inside => .pure_mild ?_
  simp only [Stmt.unplaced, same, inside]

theorem guarded_forms {subject : Expr} {others : List Word}
    (same : terminal.head.unplaced = head.unplaced)
    (spelled : Spelled room (.value subject) words) (accepted : subject.isAccepted = true)
    (reads : ReadsBody context room body others) (rest : List Word) :
    Forms context (statementForm (expression room) (statement room) terminal .guarded)
      (brackets "(" ")" words ++ braces others ++ rest) rest (.guarded head subject body) := by
  rw [List.append_assoc]
  refine (parenthesized_reads spelled accepted _).quiet fun made outside => ?_
  refine (block_reads reads rest).mild fun made' inside => .pure_mild ?_
  simp only [Stmt.unplaced, same, outside, inside]

theorem doWhile_forms {condition : Expr} {others : List Word}
    (same : terminal.head.unplaced = head.unplaced) (reads : ReadsBody context room body words)
    (spelled : Spelled room (.value condition) others) (accepted : condition.isAccepted = true)
    (rest : List Word) :
    Forms context (statementForm (expression room) (statement room) terminal .doWhile)
      (braces words ++ name "while" :: (brackets "(" ")" others ++ [mark ";"]) ++ rest) rest
      (.doWhile head body condition) := by
  have bound : (name "while").isFree = false := by decide
  have id : (name "while").id = "while" := by
    rw [id_name, bound]
    rfl
  have shape : braces words ++ name "while" :: (brackets "(" ")" others ++ [mark ";"]) ++ rest =
      braces words ++ name "while" :: (brackets "(" ")" others ++ mark ";" :: rest) := by simp
  rw [shape]
  refine (block_reads reads _).mild fun made inside => ?_
  refine Reads.current fun keyword faces => ?_
  refine (Reads.reserve faces (.inl bound)).quiet fun _ _ => ?_
  refine (Reads.expect id).quiet fun _ _ => ?_
  refine (parenthesized_reads spelled accepted _).quiet fun made' outside => ?_
  refine Reads.expectSemicolon.quiet fun _ _ => .pure_mild ?_
  simp only [Stmt.unplaced, same, inside, outside]

theorem caseLabel_forms {value : Expr} (same : terminal.head.unplaced = head.unplaced)
    (spelled : Spelled room (.value value) words) (accepted : value.isAccepted = true)
    (rest : List Word) :
    Forms context (statementForm (expression room) (statement room) terminal .caseLabel)
      (brackets "(" ")" words ++ [mark ";"] ++ rest) rest (.caseLabel head value) := by
  rw [List.append_assoc]
  refine (parenthesized_reads spelled accepted _).quiet fun made inside => ?_
  refine Reads.expectSemicolon.quiet fun _ _ => .pure_mild ?_
  simp only [Stmt.unplaced, same, inside]

theorem bare_forms (same : terminal.head.unplaced = head.unplaced) (rest : List Word) :
    Forms context (statementForm (expression room) (statement room) terminal .bare)
      (mark ";" :: rest) rest (.bare head) := by
  refine Reads.expectSemicolon.quiet fun _ _ => .pure_mild ?_
  simp only [Stmt.unplaced, same]

theorem returning_forms {value? : Option Expr} (same : terminal.head.unplaced = head.unplaced)
    (optional : Optional room value? words) (accepted : value?.all Expr.isAccepted = true)
    (rest : List Word) :
    Forms context (statementForm (expression room) (statement room) terminal .returning)
      (words ++ [mark ";"] ++ rest) rest (.returning head value?) := by
  rw [List.append_assoc]
  refine (optional_reads optional accepted (by decide) rest).quiet fun made inside => ?_
  refine Reads.expectSemicolon.quiet fun _ _ => ?_
  refine Reads.current fun _ _ => ?_
  refine (Reads.warningUnless _ _ _).mild fun _ _ => .pure_mild ?_
  simp only [Stmt.unplaced, same, inside]

theorem forLoop_forms {first? condition? step? : Option Expr}
    {firstWords conditionWords stepWords : List Word}
    (same : terminal.head.unplaced = head.unplaced) (first : Optional room first? firstWords)
    (firstAccepted : first?.all Expr.isAccepted = true)
    (condition : Optional room condition? conditionWords)
    (conditionAccepted : condition?.all Expr.isAccepted = true)
    (step : Optional room step? stepWords) (stepAccepted : step?.all Expr.isAccepted = true)
    (reads : ReadsBody context room body words) (rest : List Word) :
    Forms context (statementForm (expression room) (statement room) terminal .forLoop)
      (brackets "(" ")" (firstWords ++ mark ";" :: (conditionWords ++ mark ";" :: stepWords)) ++
        braces words ++ rest) rest (.forLoop head first? condition? step? body) := by
  have shape : brackets "(" ")" (firstWords ++ mark ";" ::
        (conditionWords ++ mark ";" :: stepWords)) ++ braces words ++ rest =
      mark "(" :: (firstWords ++ mark ";" :: (conditionWords ++ mark ";" ::
        (stepWords ++ mark ")" :: (braces words ++ rest)))) := by
    simp [brackets]
  rw [shape]
  refine (Reads.expect (id_mark "(")).quiet fun _ _ => ?_
  refine (optional_reads first firstAccepted (by decide) _).quiet fun _ one => ?_
  refine (Reads.expect (id_mark ";")).quiet fun _ _ => ?_
  refine (optional_reads condition conditionAccepted (by decide) _).quiet fun _ two => ?_
  refine (Reads.expect (id_mark ";")).quiet fun _ _ => ?_
  refine (optional_reads step stepAccepted (by decide) _).quiet fun _ three => ?_
  refine (Reads.expect (id_mark ")")).quiet fun _ _ => ?_
  refine (block_reads reads rest).mild fun _ inside => .pure_mild ?_
  simp only [Stmt.unplaced, same, one, two, three, inside]

/-! The branches of a choice. -/

def ReadsElse (context : Context) (room : Nat) (statements? : Option (List Stmt))
    (words : List Word) : Prop :=
  ∀ ⦃rest : List Word⦄, (∀ word ∈ rest.head?, word.id ≠ "else") →
    Reads context (elseBody (statement room)) (words ++ rest) rest
      (Mild fun made => Stmt.unplacedElse made = Stmt.unplacedElse statements?)

theorem ifElse_forms {condition : Expr} {elseBody? : Option (List Stmt)}
    {thenWords elseWords : List Word} (same : terminal.head.unplaced = head.unplaced)
    (spelled : Spelled room (.value condition) words) (accepted : condition.isAccepted = true)
    (thenReads : ReadsBody context room body thenWords)
    (elseReads : ReadsElse context room elseBody? elseWords) {rest : List Word}
    (apart : (∀ word ∈ rest.head?, word.id ≠ "else")) :
    Forms context (statementForm (expression room) (statement room) terminal .ifElse)
      (brackets "(" ")" words ++ (braces thenWords ++ elseWords) ++ rest) rest
      (.ifElse head condition body elseBody?) := by
  rw [List.append_assoc, List.append_assoc]
  refine (parenthesized_reads spelled accepted _).quiet fun _ outside => ?_
  refine (block_reads thenReads _).mild fun _ inside => ?_
  refine (elseReads apart).mild fun _ other => .pure_mild ?_
  simp only [Stmt.unplaced, same, outside, inside, other]

/-! Verbs. -/

theorem operand_reads {leaf : Atom} (taken : leaf.Taken words) (operand : leaf.isOperand = true)
    (rest : List Word) :
    Reads context takeAtom (words ++ rest) rest
      (Quiet fun made => made.unplaced = leaf.unplaced) := by
  unfold takeAtom
  refine Reads.current fun terminal faces => ?_
  cases taken with
  | @name head names =>
      simp only [Atom.isOperand, Bool.and_eq_true] at operand
      have opens : terminal.isCloser = false :=
        Terminal.Fits.isCloser faces (id_name_closers operand.2)
      simp only [opens, Bool.false_eq_true, if_false]
      refine Reads.advance.quiet fun consumed fits => .value ⟨?_, rfl⟩
      have origin : consumed.origin = some .name := fits.origin
      have same := fits.head_name names
      simp only [atomOf, Terminal.arity?, origin, Terminal.atom, Atom.unplaced, same]
  | @literal head kind id plain literal =>
      have wordId : Word.id ⟨kind, head.text⟩ = "(literal)" := by
        rcases literal with rfl | rfl <;> rfl
      have opens : terminal.isCloser = false := by
        refine Terminal.Fits.isCloser faces ?_
        rw [wordId]
        decide
      simp only [opens, Bool.false_eq_true, if_false]
      refine Reads.advance.quiet fun consumed fits => .value ⟨?_, rfl⟩
      have same : consumed.head.unplaced = head.unplaced := by
        have text : consumed.text = head.text := fits.text
        simp only [Terminal.head, Head.unplaced, fits.id, wordId, text, id, plain]
      have origin : consumed.origin = some kind := fits.origin
      rcases literal with rfl | rfl
      · simp only [atomOf, Terminal.arity?, origin, Terminal.atom, Atom.unplaced, same]
      · simp only [atomOf, Terminal.arity?, origin, Terminal.atom, Atom.unplaced, same]
  | mark | closer => simp [Atom.isOperand] at operand

theorem checkWord_reads {text : String} (rest : List Word) :
    Reads context checkWord (⟨.string, text⟩ :: rest) (⟨.string, text⟩ :: rest)
      (Quiet fun _ => True) := by
  unfold checkWord
  refine Reads.current fun terminal faces => ?_
  have origin : terminal.origin = some .string := Terminal.Fits.origin faces
  simp only [origin, beq_self_eq_true, errorUnless, if_true]
  exact .value ⟨trivial, rfl⟩

theorem checkAction_reads (before : List Word) :
    Reads context checkAction before before (Mild fun _ => True) := by
  unfold checkAction
  refine Reads.current fun terminal _ => ?_
  by_cases name : terminal.isName = true
  · rw [if_pos name]
    exact (Reads.noteIfUndefined terminal).calm
  · rw [if_neg name]
    exact Reads.warning _ _

theorem checkFlags_reads (before : List Word) :
    Reads context checkFlags before before (Mild fun _ => True) := by
  unfold checkFlags
  exact Reads.current fun terminal _ => Reads.warningUnless _ _ _

theorem verb_forms {word : Head} {action flags : Atom} {others : List Word}
    (same : terminal.head.unplaced = head.unplaced)
    (isWord : Atom.isWord ⟨.literal, word⟩ = true) (second : action.Taken words)
    (actionOperand : action.isOperand = true) (third : flags.Taken others)
    (flagsOperand : flags.isOperand = true) (rest : List Word) :
    Forms context (statementForm (expression room) (statement room) terminal .verb)
      (brackets "(" ")" (⟨.string, word.text⟩ :: mark "," :: (words ++ mark "," :: others)) ++
        [mark ";"] ++ rest) rest (.verb head ⟨.literal, word⟩ action flags) := by
  have shape : brackets "(" ")" (⟨.string, word.text⟩ :: mark "," ::
        (words ++ mark "," :: others)) ++ [mark ";"] ++ rest =
      mark "(" :: ([⟨.string, word.text⟩] ++ mark "," :: (words ++ mark "," ::
        (others ++ mark ")" :: mark ";" :: rest))) := by
    simp [brackets]
  simp only [Atom.isWord, Bool.and_eq_true, beq_iff_eq, Bool.not_eq_true'] at isWord
  obtain ⟨⟨id, plain⟩, closed⟩ := isWord
  have first : Atom.Taken ⟨.literal, word⟩ [⟨.string, word.text⟩] :=
    .literal id plain (.inr rfl) closed
  have wordOperand : Atom.isOperand ⟨.literal, word⟩ = true := by
    simp [Atom.isOperand, id, plain, closed]
  rw [shape]
  refine (Reads.expect (id_mark "(")).quiet fun _ _ => ?_
  refine (checkWord_reads _).quiet fun _ _ => ?_
  refine (operand_reads first wordOperand _).quiet fun _ one => ?_
  refine (Reads.expect (id_mark ",")).quiet fun _ _ => ?_
  refine (checkAction_reads _).mild fun _ _ => ?_
  refine (operand_reads second actionOperand _).quiet fun _ two => ?_
  refine (Reads.expect (id_mark ",")).quiet fun _ _ => ?_
  refine (checkFlags_reads _).mild fun _ _ => ?_
  refine (operand_reads third flagsOperand _).quiet fun _ three => ?_
  refine (Reads.expect (id_mark ")")).quiet fun _ _ => ?_
  refine Reads.expectSemicolon.quiet fun _ _ => .pure_mild ?_
  simp only [Stmt.unplaced, same, one, two, three]

/-! Classes. -/

theorem define_reads {bound : Head} (fresh : bound.isFresh = true)
    (fits : terminal.Fits (name bound.text)) (arity : Arity) (valueType? : Option ValueType)
    (rest : List Word) :
    Reads context (define terminal arity valueType?) rest rest (Mild fun _ => True) := by
  have other := (Head.solid_of_isFresh fresh).2
  exact (Reads.define fits (Head.isFree_of_isFresh fresh) other arity valueType?).imp
    fun _ _ silent => ⟨trivial, silent⟩

theorem abstractModifier_reads {isAbstract : Bool} (fresh : head.isFresh = true)
    (rest : List Word) :
    Reads context abstractModifier
      ((if isAbstract then [name "abstract"] else []) ++ name head.text :: rest)
      (name head.text :: rest) (Quiet (· = isAbstract)) := by
  unfold abstractModifier
  refine Reads.current fun terminal faces => ?_
  cases isAbstract with
  | true =>
      have fits : terminal.Fits (name "abstract") := faces
      have isName : terminal.isName = true := fits.isName
      have text : terminal.text = "abstract" := fits.text
      simp only [isName, text, beq_self_eq_true, Bool.and_self, if_true]
      refine Reads.advance.quiet fun modifier fits => ?_
      exact (Reads.reserve fits (.inr rfl)).quiet fun _ _ => .value ⟨rfl, rfl⟩
  | false =>
      have fits : terminal.Fits (name head.text) := faces
      have text : terminal.text = head.text := fits.text
      have other := (Head.solid_of_isFresh fresh).2
      simp only [text, beq_false_of_ne other, Bool.and_false, Bool.false_eq_true, if_false]
      exact .value ⟨rfl, rfl⟩

theorem className_reads (keyword : Terminal) (fresh : head.isFresh = true) (rest : List Word) :
    Reads context (className keyword) (name head.text :: rest) rest
      (Mild fun made => made.head.unplaced = head.unplaced) := by
  unfold className
  refine Reads.current fun terminal faces => ?_
  have isName : terminal.isName = true := Terminal.Fits.isName faces
  simp only [isName, if_true]
  refine Reads.advance.quiet fun made fits => ?_
  refine (define_reads fresh fits _ _ _).mild fun _ _ => .pure_mild ?_
  exact fits.head_name (head.names_of_isFresh fresh)

theorem superclass_reads {superclass? : Option Atom} (written : Superclass superclass? words)
    (rest : List Word) :
    Reads context superclass (words ++ mark "\x7b" :: rest) (mark "\x7b" :: rest)
      (Quiet fun made => made.map Atom.unplaced = superclass?.map Atom.unplaced) := by
  unfold superclass
  refine Reads.current fun terminal faces => ?_
  cases written with
  | none =>
      have id : terminal.id = "\x7b" := Terminal.Fits.id faces
      have other : ¬"\x7b" = ":" := by decide
      simp only [id, other, if_false]
      exact .value ⟨rfl, rfl⟩
  | @some base names =>
      have id : terminal.id = ":" := Terminal.Fits.id faces
      simp only [id, if_true]
      refine Reads.skip.quiet fun _ _ => ?_
      unfold superclassName
      refine Reads.current fun terminal faces => ?_
      have isName : terminal.isName = true := Terminal.Fits.isName faces
      simp only [isName, if_true]
      refine Reads.advance.quiet fun made fits => ?_
      refine (Reads.noteOccurrence made).quiet fun _ _ => .value ⟨?_, rfl⟩
      simp only [Option.map_some, Terminal.atom, Atom.unplaced, fits.head_name names]

theorem class_forms {isAbstract : Bool} {superclass? : Option Atom} {others : List Word}
    (fresh : head.isFresh = true) (written : Superclass superclass? words)
    (reads : ReadsBody context room body others) (rest : List Word) :
    Forms context (statementForm (expression room) (statement room) terminal .classDefinition)
      ((if isAbstract then [name "abstract"] else []) ++
        name head.text :: (words ++ braces others) ++ rest) rest
      (.classDefinition head isAbstract superclass? body) := by
  have shape : (if isAbstract then [name "abstract"] else []) ++
        name head.text :: (words ++ braces others) ++ rest =
      (if isAbstract then [name "abstract"] else []) ++
        name head.text :: (words ++ mark "\x7b" :: (others ++ mark "\x7d" :: rest)) := by
    simp [braces, brackets]
  rw [shape]
  refine (abstractModifier_reads fresh _).quiet fun _ modified => ?_
  refine (className_reads terminal fresh _).mild fun _ same => ?_
  refine (superclass_reads written _).quiet fun _ base => ?_
  rw [← braces_append]
  refine (block_reads reads rest).mild fun _ inside => .pure_mild ?_
  simp only [Stmt.unplaced, modified, same, base, inside]

/-! Functions. -/

theorem separated_reads {α β : Type} {view : α → β} {item : ParseM α}
    {spelled : α → List Word → Prop} {items : List α} (separated : Separated spelled items words)
    (advances : Advances context (·.id == ",") (afterComma item))
    (each : ∀ next ∈ items, ∀ words, spelled next words → ∀ rest, limit rest = 0 →
      Reads context item (words ++ rest) rest (Mild fun made => view made = view next)) :
    ReadsItems context item item words (Mild fun made => made.map view = items.map view) := by
  induction separated with
  | one only =>
      refine .one fun rest closed => (each _ (by simp) _ only rest closed).imp ?_
      rintro made found ⟨same, silent⟩
      exact ⟨by simp [same], silent⟩
  | @more items next _ others _ last ih =>
      have before := ih fun next member => each next (by simp [member])
      refine before.more advances fun rest made found closed holds => ?_
      refine (each next (by simp) others last rest closed).imp ?_
      rintro made' found' ⟨same, silent⟩
      refine ⟨by simp [holds.1, same], ?_⟩
      rw [Diagnostics.hasErrors_append, holds.2, silent]
      rfl

theorem keyword_solid (valueType : ValueType) : isNameText valueType.keyword = true := by
  cases valueType <;> decide

theorem parameter_reads {next : Parameter} (spelled : next.Spelled words)
    (formed : next.wellFormed = true) (rest : List Word) :
    Reads context parameter (words ++ rest) rest
      (Mild fun made => made.unplaced = next.unplaced) := by
  cases spelled with
  | @mk valueType head storable names =>
      simp only [Parameter.wellFormed, Atom.isFresh, Bool.and_eq_true] at formed
      have fresh := formed.2.2
      unfold parameter
      refine Reads.current fun terminal faces => ?_
      have opens : terminal.isCloser = false :=
        Terminal.Fits.isCloser faces (id_name_closers (keyword_solid valueType))
      simp only [opens, Bool.false_eq_true, if_false]
      refine Reads.advance.quiet fun first fits => ?_
      have isName : first.isName = true := fits.isName
      have text : first.text = valueType.keyword := fits.text
      have typed : parameterType? first = some valueType := by
        simp [parameterType?, isName, text, ValueType.ofKeyword?_keyword, storable]
      simp only [typed]
      unfold parameterName
      refine Reads.current fun terminal faces => ?_
      have isName : terminal.isName = true := Terminal.Fits.isName faces
      simp only [isName, if_true]
      refine Reads.advance.quiet fun made fits => ?_
      refine (define_reads fresh fits _ _ _).mild fun _ _ => .pure_mild ?_
      simp only [Parameter.unplaced, Terminal.atom, Atom.unplaced, fits.head_name names]

theorem parameters_read {parameters : List Parameter} (written : Parameters parameters words)
    (formed : parameters.all Parameter.wellFormed = true) (rest : List Word) :
    Reads context (commaList ")" parameter) (words ++ mark ")" :: rest) (mark ")" :: rest)
      (Mild fun made => made.map Parameter.unplaced = parameters.map Parameter.unplaced) := by
  have each := List.all_eq_true.mp formed
  cases written with
  | none =>
      exact .commaList (fun _ => ⟨rfl, rfl⟩) (fun some => absurd rfl some) (by simp) (by decide)
        (by decide)
  | some separated =>
      have advances : Advances context (·.id == ",") (afterComma parameter) :=
        afterComma_advances (.of_composed .parameter) 0
      have reads := separated_reads separated advances fun next member words spelled rest _ =>
        @parameter_reads context words next spelled (each next member) rest
      obtain ⟨valueType, others, rfl⟩ : ∃ valueType others,
          words = name (ValueType.keyword valueType) :: others := by
        clear reads advances each formed
        induction separated with
        | one only =>
            cases only
            exact ⟨_, _, rfl⟩
        | more _ _ ih =>
            obtain ⟨valueType, others, rfl⟩ := ih
            exact ⟨valueType, _, rfl⟩
      refine .commaList (fun none => by simp at none) (fun _ => reads) ?_ (by decide) (by decide)
      rintro word member same
      have first : word = name valueType.keyword := by simpa using member.symm
      subst first
      exact id_name_closers (keyword_solid valueType) (same ▸ by decide)

theorem function_reads {name : Terminal} {returnType : ValueType} {parameters : List Parameter}
    {others : List Word} (fresh : head.isFresh = true) (fits : name.Fits (Word.name head.text))
    (written : Parameters parameters words)
    (formed : parameters.all Parameter.wellFormed = true)
    (reads : ReadsBody context room body others) (rest : List Word) :
    Forms context (function (statement room) name returnType)
      (mark "(" :: (words ++ mark ")" :: (braces others ++ rest))) rest
      (.function head returnType parameters body) := by
  have isName : name.isName = true := fits.isName
  unfold function functionName
  rw [if_pos isName]
  refine (define_reads fresh fits _ _ _).mild fun _ _ => ?_
  refine (Reads.expect (id_mark "(")).quiet fun _ _ => ?_
  refine Reads.pushScope.quiet fun _ _ => ?_
  refine (parameters_read written formed _).mild fun _ listed => ?_
  refine (Reads.expect (id_mark ")")).quiet fun _ _ => ?_
  refine (functionBody_reads reads rest).mild fun _ inside => .pure_mild ?_
  simp only [Stmt.unplaced, fits.head_name (head.names_of_isFresh fresh), listed, inside]

theorem advanceUnlessCloser_reads {word : Word} (opens : word.id ∉ closers) (rest : List Word) :
    Reads context advanceUnlessCloser (word :: rest) rest
      (Quiet fun terminal => terminal.Fits word) := by
  unfold advanceUnlessCloser
  refine Reads.current fun terminal faces => ?_
  have opens : terminal.isCloser = false := Terminal.Fits.isCloser faces opens
  simp only [opens, Bool.false_eq_true, if_false]
  exact Reads.advance

theorem function_forms {keyword : Terminal} {returnType : ValueType} {parameters : List Parameter}
    {others : List Word} (fresh : head.isFresh = true) (written : Parameters parameters words)
    (formed : parameters.all Parameter.wellFormed = true)
    (reads : ReadsBody context room body others) (rest : List Word) :
    Forms context
      (statementForm (expression room) (statement room) keyword (.declaration returnType))
      (name head.text :: (brackets "(" ")" words ++ braces others) ++ rest) rest
      (.function head returnType parameters body) := by
  have shape : name head.text :: (brackets "(" ")" words ++ braces others) ++ rest =
      name head.text :: mark "(" :: (words ++ mark ")" :: (braces others ++ rest)) := by
    simp [brackets]
  have opens := id_name_closers (Head.solid_of_isFresh fresh).1
  rw [shape]
  refine (advanceUnlessCloser_reads opens _).quiet fun name fits => ?_
  refine Reads.current fun terminal faces => ?_
  have id : terminal.id = "(" := Terminal.Fits.id faces
  simp only [id, beq_self_eq_true, Bool.or_true, if_true]
  exact function_reads fresh fits written formed reads rest

/-! Variables. -/

theorem id_ne_of_limit {others : List Word} {id : String} (faces : Faces context terminal others)
    (closed : limit others = 0) (member : id ∈ ["[", "="]) : terminal.id ≠ id := by
  have facts : ∀ id ∈ ["[", "="], (Grammar.standard.denotations id).power ≠ 0 ∧ id ≠ "(name)" ∧
      id ≠ "(literal)" ∧ id ≠ "(end)" := by decide
  obtain ⟨binds, named, literal, ended⟩ := facts id member
  intro same
  cases others with
  | nil =>
      have atEnd : terminal = endTerminal context := faces
      rw [atEnd] at same
      exact ended same.symm
  | cons word others =>
      have fits : terminal.Fits word := faces
      rw [fits.id] at same
      have power : limit (word :: others) = word.denotations.power := rfl
      rw [power, denotations_of_id same named literal] at closed
      exact binds closed

theorem arraySize_reads {isArray : Bool} {size? : Option Expr} {rest : List Word}
    (size : ArraySize room isArray size? words) (accepted : size?.all Expr.isAccepted = true)
    (apart : ∀ terminal, Faces context terminal rest → terminal.id ≠ "[") :
    Reads context (arraySize (expression room)) (words ++ rest) rest
      (Quiet fun made => made.1 = isArray ∧ made.2.map Expr.unplaced = size?.map Expr.unplaced) := by
  unfold arraySize
  refine Reads.current fun terminal faces => ?_
  cases size with
  | none =>
      have other : terminal.id ≠ "[" := apart terminal faces
      simp only [other, if_false]
      exact .value ⟨⟨rfl, rfl⟩, rfl⟩
  | @brackets size? inside size =>
      have shape : brackets "[" "]" inside ++ rest = mark "[" :: (inside ++ mark "]" :: rest) := by
        simp [brackets]
      rw [shape] at faces ⊢
      have id : terminal.id = "[" := Terminal.Fits.id faces
      simp only [id, if_true]
      refine Reads.skip.quiet fun _ _ => ?_
      refine (optional_reads size accepted (by decide) rest).quiet fun made same => ?_
      exact (Reads.expect (id_mark "]")).quiet fun _ _ => .value ⟨⟨rfl, same⟩, rfl⟩

theorem initialValue_expression {isArray : Bool} {value : Expr} {rest : List Word}
    (spelled : Spelled room (.value value) words) (accepted : value.isAccepted = true)
    (opened : isArray = true → words.head? ≠ some (mark "(")) (closed : limit rest = 0) :
    Reads context (initialValue (expression room) isArray) (words ++ rest) rest
      (Quiet fun made => made.unplaced = (Initializer.expression value).unplaced) := by
  obtain ⟨word, others, rfl, _⟩ := accepted_opens spelled accepted
  have solid : word.isSolid = true := by
    have formed : Phrase.wellFormed (.value value) = true := Expr.formed_of_isAccepted accepted
    exact spelled.solid formed word (by simp)
  unfold initialValue
  refine Reads.current fun terminal faces => ?_
  have single : (isArray && terminal.id == "(") = false := by
    cases array : isArray with
    | false => rfl
    | true =>
        have other : word ≠ mark "(" := by simpa using opened array
        have id : terminal.id ≠ "(" := by
          rw [Terminal.Fits.id faces]
          exact fun same => other (eq_mark_of_id solid (by decide) same)
        simp [id]
  simp only [single, Bool.false_eq_true, if_false]
  refine (accepted_reads spelled accepted closed).quiet fun made same => .value ⟨?_, rfl⟩
  simp only [Initializer.unplaced, same]

theorem complaintsAll_of_isAccepted {values : List Expr}
    (accepted : values.all Expr.isAccepted = true) : Expr.complaintsAll values = [] := by
  induction values with
  | nil => rfl
  | cons value others ih =>
      simp only [List.all_cons, Expr.isAccepted, Bool.and_eq_true, List.isEmpty_iff] at accepted ih
      rw [Expr.complaintsAll, accepted.1.2, ih accepted.2]
      rfl

theorem initialValue_list {values : List Expr} (spelled : Spelled room (.values values) words)
    (accepted : values.all Expr.isAccepted = true) (rest : List Word) :
    Reads context (initialValue (expression room) true) (brackets "(" ")" words ++ rest) rest
      (Quiet fun made => made.unplaced = (Initializer.list values).unplaced) := by
  have shape : brackets "(" ")" words ++ rest = mark "(" :: (words ++ mark ")" :: rest) := by
    simp [brackets]
  have formed : Phrase.wellFormed (.values values) = true :=
    Expr.wellFormedAll_of_isAccepted accepted
  have opens (some : values ≠ []) : ∃ word others, words = word :: others ∧ word.opens = true := by
    refine spelled.opens formed ?_
    cases values with
    | nil => exact absurd rfl some
    | cons => rfl
  rw [shape]
  unfold initialValue
  refine Reads.current fun terminal faces => ?_
  have id : terminal.id = "(" := Terminal.Fits.id faces
  simp only [id, beq_self_eq_true, Bool.and_self, if_true]
  refine Reads.skip.quiet fun _ _ => ?_
  refine (arguments_read (spelled_leading spelled formed) opens rest).bind fun made found makes => ?_
  refine .value ⟨?_, ?_⟩
  · simp only [Initializer.unplaced, makes.1]
  · have told := makes.2
    rw [Told, complaintsAll_of_isAccepted accepted, List.map_nil, List.map_eq_nil_iff] at told
    rw [told]
    rfl

theorem initializer_reads {isArray : Bool} {initializer? : Option Initializer} {rest : List Word}
    (initial : Initial room isArray initializer? words)
    (accepted : initializer?.all (·.values.all Expr.isAccepted) = true)
    (closed : limit rest = 0) :
    Reads context (initializer (expression room) isArray) (words ++ rest) rest
      (Quiet fun made =>
        made.map Initializer.unplaced = initializer?.map Initializer.unplaced) := by
  unfold initializer
  refine Reads.current fun terminal faces => ?_
  cases initial with
  | none =>
      have other : terminal.id ≠ "=" :=
        id_ne_of_limit faces closed (by decide)
      simp only [other, if_false]
      exact .value ⟨rfl, rfl⟩
  | @expression _ value words spelled opened =>
      have accepted : value.isAccepted = true := by simpa [Initializer.values] using accepted
      have id : terminal.id = "=" := Terminal.Fits.id faces
      simp only [id, if_true]
      refine Reads.skip.quiet fun _ _ => ?_
      refine (initialValue_expression spelled accepted opened closed).quiet fun made same => ?_
      exact .value ⟨congrArg some same, rfl⟩
  | @list values words spelled =>
      have id : terminal.id = "=" := Terminal.Fits.id faces
      simp only [id, if_true]
      refine Reads.skip.quiet fun _ _ => ?_
      refine (initialValue_list spelled accepted rest).quiet fun made same => ?_
      exact .value ⟨congrArg some same, rfl⟩

theorem declarator_reads {isArray : Bool} {size? : Option Expr}
    {initializer? : Option Initializer} {others rest : List Word} (valueType : ValueType)
    (size : ArraySize room isArray size? words)
    (initial : Initial room isArray initializer? others)
    (formed : Declarator.wellFormed ⟨⟨.name, head⟩, isArray, size?, initializer?⟩ = true)
    (fits : terminal.Fits (name head.text)) (closed : limit rest = 0) :
    Reads context (declarator (expression room) valueType terminal) (words ++ others ++ rest) rest
      (Mild fun made => made.unplaced =
        Declarator.unplaced ⟨⟨.name, head⟩, isArray, size?, initializer?⟩) := by
  simp only [Declarator.wellFormed, Atom.isFresh, Bool.and_eq_true] at formed
  obtain ⟨⟨⟨⟨_, fresh⟩, sizeAccepted⟩, _⟩, initialFormed⟩ := formed
  have accepted : initializer?.all (·.values.all Expr.isAccepted) = true := by
    cases initializer? with
    | none => rfl
    | some initializer =>
        cases initializer with
        | expression value =>
            simp only [Bool.and_eq_true] at initialFormed
            simpa [Initializer.values] using initialFormed.1
        | list values =>
            simp only [Bool.and_eq_true] at initialFormed
            exact initialFormed.2
  have isName : terminal.isName = true := fits.isName
  have bracket : ∀ terminal, Faces context terminal (others ++ rest) → terminal.id ≠ "[" := by
    intro terminal faces
    cases initial with
    | none => exact id_ne_of_limit faces closed (by decide)
    | expression | list =>
        have id : terminal.id = "=" := Terminal.Fits.id faces
        rw [id]
        decide
  rw [List.append_assoc]
  unfold declarator variableName
  rw [if_pos isName]
  have named : Reads context
      (do
        define terminal .name (some valueType)
        return terminal.atom .name)
      (words ++ (others ++ rest)) (words ++ (others ++ rest))
      (Mild fun made => made.unplaced = Atom.unplaced ⟨.name, head⟩) := by
    refine (define_reads fresh fits _ _ _).mild fun _ _ => .pure_mild ?_
    simp only [Terminal.atom, Atom.unplaced, fits.head_name (head.names_of_isFresh fresh)]
  refine named.mild fun made same => ?_
  refine (arraySize_reads size sizeAccepted bracket).quiet fun array sized => ?_
  obtain ⟨isArray', size?'⟩ := array
  obtain ⟨rfl, sameSize⟩ := sized
  refine (initializer_reads initial accepted closed).quiet fun made' sameInitial => .pure_mild ?_
  simp only [Declarator.unplaced, same, sameSize, sameInitial]

theorem Declarator.fresh_of_wellFormed {isArray : Bool} {size? : Option Expr}
    {initializer? : Option Initializer}
    (formed : Declarator.wellFormed ⟨⟨.name, head⟩, isArray, size?, initializer?⟩ = true) :
    head.isFresh = true := by
  simp only [Declarator.wellFormed, Atom.isFresh, Bool.and_eq_true] at formed
  exact formed.1.1.1.2

theorem nextDeclarator_reads {next : Declarator} (valueType : ValueType)
    (spelled : next.Spelled room words) (formed : next.wellFormed = true) {rest : List Word}
    (closed : limit rest = 0) :
    Reads context (nextDeclarator (expression room) valueType) (words ++ rest) rest
      (Mild fun made => made.unplaced = next.unplaced) := by
  cases spelled with
  | mk names size initial =>
      have fresh := Declarator.fresh_of_wellFormed formed
      have opens := id_name_closers (Head.solid_of_isFresh fresh).1
      refine (advanceUnlessCloser_reads opens _).quiet fun terminal fits => ?_
      exact declarator_reads valueType size initial formed fits closed

theorem declarators_read {declarators : List Declarator} (valueType : ValueType)
    (separated : Separated (Declarator.Spelled room) declarators words)
    (formed : ∀ next ∈ declarators, Declarator.wellFormed next = true) :
    ∃ (head : Head) (others : List Word), words = name head.text :: others ∧ head.isFresh = true ∧
      (∀ word ∈ others.head?, word.id ≠ "(") ∧ ∀ terminal : Terminal, terminal.Fits (name head.text) →
        ReadsItems context (declarator (expression room) valueType terminal)
          (nextDeclarator (expression room) valueType) others
          (Mild fun made => made.map Declarator.unplaced = declarators.map Declarator.unplaced) := by
  induction separated with
  | one only =>
      cases only with
      | @mk head isArray size? initializer? words others names size initial =>
          have formed := formed _ (List.mem_singleton_self _)
          have fresh := Declarator.fresh_of_wellFormed formed
          refine ⟨head, words ++ others, rfl, fresh, ?_, fun terminal fits => .one ?_⟩
          · cases size with
            | none => cases initial <;> simp
            | brackets => simp [brackets]
          · intro rest closed
            refine (declarator_reads valueType size initial formed fits closed).imp ?_
            rintro made found ⟨same, silent⟩
            exact ⟨by simp [same], silent⟩
  | @more items next words others _ last ih =>
      obtain ⟨head, tail, rfl, fresh, apart, reads⟩ := ih fun next member =>
        formed next (by simp [member])
      have advances : Advances context (·.id == ",")
          (afterComma (nextDeclarator (expression room) valueType)) :=
        afterComma_advances (.of_composed (.nextDeclarator valueType)) room
      refine ⟨head, tail ++ mark "," :: others, rfl, fresh, ?_, fun terminal fits => ?_⟩
      · cases tail with
        | nil => simp
        | cons => exact apart
      · refine (reads terminal fits).more advances fun rest made found closed holds => ?_
        refine (nextDeclarator_reads valueType last (formed next (by simp)) closed).imp ?_
        rintro made' found' ⟨same, silent⟩
        refine ⟨by simp [holds.1, same], ?_⟩
        rw [Diagnostics.hasErrors_append, holds.2, silent]
        rfl

theorem variables_forms {valueType : ValueType} {declarators : List Declarator}
    (same : terminal.head.unplaced = head.unplaced) (storable : valueType.isStorable = true)
    (separated : Separated (Declarator.Spelled room) declarators words)
    (formed : declarators.all Declarator.wellFormed = true) (rest : List Word) :
    Forms context
      (statementForm (expression room) (statement room) terminal (.declaration valueType))
      (words ++ [mark ";"] ++ rest) rest (.declaration head valueType declarators) := by
  obtain ⟨first, others, shape, fresh, apart, reads⟩ :=
    @declarators_read context room words declarators valueType separated
      (List.all_eq_true.mp formed)
  have opens := id_name_closers (Head.solid_of_isFresh fresh).1
  subst shape
  rw [List.append_assoc]
  refine (advanceUnlessCloser_reads opens _).quiet fun name fits => ?_
  refine Reads.current fun ahead faces => ?_
  have id : ahead.id ≠ "(" := by
    cases others with
    | nil =>
        rw [Terminal.Fits.id faces]
        decide
    | cons word others =>
        rw [Terminal.Fits.id faces]
        exact apart word rfl
  have storing : (!valueType.isStorable || ahead.id == "(") = false := by
    simp [storable, id]
  simp only [storing, Bool.false_eq_true, if_false]
  have listed : Reads context (declarator (expression room) valueType name >>=
      afterCommas (nextDeclarator (expression room) valueType)) (others ++ mark ";" :: rest)
      (mark ";" :: rest) (Mild fun made =>
        made.map Declarator.unplaced = declarators.map Declarator.unplaced) :=
    (reads name fits).all (by decide) (by decide) rest
  have shape : variableList (expression room) terminal name valueType = (do
      let made ← declarator (expression room) valueType name >>=
        afterCommas (nextDeclarator (expression room) valueType)
      expectSemicolon
      return .declaration terminal.head valueType made) := by
    simp only [variableList, bind_assoc]
  rw [shape]
  refine listed.mild fun made sameAll => ?_
  refine Reads.expectSemicolon.quiet fun _ _ => .pure_mild ?_
  simp only [Stmt.unplaced, same, sameAll]

/-! Whole statements. -/

def ReadsStatement (context : Context) (room : Nat) (formed : Stmt) (words : List Word) : Prop :=
  ∀ ⦃rest : List Word⦄, (∀ word ∈ rest.head?, word.id ≠ "else") →
    Reads context (statement room) (words ++ rest) rest
      (Mild fun made => made.map Stmt.unplaced = some formed.unplaced)

theorem statement_reads {before after : List Word} {result : Option Stmt → Diagnostics → Prop}
    (reads : Reads context (statementBody (expression room) (statement room)) before after result) :
    Reads context (statement (room + 1)) before after result := by
  rw [statement]
  refine Reads.enter.quiet fun _ _ => ?_
  refine reads.bind fun made found holds => ?_
  exact Reads.leave.quiet fun _ _ => .value (by simpa using holds)

theorem formed_reads {word : Word} {form : StatementForm} {others rest : List Word} {formed : Stmt}
    (acts : word.denotations.statement? = some form)
    (forms : ∀ terminal : Terminal, terminal.Fits word →
      Forms context (statementForm (expression room) (statement room) terminal form) others rest
        formed) :
    Reads context (statement (room + 1)) (word :: others) rest
      (Mild fun made => made.map Stmt.unplaced = some formed.unplaced) := by
  refine statement_reads (Reads.current fun ahead faces => ?_)
  have form : ahead.denotations.statement? = some form := by
    rw [Terminal.Fits.statement? faces, acts]
  simp only [form]
  unfold formedStatement
  simp only [bind_assoc]
  refine Reads.advance.quiet fun terminal fits => ?_
  refine (Reads.log _).quiet fun _ _ => ?_
  refine (Reads.reserve fits (.inl (isFree_of_statement? acts))).quiet fun _ _ => ?_
  exact (forms terminal fits).mild fun made same => .pure_mild (congrArg some same)

theorem expression_reads {value : Expr} (spelled : Spelled room (.value value) words)
    (accepted : value.isAccepted = true) (rest : List Word) :
    Reads context (statement (room + 1)) (words ++ [mark ";"] ++ rest) rest
      (Mild fun made => made.map Stmt.unplaced = some (Stmt.expression value).unplaced) := by
  obtain ⟨word, others, rfl, opens⟩ := accepted_opens spelled accepted
  refine statement_reads (Reads.current fun ahead faces => ?_)
  have fits : ahead.Fits word := faces
  have plain : ahead.denotations.statement? = none := by
    rw [fits.statement?, statement?_of_opens opens]
  obtain ⟨form, starts⟩ : ∃ form, ahead.denotations.operand? = some form := by
    rcases fits.denotations with same | ⟨_, same⟩
    · rw [same]
      exact Option.isSome_iff_exists.mp opens
    · rw [same]
      exact ⟨_, rfl⟩
  simp only [plain, starts]
  unfold expressionStatement
  simp only [bind_assoc]
  rw [List.append_assoc]
  have closed : limit (mark ";" :: rest) = 0 := closing_limit ";" (by decide)
  refine (accepted_reads spelled accepted closed).quiet fun made same => ?_
  refine (Reads.warningUnless _ _ _).mild fun _ _ => ?_
  refine Reads.expectSemicolon.quiet fun _ _ => ?_
  rw [pure_bind]
  refine .pure_mild ?_
  simp only [Option.map_some, Stmt.unplaced, same]

theorem unplacedAll_append (first second : List Stmt) :
    Stmt.unplacedAll (first ++ second) = Stmt.unplacedAll first ++ Stmt.unplacedAll second := by
  induction first with
  | nil => rfl
  | cons statement others ih => simp [Stmt.unplacedAll, ih]

theorem unplacedAll_toList {made : Option Stmt} {formed : Stmt}
    (same : made.map Stmt.unplaced = some formed.unplaced) :
    Stmt.unplacedAll made.toList = Stmt.unplacedAll [formed] := by
  cases made with
  | none => cases same
  | some made => simpa [Stmt.unplacedAll] using same

theorem ReadsBody.nothing : ReadsBody context room [] [] :=
  fun _ _ _ _ goesOn => goesOn [] rfl

theorem ReadsBody.another {formed : Stmt} {word : Word} {others : List Word}
    (before : ReadsBody context room body words) (starts : word.starts = true)
    (last : ReadsStatement context room formed (word :: others)) :
    ReadsBody context room (body ++ [formed]) (words ++ word :: others) := by
  intro rest after property apart goesOn
  rw [List.append_assoc]
  refine before (by simpa using id_ne_of_starts starts (by decide)) fun made same => ?_
  have id : word.id ≠ "\x7d" := id_ne_of_starts starts (by decide)
  refine Reads.round (anotherStatement_advances room) (fun terminal fits => ?_) ?_
  · rw [fits.id]
    exact bne_iff_ne.mpr id
  · have reads : Reads context (anotherStatement (statement room) made) (word :: others ++ rest)
        rest (Mild fun all => Stmt.unplacedAll all = Stmt.unplacedAll (body ++ [formed])) := by
      refine (last apart).mild fun next sameNext => .pure_mild ?_
      rw [unplacedAll_append, unplacedAll_append, same, unplacedAll_toList sameNext]
    exact reads.mild fun all sameAll => goesOn all sameAll

theorem ReadsElse.none : ReadsElse context room none [] := by
  intro rest apart
  unfold elseBody
  refine Reads.current fun terminal faces => ?_
  have other : terminal.id ≠ "else" := by
    cases rest with
    | nil =>
        have atEnd : terminal = endTerminal context := faces
        simp [atEnd, endTerminal]
    | cons word rest =>
        rw [Terminal.Fits.id faces]
        exact apart word rfl
  rw [if_neg other]
  exact .pure_mild rfl

theorem else_reads {after : List Word}
    (reads : Reads context (alternative (statement room)) words after
      (Mild fun made => Stmt.unplacedAll made = Stmt.unplacedAll body)) :
    Reads context (elseBody (statement room)) (name "else" :: words) after
      (Mild fun made => Stmt.unplacedElse made = Stmt.unplacedElse (some body)) := by
  have bound : (name "else").isFree = false := by decide
  unfold elseBody
  refine Reads.current fun terminal faces => ?_
  have id : terminal.id = "else" := by
    rw [Terminal.Fits.id faces, id_name, bound]
    rfl
  rw [if_pos id]
  refine Reads.advance.quiet fun keyword fits => ?_
  refine (Reads.reserve fits (.inl bound)).quiet fun _ _ => ?_
  exact reads.mild fun made same => .pure_mild (congrArg some same)

theorem ReadsElse.block (reads : ReadsBody context room body words) :
    ReadsElse context room (some body) (name "else" :: braces words) := by
  intro rest _
  refine else_reads ?_
  unfold alternative
  refine Reads.current fun terminal faces => ?_
  have id : terminal.id = "\x7b" := Terminal.Fits.id faces
  have other : ¬terminal.id = "if" := by
    rw [id]
    decide
  rw [if_neg other]
  exact block_reads reads rest

theorem ReadsElse.chain {formed : Stmt} (chained : words.head? = some (name "if"))
    (reads : ReadsStatement context room formed words) :
    ReadsElse context room (some [formed]) (name "else" :: words) := by
  intro rest apart
  have bound : (name "if").isFree = false := by decide
  obtain ⟨others, rfl⟩ : ∃ others, words = name "if" :: others := by
    cases words with
    | nil => cases chained
    | cons word others =>
        cases chained
        exact ⟨others, rfl⟩
  refine else_reads ?_
  unfold alternative
  refine Reads.current fun terminal faces => ?_
  have id : terminal.id = "if" := by
    rw [Terminal.Fits.id faces, id_name, bound]
    rfl
  rw [if_pos id]
  exact (reads apart).mild fun made same => .pure_mild (unplacedAll_toList same)

def ReadsPart (context : Context) (room : Nat) : Part → List Word → Prop
  | .statement formed, words => ReadsStatement context room formed words ∧
      ∃ word others, words = word :: others ∧ word.starts = true
  | .body body, words => ReadsBody context room body words
  | .alternative statements?, words => ReadsElse context room statements? words

end ParseM

def Part.wellFormed : Part → Bool
  | .statement single => single.wellFormed
  | .body statements => Stmt.wellFormedAll statements
  | .alternative statements? => Stmt.wellFormedElse statements?

theorem Stmt.wellFormedAll_append (first second : List Stmt) :
    wellFormedAll (first ++ second) = (wellFormedAll first && wellFormedAll second) := by
  induction first with
  | nil => simp [wellFormedAll]
  | cons statement others ih => simp [wellFormedAll, ih, Bool.and_assoc]

namespace ParseM

theorem ReadsPart.of_forms {formed : Stmt} {word : Word} {form : StatementForm}
    {others : List Word} (acts : word.denotations.statement? = some form)
    (forms : ∀ terminal : Terminal, terminal.Fits word → ∀ rest,
      (∀ word ∈ rest.head?, word.id ≠ "else") →
        Forms context (statementForm (expression room) (statement room) terminal form)
          (others ++ rest) rest formed) :
    ReadsPart context (room + 1) (.statement formed) (word :: others) := by
  refine ⟨fun rest apart => ?_, word, others, rfl, starts_of_statement? acts⟩
  exact formed_reads acts fun terminal fits => forms terminal fits rest apart

/-- A program is read as it was written. -/
theorem written_reads {part : Part} {words : List Word} (written : Written room part words)
    (formed : part.wellFormed = true) : ReadsPart context room part words := by
  -- On how the program is written; the keyword in front decides which reader it comes to.
  induction written with
  | expression spelled =>
      obtain ⟨word, others, rfl, opens⟩ := accepted_opens spelled formed
      refine ⟨fun rest _ => expression_reads spelled formed rest, word, _, rfl, ?_⟩
      exact starts_of_opens opens
  | @function _ head returnType _ _ _ _ names signature _ ih =>
      simp only [Part.wellFormed, Stmt.wellFormed, Bool.and_eq_true] at formed
      obtain ⟨⟨fresh, parametersFormed⟩, bodyFormed⟩ := formed
      have acts : (name returnType.keyword).denotations.statement? =
          some (.declaration returnType) := by cases returnType <;> decide
      exact .of_forms acts fun terminal _ rest _ =>
        function_forms fresh signature parametersFormed (ih bodyFormed) rest
  | @classDefinition _ head _ _ _ _ _ names superclass _ ih =>
      simp only [Part.wellFormed, Stmt.wellFormed, Bool.and_eq_true] at formed
      obtain ⟨⟨fresh, _⟩, bodyFormed⟩ := formed
      have acts : (name "class").denotations.statement? = some .classDefinition := by
        decide
      exact .of_forms acts fun terminal _ rest _ =>
        class_forms fresh superclass (ih bodyFormed) rest
  | verb spells literal plain second third =>
      simp only [Part.wellFormed, Stmt.wellFormed, Bool.and_eq_true] at formed
      obtain ⟨⟨⟨_, isWord⟩, actionOperand⟩, flagsOperand⟩ := formed
      have acts : (name "verb").denotations.statement? = some .verb := by decide
      exact .of_forms acts fun terminal fits rest _ =>
        verb_forms (fits.head_keyword (isFree_of_statement? acts) spells) isWord second
          actionOperand third flagsOperand rest
  | @declaration _ _ valueType _ _ spells storable separated =>
      simp only [Part.wellFormed, Stmt.wellFormed, Bool.and_eq_true] at formed
      have acts : (name valueType.keyword).denotations.statement? =
          some (.declaration valueType) := by cases valueType <;> decide
      exact .of_forms acts fun terminal fits rest _ =>
        variables_forms (fits.head_keyword (isFree_of_statement? acts) spells) storable separated
          formed.2 rest
  | @block _ _ _ words spells _ ih =>
      simp only [Part.wellFormed, Stmt.wellFormed, Bool.and_eq_true] at formed
      have acts : (mark "\x7b").denotations.statement? = some .block := by decide
      refine .of_forms acts fun terminal fits rest _ => ?_
      have shape : words ++ [mark "\x7d"] ++ rest = words ++ mark "\x7d" :: rest := by simp
      rw [shape]
      exact block_forms (fits.head_mark spells) (ih formed.2) rest
  | returning spells value =>
      simp only [Part.wellFormed, Stmt.wellFormed, Bool.and_eq_true] at formed
      have acts : (name "return").denotations.statement? = some .returning := by decide
      exact .of_forms acts fun terminal fits rest _ =>
        returning_forms (fits.head_keyword (isFree_of_statement? acts) spells) value formed.2 rest
  | guarded spells acts spelled _ ih =>
      simp only [Part.wellFormed, Stmt.wellFormed, Bool.and_eq_true] at formed
      obtain ⟨⟨_, accepted⟩, bodyFormed⟩ := formed
      have acts := statement?_name acts
      exact .of_forms acts fun terminal fits rest _ =>
        guarded_forms (fits.head_keyword (isFree_of_statement? acts) spells) spelled accepted
          (ih bodyFormed) rest
  | doWhile spells _ spelled ih =>
      simp only [Part.wellFormed, Stmt.wellFormed, Bool.and_eq_true] at formed
      obtain ⟨⟨_, bodyFormed⟩, accepted⟩ := formed
      have acts : (name "do").denotations.statement? = some .doWhile := by decide
      exact .of_forms acts fun terminal fits rest _ =>
        doWhile_forms (fits.head_keyword (isFree_of_statement? acts) spells) (ih bodyFormed)
          spelled accepted rest
  | ifElse spells spelled _ _ thenIH elseIH =>
      simp only [Part.wellFormed, Stmt.wellFormed, Bool.and_eq_true] at formed
      obtain ⟨⟨⟨_, accepted⟩, thenFormed⟩, elseFormed⟩ := formed
      have acts : (name "if").denotations.statement? = some .ifElse := by decide
      exact .of_forms acts fun terminal fits rest apart =>
        ifElse_forms (fits.head_keyword (isFree_of_statement? acts) spells) spelled accepted
          (thenIH thenFormed) (elseIH elseFormed) apart
  | forLoop spells first condition step _ ih =>
      simp only [Part.wellFormed, Stmt.wellFormed, Bool.and_eq_true] at formed
      obtain ⟨⟨⟨⟨_, firstAccepted⟩, conditionAccepted⟩, stepAccepted⟩, bodyFormed⟩ := formed
      have acts : (name "for").denotations.statement? = some .forLoop := by decide
      exact .of_forms acts fun terminal fits rest _ =>
        forLoop_forms (fits.head_keyword (isFree_of_statement? acts) spells) first firstAccepted
          condition conditionAccepted step stepAccepted (ih bodyFormed) rest
  | caseLabel spells spelled =>
      simp only [Part.wellFormed, Stmt.wellFormed, Bool.and_eq_true] at formed
      have acts : (name "case").denotations.statement? = some .caseLabel := by decide
      exact .of_forms acts fun terminal fits rest _ =>
        caseLabel_forms (fits.head_keyword (isFree_of_statement? acts) spells) spelled formed.2 rest
  | bare spells acts =>
      have acts := statement?_name acts
      exact .of_forms acts fun terminal fits rest _ =>
        bare_forms (fits.head_keyword (isFree_of_statement? acts) spells) rest
  | nothing => exact ReadsBody.nothing
  | @another _ _ statement _ _ _ _ beforeIH lastIH =>
      rw [Part.wellFormed, Stmt.wellFormedAll_append, Bool.and_eq_true] at formed
      have last : statement.wellFormed = true := by
        simpa only [Stmt.wellFormedAll, Bool.and_true] using formed.2
      obtain ⟨reads, word, others, rfl, starts⟩ := lastIH last
      have before : ReadsBody context _ _ _ := beforeIH formed.1
      exact before.another starts reads
  | noElse => exact ReadsElse.none
  | elseBlock _ ih => exact ReadsElse.block (ih formed)
  | elseIf chained _ ih =>
      simp only [Part.wellFormed, Stmt.wellFormedElse, Stmt.wellFormedAll, Bool.and_true] at formed
      exact ReadsElse.chain chained (ih formed).1

theorem ReadsBody.statements (reads : ReadsBody context room body words) :
    Reads context (statements (statement room)) words []
      (Mild fun made => Stmt.unplacedAll made = Stmt.unplacedAll body) := by
  have past (again : Terminal → Bool) (terminal : Terminal) (faces : Faces context terminal []) :
      (!terminal.isEnd && again terminal) = false := by
    have atEnd : terminal = endTerminal context := faces
    simp [atEnd, endTerminal, Terminal.isEnd]
  have first : Reads context (statementsUntilBrace (statement room)) (words ++ []) []
      (Mild fun made => Stmt.unplacedAll made = Stmt.unplacedAll body) :=
    reads (by simp) fun made same => .stop (past _) ⟨same, rfl⟩
  rw [List.append_nil] at first
  exact first.mild fun made same => .stop (past _) ⟨same, rfl⟩

end ParseM

/-! The words of a program are words. -/

section Solid

variable {room : Nat} {words : List Word}

theorem Spelled.accepted_solid {value : Expr} (spelled : Spelled room (.value value) words)
    (accepted : value.isAccepted = true) : AllSolid words := by
  have formed : Phrase.wellFormed (.value value) = true := Expr.formed_of_isAccepted accepted
  exact spelled.solid formed

theorem Optional.solid {value? : Option Expr} (optional : Optional room value? words)
    (accepted : value?.all Expr.isAccepted = true) : AllSolid words := by
  cases optional with
  | none => exact allSolid_nil
  | some spelled => exact spelled.accepted_solid accepted

theorem Separated.solid {α : Type} {item : α → List Word → Prop} {items : List α}
    (separated : Separated item items words)
    (each : ∀ next ∈ items, ∀ words, item next words → AllSolid words) :
    AllSolid words := by
  induction separated with
  | one only => exact each _ (List.mem_singleton_self _) _ only
  | more _ last ih =>
      refine solid_append (ih fun next member => each next (by simp [member])) ?_
      exact solid_cons (isSolid_punctuation (by decide)) (each _ (by simp) _ last)

theorem Parameters.solid {parameters : List Parameter} (written : Parameters parameters words)
    (formed : parameters.all Parameter.wellFormed = true) :
    AllSolid words := by
  cases written with
  | none => exact allSolid_nil
  | some separated =>
      refine separated.solid fun next member words spelled => ?_
      have formed := List.all_eq_true.mp formed next member
      cases spelled with
      | @mk valueType =>
          simp only [Parameter.wellFormed, Atom.isFresh, Bool.and_eq_true] at formed
          refine solid_cons (ParseM.keyword_solid valueType) (solid_cons ?_ allSolid_nil)
          exact (Head.solid_of_isFresh formed.2.2).1

theorem Declarator.Spelled.solid {declarator : Declarator} (spelled : declarator.Spelled room words)
    (formed : declarator.wellFormed = true) : AllSolid words := by
  cases spelled with
  | mk names size initial =>
      have fresh := ParseM.Declarator.fresh_of_wellFormed formed
      simp only [wellFormed, Bool.and_eq_true] at formed
      obtain ⟨⟨⟨_, sizeAccepted⟩, _⟩, initialFormed⟩ := formed
      refine solid_cons (Head.solid_of_isFresh fresh).1 (solid_append ?_ ?_)
      · cases size with
        | none => exact allSolid_nil
        | brackets size =>
            exact solid_brackets (by decide) (by decide) (size.solid sizeAccepted)
      · have equals : (mark "=").isSolid = true := isSolid_punctuation (by decide)
        cases initial with
        | none => exact allSolid_nil
        | expression spelled =>
            simp only [Bool.and_eq_true] at initialFormed
            exact solid_cons equals (spelled.accepted_solid initialFormed.1)
        | @list values _ spelled =>
            simp only [Bool.and_eq_true] at initialFormed
            have formed : Phrase.wellFormed (.values values) = true :=
              Expr.wellFormedAll_of_isAccepted initialFormed.2
            exact solid_cons equals (solid_brackets (by decide) (by decide) (spelled.solid formed))

theorem Atom.Taken.solid {leaf : Atom} (taken : leaf.Taken words) (operand : leaf.isOperand = true) :
    AllSolid words := by
  cases taken with
  | name =>
      simp only [isOperand, Bool.and_eq_true] at operand
      exact solid_cons operand.2 allSolid_nil
  | literal _ _ _ solid => exact solid_cons solid allSolid_nil
  | mark | closer => simp [isOperand] at operand

theorem Superclass.solid {superclass? : Option Atom} (written : Superclass superclass? words)
    (formed : superclass?.all Atom.isFresh = true) : AllSolid words := by
  cases written with
  | none => exact allSolid_nil
  | @some head =>
      have fresh : head.isFresh = true := by
        simp only [Option.all_some, Atom.isFresh, Bool.and_eq_true] at formed
        exact formed.2
      exact solid_cons (isSolid_punctuation (by decide))
        (solid_cons (Head.solid_of_isFresh fresh).1 allSolid_nil)

theorem Word.solid_braces (inside : AllSolid words) :
    AllSolid (braces words) :=
  solid_brackets (by decide) (by decide) inside

theorem Word.solid_parentheses (inside : AllSolid words) :
    AllSolid (brackets "(" ")" words) :=
  solid_brackets (by decide) (by decide) inside

theorem Word.isSolid_of_statement? {text : String} {form : StatementForm}
    (acts : (Grammar.standard.denotations text).statement? = some form) (other : form ≠ .block) :
    (name text).isSolid = true := by
  have known := @Grammar.denotations_induction Grammar.standard
    (fun id denotations => denotations.statement?.isSome = true →
      denotations.statement? ≠ some .block → isNameText id = true)
    (fun _ => by simp) (by decide) text
  refine known (by simp [acts]) ?_
  rw [acts]
  exact fun same => other (Option.some.inj same)

theorem Written.solid {part : Part} (written : Written room part words)
    (formed : part.wellFormed = true) : AllSolid words := by
  have semicolon : AllSolid [mark ";"] :=
    solid_cons (isSolid_punctuation (by decide)) allSolid_nil
  have comma : (mark ",").isSolid = true := by decide
  have keywords : ∀ text ∈ ["class", "abstract", "verb", "return", "do", "while", "if", "else",
      "for", "case"], (name text).isSolid = true := by decide
  induction written with
  | expression spelled => exact solid_append (spelled.accepted_solid formed) semicolon
  | @function _ _ returnType _ _ _ _ _ signature _ ih =>
      simp only [Part.wellFormed, Stmt.wellFormed, Bool.and_eq_true] at formed
      obtain ⟨⟨fresh, parametersFormed⟩, bodyFormed⟩ := formed
      refine solid_cons (ParseM.keyword_solid returnType) ?_
      refine solid_cons (Head.solid_of_isFresh fresh).1 ?_
      exact solid_append (solid_parentheses (signature.solid parametersFormed))
        (solid_braces (ih bodyFormed))
  | @classDefinition _ _ isAbstract _ _ _ _ _ superclass _ ih =>
      simp only [Part.wellFormed, Stmt.wellFormed, Bool.and_eq_true] at formed
      obtain ⟨⟨fresh, superclassFormed⟩, bodyFormed⟩ := formed
      refine solid_cons (keywords _ (by decide)) (solid_append ?_ ?_)
      · cases isAbstract with
        | false => exact allSolid_nil
        | true => exact solid_cons (keywords _ (by decide)) allSolid_nil
      · refine solid_cons (Head.solid_of_isFresh fresh).1 ?_
        exact solid_append (superclass.solid superclassFormed) (solid_braces (ih bodyFormed))
  | verb spells literal plain second third =>
      simp only [Part.wellFormed, Stmt.wellFormed, Bool.and_eq_true] at formed
      obtain ⟨⟨⟨_, isWord⟩, actionOperand⟩, flagsOperand⟩ := formed
      simp only [Atom.isWord, Bool.and_eq_true] at isWord
      refine solid_cons (keywords _ (by decide)) (solid_append (solid_parentheses ?_) semicolon)
      refine solid_cons isWord.2 (solid_cons comma ?_)
      exact solid_append (second.solid actionOperand) (solid_cons comma (third.solid flagsOperand))
  | @declaration _ _ valueType _ _ _ _ separated =>
      simp only [Part.wellFormed, Stmt.wellFormed, Bool.and_eq_true] at formed
      have each := List.all_eq_true.mp formed.2
      refine solid_cons (ParseM.keyword_solid valueType) (solid_append ?_ semicolon)
      exact separated.solid fun next member words spelled => spelled.solid (each next member)
  | block _ _ ih =>
      simp only [Part.wellFormed, Stmt.wellFormed, Bool.and_eq_true] at formed
      exact solid_braces (ih formed.2)
  | returning _ value =>
      simp only [Part.wellFormed, Stmt.wellFormed, Bool.and_eq_true] at formed
      exact solid_cons (keywords _ (by decide)) (solid_append (value.solid formed.2) semicolon)
  | guarded _ acts spelled _ ih =>
      simp only [Part.wellFormed, Stmt.wellFormed, Bool.and_eq_true] at formed
      refine solid_cons (isSolid_of_statement? acts (by simp)) ?_
      exact solid_append (solid_parentheses (spelled.accepted_solid formed.1.2))
        (solid_braces (ih formed.2))
  | doWhile _ _ spelled ih =>
      simp only [Part.wellFormed, Stmt.wellFormed, Bool.and_eq_true] at formed
      refine solid_cons (keywords _ (by decide)) (solid_append (solid_braces (ih formed.1.2)) ?_)
      refine solid_cons (keywords _ (by decide)) ?_
      exact solid_append (solid_parentheses (spelled.accepted_solid formed.2)) semicolon
  | ifElse _ spelled _ _ thenIH elseIH =>
      simp only [Part.wellFormed, Stmt.wellFormed, Bool.and_eq_true] at formed
      obtain ⟨⟨⟨_, accepted⟩, thenFormed⟩, elseFormed⟩ := formed
      refine solid_cons (keywords _ (by decide)) ?_
      refine solid_append (solid_parentheses (spelled.accepted_solid accepted)) ?_
      exact solid_append (solid_braces (thenIH thenFormed)) (elseIH elseFormed)
  | forLoop _ first condition step _ ih =>
      simp only [Part.wellFormed, Stmt.wellFormed, Bool.and_eq_true] at formed
      obtain ⟨⟨⟨⟨_, firstAccepted⟩, conditionAccepted⟩, stepAccepted⟩, bodyFormed⟩ := formed
      refine solid_cons (keywords _ (by decide)) ?_
      refine solid_append (solid_parentheses ?_) (solid_braces (ih bodyFormed))
      refine solid_append (first.solid firstAccepted) (solid_cons (semicolon _ (by simp)) ?_)
      exact solid_append (condition.solid conditionAccepted)
        (solid_cons (semicolon _ (by simp)) (step.solid stepAccepted))
  | caseLabel _ spelled =>
      simp only [Part.wellFormed, Stmt.wellFormed, Bool.and_eq_true] at formed
      refine solid_cons (keywords _ (by decide)) ?_
      exact solid_append (solid_parentheses (spelled.accepted_solid formed.2)) semicolon
  | bare _ acts => exact solid_cons (isSolid_of_statement? acts (by simp)) semicolon
  | nothing | noElse => exact allSolid_nil
  | @another _ _ statement _ _ _ _ beforeIH lastIH =>
      rw [Part.wellFormed, Stmt.wellFormedAll_append, Bool.and_eq_true] at formed
      have last : statement.wellFormed = true := by
        simpa only [Stmt.wellFormedAll, Bool.and_true] using formed.2
      exact solid_append (beforeIH formed.1) (lastIH last)
  | elseBlock _ ih => exact solid_cons (keywords _ (by decide)) (solid_braces (ih formed))
  | elseIf _ _ ih =>
      simp only [Part.wellFormed, Stmt.wellFormedElse, Stmt.wellFormedAll, Bool.and_true] at formed
      exact solid_cons (keywords _ (by decide)) (ih formed)

end Solid

namespace Document

open ParseM

theorem undefinedNames_hasErrors (grammar : Grammar) (options : Options) (document : Document) :
    (document.undefinedNames grammar options).hasErrors = false := by
  simp [undefinedNames, Occurrence.analyze, Occurrence.resolve, Diagnostics.hasErrors,
    Occurrence.undefined]

theorem hasErrors_analyzed (grammar : Grammar) (options : Options) (document : Document) :
    (document.analyzed grammar options).hasErrors = document.hasErrors := by
  unfold analyzed hasErrors
  split
  · rw [Diagnostics.hasErrors_append, undefinedNames_hasErrors, Bool.or_false]
  · rfl

/-- However a program of the language is written, it is read as that program and without errors; and
printing it is one way to write it. -/
theorem parse_written {program : List Stmt} {options : Options}
    (formed : Stmt.wellFormedAll program = true) (room : Stmt.nestingAll program ≤ options.maxDepth) :
    Written options.maxDepth (.body program) (Stmt.wordsAll program) ∧
      ∀ words, Written options.maxDepth (.body program) words →
        let document := parse Grammar.standard options (Word.spaced words)
        Stmt.unplacedAll document.statements = Stmt.unplacedAll program ∧
          document.hasErrors = false := by
  refine ⟨Written.mono (Stmt.wordsAfter_written program formed (Nat.le_refl _) .nothing) room,
    fun words written => ?_⟩
  obtain ⟨settled, ahead, told⟩ := @spaced_start options words (written.solid formed)
  have body : ReadsBody (context Grammar.standard options (Word.spaced words)) options.maxDepth
      program words := written_reads written formed
  obtain ⟨made, final, found, ran, _, _, told', same, silent⟩ := body.statements _ settled ahead
  have run : run Grammar.standard options (Word.spaced words) = (made, final) := ran
  rw [told, List.nil_append] at told'
  simp only [parse, statements_analyzed, hasErrors_analyzed, run]
  refine ⟨same, ?_⟩
  simpa only [hasErrors, ofRun, told'] using silent

theorem parse_written_function :
    let head (id text : String) : Head := { id, text, span := {} }
    let name (text : String) : Expr := .atom ⟨.name, head "(name)" text⟩
    let call : Expr := .call (head "(" "(") (name "go")
      [.binary (head "-" "-") (name "n") (.atom ⟨.literal, head "(literal)" "1"⟩)]
    let choice : Stmt := .ifElse (head "if" "if") (name "n") [.expression call]
      (some [.ifElse (head "if" "if") (.unary (head "!" "!") (name "n"))
        [.returning (head "return" "return") none] none])
    let program : List Stmt :=
      [.function (head "(name)" "go") .void [⟨some .int, ⟨.name, head "(name)" "n"⟩⟩] [choice]]
    let source := "void go ( int n ) \x7b if ( n ) \x7b go ( n - 1 ) ; \x7d " ++
      "else if ( ! n ) \x7b return ; \x7d \x7d"
    Word.spaced (Stmt.wordsAll program) = source ∧ Stmt.wellFormedAll program = true ∧
      Stmt.nestingAll program ≤ 6 ∧
        let document := parse Grammar.standard { Options.default with maxDepth := 6 } source
        Stmt.unplacedAll document.statements = Stmt.unplacedAll program ∧
          document.hasErrors = false := by
  intro head name call choice program source
  have printed : Word.spaced (Stmt.wordsAll program) = source := by decide
  have formed : Stmt.wellFormedAll program = true := by decide
  have room : Stmt.nestingAll program ≤ 6 := by decide
  have read := @parse_written program { Options.default with maxDepth := 6 } formed room
  have again := read.2 _ read.1
  rw [printed] at again
  exact ⟨printed, formed, room, again⟩

end Document

end Adventure
