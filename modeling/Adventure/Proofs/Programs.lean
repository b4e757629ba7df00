import Adventure.Proofs.Printing

/-!
Printing of programs. A statement prints with the keywords and marks that its kind asks for, and its
expressions as they print by themselves.
-/

namespace Adventure

open Word

def Parameter.unplaced (parameter : Parameter) : Parameter :=
  { parameter with name := parameter.name.unplaced }

def Initializer.unplaced : Initializer → Initializer
  | .expression value => .expression value.unplaced
  | .list items => .list (Expr.unplacedAll items)

def Declarator.unplaced (declarator : Declarator) : Declarator :=
  { name := declarator.name.unplaced
    isArray := declarator.isArray
    size? := declarator.size?.map Expr.unplaced
    initializer? := declarator.initializer?.map Initializer.unplaced }

namespace Stmt

mutual

def unplaced : Stmt → Stmt
  | .expression value => .expression value.unplaced
  | .function head returnType parameters body =>
      .function head.unplaced returnType (parameters.map Parameter.unplaced) (unplacedAll body)
  | .classDefinition head isAbstract superclass? body =>
      .classDefinition head.unplaced isAbstract (superclass?.map Atom.unplaced) (unplacedAll body)
  | .verb head word action flags =>
      .verb head.unplaced word.unplaced action.unplaced flags.unplaced
  | .declaration head valueType declarators =>
      .declaration head.unplaced valueType (declarators.map Declarator.unplaced)
  | .block head body => .block head.unplaced (unplacedAll body)
  | .returning head value? => .returning head.unplaced (value?.map Expr.unplaced)
  | .guarded head subject body => .guarded head.unplaced subject.unplaced (unplacedAll body)
  | .doWhile head body condition => .doWhile head.unplaced (unplacedAll body) condition.unplaced
  | .ifElse head condition thenBody elseBody? =>
      .ifElse head.unplaced condition.unplaced (unplacedAll thenBody) (unplacedElse elseBody?)
  | .forLoop head first? condition? step? body =>
      .forLoop head.unplaced (first?.map Expr.unplaced) (condition?.map Expr.unplaced)
        (step?.map Expr.unplaced) (unplacedAll body)
  | .caseLabel head value => .caseLabel head.unplaced value.unplaced
  | .bare head => .bare head.unplaced

def unplacedAll : List Stmt → List Stmt
  | [] => []
  | statement :: others => statement.unplaced :: unplacedAll others

def unplacedElse : Option (List Stmt) → Option (List Stmt)
  | none => none
  | some body => some (unplacedAll body)

end

end Stmt

/-! What may stand where. -/

def Head.isFresh (head : Head) : Bool :=
  head.id == "(name)" && !head.parenthesized && isNameText head.text &&
    (Grammar.standard.get? head.text).isNone && head.text != "abstract"

def Head.isKeyword (head : Head) (text : String) : Bool :=
  head.isMark text && !head.parenthesized

def Atom.isFresh (leaf : Atom) : Bool := leaf.kind == .name && leaf.head.isFresh

def Atom.isOperand : Atom → Bool
  | ⟨.name, head⟩ =>
      head.id == (Word.name head.text).id && !head.parenthesized && isNameText head.text
  | ⟨.literal, head⟩ =>
      head.id == "(literal)" && !head.parenthesized &&
        (isIntegerText head.text || isStringText head.text)
  | _ => false

def Atom.isWord : Atom → Bool
  | ⟨.literal, head⟩ => head.id == "(literal)" && !head.parenthesized && isStringText head.text
  | _ => false

/-- Whether the expression is read again without complaints. -/
def Expr.isAccepted (value : Expr) : Bool := value.wellFormed && value.complaints.isEmpty

def Parameter.wellFormed (parameter : Parameter) : Bool :=
  parameter.valueType?.any (·.isStorable) && parameter.name.isFresh

/-- Only arrays have a size or start with a list. What else an array starts with does not begin with
a parenthesis, which would open a list. -/
def Declarator.wellFormed (declarator : Declarator) : Bool :=
  declarator.name.isFresh && declarator.size?.all Expr.isAccepted &&
    (declarator.isArray || declarator.size?.isNone) &&
      match declarator.initializer? with
      | none => true
      | some (.expression value) =>
          value.isAccepted && !(declarator.isArray && value.words.head? == some (mark "("))
      | some (.list values) => declarator.isArray && values.all Expr.isAccepted

namespace Stmt

mutual

def wellFormed : Stmt → Bool
  | .expression value => value.isAccepted
  | .function head _ parameters body =>
      head.isFresh && parameters.all Parameter.wellFormed && wellFormedAll body
  | .classDefinition head _ superclass? body =>
      head.isFresh && superclass?.all Atom.isFresh && wellFormedAll body
  | .verb head word action flags =>
      head.isKeyword "verb" && word.isWord && action.isOperand && flags.isOperand
  | .declaration head valueType declarators =>
      head.isKeyword valueType.keyword && valueType.isStorable && !declarators.isEmpty &&
        declarators.all Declarator.wellFormed
  | .block head body => head.isKeyword "\x7b" && wellFormedAll body
  | .returning head value? => head.isKeyword "return" && value?.all Expr.isAccepted
  | .guarded head subject body =>
      ["while", "fetch", "with", "switch"].any head.isKeyword && subject.isAccepted &&
        wellFormedAll body
  | .doWhile head body condition =>
      head.isKeyword "do" && wellFormedAll body && condition.isAccepted
  | .ifElse head condition thenBody elseBody? =>
      head.isKeyword "if" && condition.isAccepted && wellFormedAll thenBody &&
        wellFormedElse elseBody?
  | .forLoop head first? condition? step? body =>
      head.isKeyword "for" && first?.all Expr.isAccepted && condition?.all Expr.isAccepted &&
        step?.all Expr.isAccepted && wellFormedAll body
  | .caseLabel head value => head.isKeyword "case" && value.isAccepted
  | .bare head => ["break", "default", "quit", "halt"].any head.isKeyword

def wellFormedAll : List Stmt → Bool
  | [] => true
  | statement :: others => statement.wellFormed && wellFormedAll others

def wellFormedElse : Option (List Stmt) → Bool
  | none => true
  | some body => wellFormedAll body

end

end Stmt

/-! Printing. -/

def Word.commas {α : Type} (print : α → List Word) : List α → List Word
  | [] => []
  | first :: others => print first ++ others.flatMap fun next => mark "," :: print next

def Parameter.words (parameter : Parameter) : List Word :=
  [Word.name (parameter.valueType?.elim "" ValueType.keyword), Word.name parameter.name.head.text]

def Expr.optionalWords (value? : Option Expr) : List Word := value?.elim [] Expr.words

def Initializer.words : Initializer → List Word
  | .expression value => mark "=" :: value.words
  | .list values => mark "=" :: brackets "(" ")" (Expr.wordsAll values)

def Declarator.words (declarator : Declarator) : List Word :=
  Word.name declarator.name.head.text ::
    ((if declarator.isArray then brackets "[" "]" (Expr.optionalWords declarator.size?) else []) ++
      declarator.initializer?.elim [] Initializer.words)

namespace Stmt

/-- Whether an `else` before the statements can do without a block. -/
def isChain : List Stmt → Bool
  | [.ifElse ..] => true
  | _ => false

mutual

def words : Stmt → List Word
  | .expression value => value.words ++ [mark ";"]
  | .function head returnType parameters body =>
      name returnType.keyword :: name head.text ::
        (brackets "(" ")" (commas Parameter.words parameters) ++ braces (wordsAll body))
  | .classDefinition head isAbstract superclass? body =>
      name "class" :: ((if isAbstract then [name "abstract"] else []) ++ name head.text ::
        (superclass?.elim [] (fun leaf => [mark ":", name leaf.head.text]) ++
          braces (wordsAll body)))
  | .verb _ word action flags =>
      name "verb" :: (brackets "(" ")"
        (⟨.string, word.head.text⟩ :: mark "," :: ([action.word] ++ mark "," :: [flags.word])) ++
          [mark ";"])
  | .declaration _ valueType declarators =>
      name valueType.keyword :: (commas Declarator.words declarators ++ [mark ";"])
  | .block _ body => braces (wordsAll body)
  | .returning _ value? => name "return" :: (Expr.optionalWords value? ++ [mark ";"])
  | .guarded head subject body =>
      name head.text :: (brackets "(" ")" subject.words ++ braces (wordsAll body))
  | .doWhile _ body condition =>
      name "do" :: (braces (wordsAll body) ++ name "while" ::
        (brackets "(" ")" condition.words ++ [mark ";"]))
  | .ifElse _ condition thenBody elseBody? =>
      name "if" :: (brackets "(" ")" condition.words ++
        (braces (wordsAll thenBody) ++ wordsElse elseBody?))
  | .forLoop _ first? condition? step? body =>
      name "for" :: (brackets "(" ")" (Expr.optionalWords first? ++ mark ";" ::
        (Expr.optionalWords condition? ++ mark ";" :: Expr.optionalWords step?)) ++
          braces (wordsAll body))
  | .caseLabel _ value => name "case" :: (brackets "(" ")" value.words ++ [mark ";"])
  | .bare head => [name head.text, mark ";"]

def wordsAll : List Stmt → List Word
  | [] => []
  | statement :: others => statement.words ++ wordsAll others

def wordsElse : Option (List Stmt) → List Word
  | none => []
  | some body => name "else" :: if isChain body then wordsAll body else braces (wordsAll body)

end

end Stmt

def Expr.optionalNesting (value? : Option Expr) : Nat := value?.elim 0 Expr.nesting

def Initializer.nesting : Initializer → Nat
  | .expression value => value.nesting
  | .list values => Expr.nestingAll values

def Declarator.nesting (declarator : Declarator) : Nat :=
  max (Expr.optionalNesting declarator.size?) (declarator.initializer?.elim 0 Initializer.nesting)

def Declarator.nestingAll : List Declarator → Nat
  | [] => 0
  | declarator :: others => max declarator.nesting (nestingAll others)

namespace Stmt

mutual

def nesting : Stmt → Nat
  | .expression value => value.nesting + 1
  | .function _ _ _ body => nestingAll body + 1
  | .classDefinition _ _ _ body => nestingAll body + 1
  | .verb .. => 1
  | .declaration _ _ declarators => Declarator.nestingAll declarators + 1
  | .block _ body => nestingAll body + 1
  | .returning _ value? => Expr.optionalNesting value? + 1
  | .guarded _ subject body => max subject.nesting (nestingAll body) + 1
  | .doWhile _ body condition => max (nestingAll body) condition.nesting + 1
  | .ifElse _ condition thenBody elseBody? =>
      max condition.nesting (max (nestingAll thenBody) (nestingElse elseBody?)) + 1
  | .forLoop _ first? condition? step? body =>
      max (Expr.optionalNesting first?) (max (Expr.optionalNesting condition?)
        (max (Expr.optionalNesting step?) (nestingAll body))) + 1
  | .caseLabel _ value => value.nesting + 1
  | .bare _ => 1

def nestingAll : List Stmt → Nat
  | [] => 0
  | statement :: others => max statement.nesting (nestingAll others)

def nestingElse : Option (List Stmt) → Nat
  | none => 0
  | some body => nestingAll body

end

end Stmt

/-! What is printed is a spelling. -/

section Room

variable {room : Nat}

theorem Optional.succ {value? : Option Expr} {words : List Word}
    (optional : Optional room value? words) : Optional (room + 1) value? words := by
  cases optional with
  | none => exact .none
  | some spelled => exact .some spelled.succ

theorem ArraySize.succ {isArray : Bool} {size? : Option Expr} {words : List Word}
    (size : ArraySize room isArray size? words) : ArraySize (room + 1) isArray size? words := by
  cases size with
  | none => exact .none
  | brackets size => exact .brackets size.succ

theorem Initial.succ {isArray : Bool} {initializer? : Option Initializer} {words : List Word}
    (initial : Initial room isArray initializer? words) :
    Initial (room + 1) isArray initializer? words := by
  cases initial with
  | none => exact .none
  | expression spelled opened => exact .expression spelled.succ opened
  | list spelled => exact .list spelled.succ

theorem Declarator.Spelled.succ {declarator : Declarator} {words : List Word}
    (spelled : declarator.Spelled room words) : declarator.Spelled (room + 1) words := by
  cases spelled with
  | mk names size initial => exact .mk names size.succ initial.succ

theorem Separated.imp {α : Type} {item item' : α → List Word → Prop} {items : List α}
    {words : List Word} (separated : Separated item items words)
    (weaker : ∀ next words, item next words → item' next words) :
    Separated item' items words := by
  induction separated with
  | one only => exact .one (weaker _ _ only)
  | more _ last ih => exact .more ih (weaker _ _ last)

theorem Written.succ {part : Part} {words : List Word} (written : Written room part words) :
    Written (room + 1) part words := by
  induction written with
  | expression spelled => exact .expression spelled.succ
  | function names signature _ ih => exact .function names signature ih
  | classDefinition names superclass _ ih => exact .classDefinition names superclass ih
  | verb spells literal plain second third => exact .verb spells literal plain second third
  | declaration spells storable separated =>
      exact .declaration spells storable (separated.imp fun _ _ => Declarator.Spelled.succ)
  | block spells _ ih => exact .block spells ih
  | returning spells value => exact .returning spells value.succ
  | guarded spells acts spelled _ ih => exact .guarded spells acts spelled.succ ih
  | doWhile spells _ spelled ih => exact .doWhile spells ih spelled.succ
  | ifElse spells spelled _ _ thenIH elseIH => exact .ifElse spells spelled.succ thenIH elseIH
  | forLoop spells first condition step _ ih =>
      exact .forLoop spells first.succ condition.succ step.succ ih
  | caseLabel spells spelled => exact .caseLabel spells spelled.succ
  | bare spells acts => exact .bare spells acts
  | nothing => exact .nothing
  | another _ _ beforeIH lastIH => exact .another beforeIH lastIH
  | noElse => exact .noElse
  | elseBlock _ ih => exact .elseBlock ih
  | elseIf chained _ ih => exact .elseIf chained ih

theorem Written.mono {more : Nat} {part : Part} {words : List Word}
    (written : Written room part words) (least : room ≤ more) : Written more part words := by
  induction least with
  | refl => exact written
  | step _ ih => exact ih.succ

end Room

theorem separated_commas {α : Type} {item : α → List Word → Prop} {print : α → List Word}
    {first : α} {others : List α} (prints : ∀ next ∈ first :: others, item next (print next)) :
    Separated item (first :: others) (commas print (first :: others)) := by
  have goesOn (before : List α) (words : List Word) (separated : Separated item before words) :
      Separated item (before ++ others)
        (words ++ others.flatMap fun next => mark "," :: print next) := by
    have prints' : ∀ next ∈ others, item next (print next) := fun next member =>
      prints next (List.mem_cons_of_mem first member)
    clear prints
    induction others generalizing before words with
    | nil => simpa using separated
    | cons next others ih =>
        have longer := separated.more (prints' next (by simp))
        have rest := ih _ _ longer fun next member => prints' next (by simp [member])
        simpa using rest
  exact goesOn [first] _ (.one (prints first (by simp)))

namespace Head

variable {head : Head}

theorem spells_of_isKeyword {text : String} (keyword : head.isKeyword text = true) :
    head.Spells text := by
  simp only [isKeyword, isMark, Bool.and_eq_true, beq_iff_eq, Bool.not_eq_true'] at keyword
  exact ⟨keyword.1.1, keyword.1.2, keyword.2⟩

theorem isFree_of_isFresh (fresh : head.isFresh = true) :
    (Word.name head.text).isFree = true := by
  simp only [isFresh, Bool.and_eq_true] at fresh
  simp [Word.isFree, Word.name, Option.isNone_iff_eq_none.mp fresh.1.2]

theorem names_of_isFresh (fresh : head.isFresh = true) : head.Names := by
  have free := isFree_of_isFresh fresh
  simp only [isFresh, Bool.and_eq_true, beq_iff_eq, Bool.not_eq_true'] at fresh
  refine ⟨?_, fresh.1.1.1.2⟩
  rw [Word.id_name, free, if_pos rfl]
  exact fresh.1.1.1.1

end Head

theorem Atom.names_of_isFresh {leaf : Atom} (fresh : leaf.isFresh = true) :
    ∃ head, leaf = ⟨.name, head⟩ ∧ head.isFresh = true ∧ head.Names := by
  obtain ⟨kind, head⟩ := leaf
  simp only [isFresh, Bool.and_eq_true, beq_iff_eq] at fresh
  obtain ⟨rfl, fresh⟩ := fresh
  exact ⟨head, rfl, fresh, head.names_of_isFresh fresh⟩

theorem Expr.formed_of_isAccepted {value : Expr} (accepted : value.isAccepted = true) :
    value.wellFormed = true := by
  simp only [isAccepted, Bool.and_eq_true] at accepted
  exact accepted.1

theorem Expr.wellFormedAll_of_isAccepted {values : List Expr}
    (accepted : values.all isAccepted = true) : wellFormedAll values = true := by
  induction values with
  | nil => rfl
  | cons value others ih =>
      simp only [List.all_cons, Bool.and_eq_true] at accepted
      simp only [wellFormedAll, Bool.and_eq_true]
      exact ⟨formed_of_isAccepted accepted.1, ih accepted.2⟩

variable {room : Nat}

theorem Expr.accepted_spelled {value : Expr} (accepted : value.isAccepted = true)
    (enough : value.nesting ≤ room) : Spelled room (.value value) value.words :=
  (words_spelled value (formed_of_isAccepted accepted)).mono enough

theorem Expr.optional_spelled {value? : Option Expr} (accepted : value?.all isAccepted = true)
    (enough : optionalNesting value? ≤ room) : Optional room value? (optionalWords value?) := by
  cases value? with
  | none => exact .none
  | some value => exact .some (accepted_spelled accepted enough)

theorem Declarator.words_spelled {declarator : Declarator}
    (formed : declarator.wellFormed = true) (enough : declarator.nesting ≤ room) :
    declarator.Spelled room declarator.words := by
  obtain ⟨leaf, isArray, size?, initializer?⟩ := declarator
  simp only [wellFormed, Bool.and_eq_true, Bool.or_eq_true] at formed
  obtain ⟨⟨⟨fresh, sizeFormed⟩, sized⟩, initialFormed⟩ := formed
  obtain ⟨head, rfl, _, names⟩ := Atom.names_of_isFresh fresh
  simp only [nesting] at enough
  have sizeEnough : Expr.optionalNesting size? ≤ room := by omega
  have initialEnough : initializer?.elim 0 Initializer.nesting ≤ room := by omega
  refine .mk names ?_ ?_
  · have size := Expr.optional_spelled sizeFormed sizeEnough
    cases isArray with
    | true => exact .brackets size
    | false =>
        have absent : size? = none := by simpa using sized
        rw [absent]
        exact .none
  · cases initializer? with
    | none => exact .none
    | some initializer =>
        cases initializer with
        | expression value =>
            simp only [Bool.and_eq_true] at initialFormed
            refine .expression (Expr.accepted_spelled initialFormed.1 initialEnough) ?_
            intro array
            simpa [array] using initialFormed.2
        | list values =>
            simp only [Bool.and_eq_true] at initialFormed
            rw [initialFormed.1]
            have formed := Expr.wellFormedAll_of_isAccepted initialFormed.2
            exact .list ((Expr.wordsAll_spelled values formed).mono initialEnough)

theorem Declarator.nesting_le {declarators : List Declarator} {declarator : Declarator}
    (member : declarator ∈ declarators) : declarator.nesting ≤ nestingAll declarators := by
  induction declarators with
  | nil => simp at member
  | cons first others ih =>
      rw [nestingAll]
      rcases List.mem_cons.mp member with rfl | later
      · exact Nat.le_max_left _ _
      · exact Nat.le_trans (ih later) (Nat.le_max_right _ _)

theorem Parameter.words_spelled {parameter : Parameter} (formed : parameter.wellFormed = true) :
    parameter.Spelled parameter.words := by
  obtain ⟨valueType?, leaf⟩ := parameter
  simp only [wellFormed, Bool.and_eq_true] at formed
  obtain ⟨storable, fresh⟩ := formed
  obtain ⟨head, rfl, _, names⟩ := Atom.names_of_isFresh fresh
  cases valueType? with
  | none => simp at storable
  | some valueType => exact .mk (by simpa using storable) names

theorem Parameter.words_parameters {parameters : List Parameter}
    (formed : parameters.all wellFormed = true) :
    Parameters parameters (commas Parameter.words parameters) := by
  cases parameters with
  | nil => exact .none
  | cons first others =>
      have each := List.all_eq_true.mp formed
      exact .some (separated_commas fun next member => words_spelled (each next member))

theorem Atom.word_taken {leaf : Atom} (operand : leaf.isOperand = true) :
    leaf.Taken [leaf.word] := by
  obtain ⟨kind, head⟩ := leaf
  cases kind with
  | name =>
      simp only [isOperand, Bool.and_eq_true, beq_iff_eq, Bool.not_eq_true'] at operand
      exact .name ⟨operand.1.1, operand.1.2⟩
  | literal =>
      simp only [isOperand, Bool.and_eq_true, beq_iff_eq, Bool.not_eq_true', Bool.or_eq_true]
        at operand
      obtain ⟨⟨id, plain⟩, text⟩ := operand
      simp only [Atom.word, id, if_true]
      cases string : isStringText head.text with
      | true => exact .literal id plain (.inr rfl) string
      | false =>
          have digits : isIntegerText head.text = true := text.resolve_right (by simp [string])
          exact .literal id plain (.inl rfl) digits
  | _ => simp [isOperand] at operand

namespace Stmt

theorem guarded_acts : ∀ text ∈ ["while", "fetch", "with", "switch"],
    (Grammar.standard.denotations text).statement? = some .guarded := by
  decide

theorem bare_acts : ∀ text ∈ ["break", "default", "quit", "halt"],
    (Grammar.standard.denotations text).statement? = some .bare := by
  decide

theorem head?_words_of_isChain {statement : Stmt} (chain : isChain [statement] = true) :
    statement.words.head? = some (name "if") := by
  cases statement with
  | ifElse => rfl
  | _ => simp [isChain] at chain

theorem exists_nesting (statement : Stmt) : ∃ inside, statement.nesting = inside + 1 := by
  cases statement <;> exact ⟨_, rfl⟩

mutual

theorem words_written {room : Nat} : (statement : Stmt) → statement.wellFormed = true →
    statement.nesting ≤ room + 1 → Written (room + 1) (.statement statement) statement.words
  | .expression value, formed, enough => by
      simp only [nesting] at enough
      exact .expression (Expr.accepted_spelled formed (by omega))
  | .function head returnType parameters body, formed, enough => by
      simp only [wellFormed, Bool.and_eq_true] at formed
      obtain ⟨⟨fresh, parametersFormed⟩, bodyFormed⟩ := formed
      simp only [nesting] at enough
      exact .function (head.names_of_isFresh fresh) (Parameter.words_parameters parametersFormed)
        (wordsAfter_written body bodyFormed (by omega) .nothing)
  | .classDefinition head isAbstract superclass? body, formed, enough => by
      simp only [wellFormed, Bool.and_eq_true] at formed
      obtain ⟨⟨fresh, superclassFormed⟩, bodyFormed⟩ := formed
      simp only [nesting] at enough
      have superclass : Superclass superclass?
          (superclass?.elim [] fun leaf => [mark ":", name leaf.head.text]) := by
        cases superclass? with
        | none => exact .none
        | some leaf =>
            obtain ⟨base, rfl, _, names⟩ := Atom.names_of_isFresh superclassFormed
            exact .some names
      exact .classDefinition (head.names_of_isFresh fresh) superclass
        (wordsAfter_written body bodyFormed (by omega) .nothing)
  | .verb head word action flags, formed, enough => by
      simp only [wellFormed, Bool.and_eq_true] at formed
      obtain ⟨⟨⟨keyword, isWord⟩, actionFormed⟩, flagsFormed⟩ := formed
      obtain ⟨kind, word⟩ := word
      cases kind with
      | literal =>
          simp only [Atom.isWord, Bool.and_eq_true, beq_iff_eq, Bool.not_eq_true'] at isWord
          exact .verb (Head.spells_of_isKeyword keyword) isWord.1.1 isWord.1.2
            (Atom.word_taken actionFormed) (Atom.word_taken flagsFormed)
      | _ => simp [Atom.isWord] at isWord
  | .declaration head valueType declarators, formed, enough => by
      simp only [wellFormed, Bool.and_eq_true] at formed
      obtain ⟨⟨⟨keyword, storable⟩, some⟩, declaratorsFormed⟩ := formed
      simp only [nesting] at enough
      have each := List.all_eq_true.mp declaratorsFormed
      cases declarators with
      | nil => simp at some
      | cons first others =>
          refine .declaration (Head.spells_of_isKeyword keyword) storable ?_
          refine separated_commas fun next member => Declarator.words_spelled (each next member) ?_
          have least := Declarator.nesting_le member
          omega
  | .block head body, formed, enough => by
      simp only [wellFormed, Bool.and_eq_true] at formed
      simp only [nesting] at enough
      exact .block (Head.spells_of_isKeyword formed.1)
        (wordsAfter_written body formed.2 (by omega) .nothing)
  | .returning head value?, formed, enough => by
      simp only [wellFormed, Bool.and_eq_true] at formed
      simp only [nesting] at enough
      exact .returning (Head.spells_of_isKeyword formed.1)
        (Expr.optional_spelled formed.2 (by omega))
  | .guarded head subject body, formed, enough => by
      simp only [wellFormed, Bool.and_eq_true, List.any_eq_true] at formed
      obtain ⟨⟨⟨text, member, keyword⟩, subjectFormed⟩, bodyFormed⟩ := formed
      have spells := Head.spells_of_isKeyword keyword
      simp only [nesting] at enough
      simp only [words, spells.text]
      exact .guarded spells (guarded_acts text member)
        (Expr.accepted_spelled subjectFormed (by omega))
        (wordsAfter_written body bodyFormed (by omega) .nothing)
  | .doWhile head body condition, formed, enough => by
      simp only [wellFormed, Bool.and_eq_true] at formed
      obtain ⟨⟨keyword, bodyFormed⟩, conditionFormed⟩ := formed
      simp only [nesting] at enough
      exact .doWhile (Head.spells_of_isKeyword keyword)
        (wordsAfter_written body bodyFormed (by omega) .nothing)
        (Expr.accepted_spelled conditionFormed (by omega))
  | .ifElse head condition thenBody elseBody?, formed, enough => by
      simp only [wellFormed, Bool.and_eq_true] at formed
      obtain ⟨⟨⟨keyword, conditionFormed⟩, thenFormed⟩, elseFormed⟩ := formed
      simp only [nesting] at enough
      exact .ifElse (Head.spells_of_isKeyword keyword)
        (Expr.accepted_spelled conditionFormed (by omega))
        (wordsAfter_written thenBody thenFormed (by omega) .nothing)
        (wordsElse_written elseBody? elseFormed (by omega))
  | .forLoop head first? condition? step? body, formed, enough => by
      simp only [wellFormed, Bool.and_eq_true] at formed
      obtain ⟨⟨⟨⟨keyword, firstFormed⟩, conditionFormed⟩, stepFormed⟩, bodyFormed⟩ := formed
      simp only [nesting] at enough
      exact .forLoop (Head.spells_of_isKeyword keyword)
        (Expr.optional_spelled firstFormed (by omega))
        (Expr.optional_spelled conditionFormed (by omega))
        (Expr.optional_spelled stepFormed (by omega))
        (wordsAfter_written body bodyFormed (by omega) .nothing)
  | .caseLabel head value, formed, enough => by
      simp only [wellFormed, Bool.and_eq_true] at formed
      simp only [nesting] at enough
      exact .caseLabel (Head.spells_of_isKeyword formed.1)
        (Expr.accepted_spelled formed.2 (by omega))
  | .bare head, formed, _ => by
      simp only [wellFormed, List.any_eq_true] at formed
      obtain ⟨text, member, keyword⟩ := formed
      have spells := Head.spells_of_isKeyword keyword
      simp only [words, spells.text]
      exact .bare spells (bare_acts text member)

theorem wordsAfter_written {room : Nat} {before : List Stmt} {words : List Word} :
    (statements : List Stmt) → wellFormedAll statements = true → nestingAll statements ≤ room →
      Written room (.body before) words →
        Written room (.body (before ++ statements)) (words ++ wordsAll statements)
  | [], _, _, written => by simpa [wordsAll] using written
  | statement :: others, formed, enough, written => by
      simp only [wellFormedAll, Bool.and_eq_true] at formed
      simp only [nestingAll] at enough
      obtain ⟨inside, nests⟩ := exists_nesting statement
      obtain ⟨fewer, rfl⟩ : ∃ fewer, room = fewer + 1 := ⟨room - 1, by omega⟩
      have next : Written (fewer + 1) (.statement statement) statement.words :=
        words_written statement formed.1 (by omega)
      have rest := wordsAfter_written others formed.2 (by omega) (written.another next)
      simpa [wordsAll] using rest

theorem wordsElse_written {room : Nat} : (statements? : Option (List Stmt)) →
    wellFormedElse statements? = true → nestingElse statements? ≤ room →
      Written room (.alternative statements?) (wordsElse statements?)
  | none, _, _ => .noElse
  | some [], _, _ => .elseBlock .nothing
  | some [statement], formed, enough => by
      simp only [wellFormedElse, wellFormedAll, Bool.and_true] at formed
      simp only [nestingElse, nestingAll, Nat.max_zero] at enough
      obtain ⟨inside, nests⟩ := exists_nesting statement
      obtain ⟨fewer, rfl⟩ : ∃ fewer, room = fewer + 1 := ⟨room - 1, by omega⟩
      have written := words_written statement formed enough
      simp only [wordsElse, wordsAll, List.append_nil]
      cases chain : isChain [statement] with
      | false =>
          simp only [Bool.false_eq_true, if_false]
          simpa using Written.elseBlock (.another .nothing written)
      | true =>
          simp only [if_true]
          exact .elseIf (head?_words_of_isChain chain) written
  | some (first :: second :: others), formed, enough => by
      simp only [wellFormedElse] at formed
      simp only [nestingElse] at enough
      have block : isChain (first :: second :: others) = false := by cases first <;> rfl
      simp only [wordsElse, block, Bool.false_eq_true, if_false]
      exact .elseBlock (wordsAfter_written (first :: second :: others) formed enough .nothing)

end

end Stmt

end Adventure
