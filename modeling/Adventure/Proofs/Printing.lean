import Adventure.Diagnostic
import Adventure.Proofs.Syntax

/-!
Printing of expressions. An expression prints with parentheses exactly around what the tree says
stands between them, so it has to say so wherever the binding powers require it.
-/

namespace Adventure

open Word

def Head.unplaced (head : Head) : Head := { head with span := {} }

def Atom.unplaced (leaf : Atom) : Atom := { leaf with head := leaf.head.unplaced }

namespace Expr

mutual

def unplaced : Expr → Expr
  | .atom leaf => .atom leaf.unplaced
  | .unary head operand => .unary head.unplaced operand.unplaced
  | .binary head left right => .binary head.unplaced left.unplaced right.unplaced
  | .ternary head condition thenValue elseValue =>
      .ternary head.unplaced condition.unplaced thenValue.unplaced elseValue.unplaced
  | .call head callee arguments => .call head.unplaced callee.unplaced (unplacedAll arguments)
  | .methodCall head object member arguments =>
      .methodCall head.unplaced object.unplaced member.unplaced (unplacedAll arguments)

def unplacedAll : List Expr → List Expr
  | [] => []
  | value :: others => value.unplaced :: unplacedAll others

end

/-! What may stand where. -/

def isProperty : Expr → Bool
  | .atom ⟨.literal, head⟩ =>
      head.id == (Word.name head.text).id && !head.parenthesized && isNameText head.text
  | _ => false

def isTernary : Expr → Bool
  | .ternary .. => true
  | _ => false

def isAssigning : Expr → Bool
  | .binary head _ _ => assignmentIds.contains head.id
  | _ => false

def isAccess : Expr → Bool
  | .binary head _ _ => accessIds.contains head.id
  | _ => false

def power? : Expr → Option Nat
  | .atom _ => none
  | .unary head _ =>
      some (if stepIds.contains head.id then (Grammar.standard.denotations head.id).power
        else Power.unary)
  | .binary head _ _ | .ternary head _ _ _ | .call head _ _ | .methodCall head _ _ _ =>
      some (Grammar.standard.denotations head.id).power

/-- Whether an operand needs no more parentheses than it has where operators bind at `least`. -/
def fits (least : Nat) (operand : Expr) : Bool :=
  operand.head.parenthesized || operand.power?.all (least ≤ ·)

/-- As `fits`, for what stands left of an operator: there neither an assignment nor a choice can
stand without parentheses. -/
def fitsLeft (least : Nat) (operand : Expr) : Bool :=
  operand.fits least &&
    (operand.head.parenthesized || !(operand.isTernary || operand.isAssigning))

end Expr

def Head.isMark (head : Head) (text : String) : Bool := head.id == text && head.text == text

namespace Atom

/-- Names that are no ids of the grammar, literals, `NULL`, `this` and `super`. -/
def wellFormed : Atom → Bool
  | ⟨.name, head⟩ =>
      head.id == "(name)" && isNameText head.text && (Grammar.standard.get? head.text).isNone
  | ⟨.literal, head⟩ =>
      head.isMark "NULL" ||
        (head.id == "(literal)" && (isIntegerText head.text || isStringText head.text))
  | ⟨.thisObject, head⟩ => head.isMark "this"
  | ⟨.superObject, head⟩ => head.isMark "super"
  | ⟨.invalid, _⟩ => false

def word : Atom → Word
  | ⟨.literal, head⟩ =>
      if head.id = "(literal)" then
        ⟨if isStringText head.text then .string else .integer, head.text⟩
      else name head.text
  | ⟨_, head⟩ => name head.text

end Atom

namespace Expr

mutual

/-- Whether the expression is one of the language, with parentheses wherever an operand needs them:
around an operator that binds weaker than the one around it, or as strongly on the side that the
latter does not associate to, and around assignments and choices left of an operator. What is called
is no member or element, for then it would be a method call. -/
def wellFormed : Expr → Bool
  | .atom leaf => leaf.wellFormed
  | .unary head operand =>
      head.text == head.id && operand.wellFormed &&
        if stepIds.contains head.id then operand.fitsLeft Power.assignment
        else ["-", "!", "~"].contains head.id && operand.fits Power.unary
  | .binary head left right =>
      let denotations := Grammar.standard.denotations head.id
      head.text == head.id && left.wellFormed &&
        match denotations.operator? with
        | some .leftAssociative =>
            left.fitsLeft denotations.power && right.fits (denotations.power + 1) &&
              right.wellFormed
        | some .rightAssociative =>
            left.fitsLeft (denotations.power + 1) && right.fits denotations.power &&
              right.wellFormed
        | some .assignment => left.fitsLeft (denotations.power + 1) && right.wellFormed
        | some .member => left.fitsLeft denotations.power && right.isProperty
        | some .index => left.fitsLeft denotations.power && right.wellFormed
        | _ => false
  | .ternary head condition thenValue elseValue =>
      head.isMark "?" && condition.wellFormed && condition.fitsLeft Power.ternary &&
        thenValue.wellFormed && elseValue.wellFormed
  | .call head callee arguments =>
      head.isMark "(" && callee.wellFormed && callee.fitsLeft Power.member &&
        (callee.head.parenthesized || !callee.isAccess) && wellFormedAll arguments
  | .methodCall head object member arguments =>
      head.isMark "(" && object.wellFormed && object.fitsLeft Power.member &&
        (member.isProperty || member.wellFormed) && wellFormedAll arguments

def wellFormedAll : List Expr → Bool
  | [] => true
  | value :: others => value.wellFormed && wellFormedAll others

end

/-! Printing. -/

def enclose (head : Head) (words : List Word) : List Word :=
  if head.parenthesized then brackets "(" ")" words else words

mutual

/-- The words of an expression, with parentheses just around what the tree says. -/
def words : Expr → List Word
  | .atom leaf => enclose leaf.head [leaf.word]
  | .unary head operand =>
      enclose head <|
        if stepIds.contains head.id then operand.words ++ [mark head.text]
        else mark head.text :: operand.words
  | .binary head left right =>
      enclose head <|
        left.words ++
          if head.id = "[" then brackets "[" "]" right.words else mark head.text :: right.words
  | .ternary head condition thenValue elseValue =>
      enclose head
        (condition.words ++ mark "?" :: (thenValue.words ++ mark ":" :: elseValue.words))
  | .call head callee arguments =>
      enclose head (callee.words ++ brackets "(" ")" (wordsAll arguments))
  | .methodCall head object member arguments =>
      enclose head <|
        (object.words ++
          if member.wellFormed then brackets "[" "]" member.words else mark "." :: member.words) ++
          brackets "(" ")" (wordsAll arguments)

def wordsAll : List Expr → List Word
  | [] => []
  | value :: others => value.words ++ wordsMore others

def wordsMore : List Expr → List Word
  | [] => []
  | value :: others => mark "," :: (value.words ++ wordsMore others)

end

def enclosure (head : Head) : Nat := if head.parenthesized then 1 else 0

mutual

def nesting : Expr → Nat
  | .atom leaf => 1 + enclosure leaf.head
  | .unary head operand =>
      (if stepIds.contains head.id then operand.nesting else operand.nesting + 1) + enclosure head
  | .binary head left right =>
      (if head.id = "." then left.nesting else max left.nesting (right.nesting + 1)) +
        enclosure head
  | .ternary head condition thenValue elseValue =>
      max condition.nesting (max thenValue.nesting elseValue.nesting + 1) + enclosure head
  | .call head callee arguments =>
      max callee.nesting (nestingAll arguments + 1) + enclosure head
  | .methodCall head object member arguments =>
      max (if member.wellFormed then max object.nesting (member.nesting + 1) else object.nesting)
        (nestingAll arguments + 1) + enclosure head

def nestingAll : List Expr → Nat
  | [] => 0
  | value :: others => max value.nesting (nestingAll others)

end

mutual

def complaints : Expr → List Problem
  | .atom _ => []
  | .unary head operand =>
      operand.complaints ++
        if stepIds.contains head.id && !operand.isLeftValue then [.badLeftValue] else []
  | .binary head left right =>
      left.complaints ++
        (if assignmentIds.contains head.id && !left.isLeftValue then [.badLeftValue] else []) ++
          right.complaints
  | .ternary _ condition thenValue elseValue =>
      condition.complaints ++ thenValue.complaints ++ elseValue.complaints
  | .call _ callee arguments =>
      callee.complaints ++ complaintsAll arguments ++
        if callee.isCallable then [] else [.expectedVariableName]
  | .methodCall _ object member arguments =>
      object.complaints ++ member.complaints ++ complaintsAll arguments

def complaintsAll : List Expr → List Problem
  | [] => []
  | value :: others => value.complaints ++ complaintsAll others

end

end Expr

/-! What is printed is a spelling. -/

def Head.bare (head : Head) : Head := { head with parenthesized := false }

theorem Head.bare_of_plain {head : Head} (plain : head.parenthesized = false) :
    head.bare = head := by
  simp only [bare, ← plain]

theorem Head.enclose_bare {head : Head} (marked : head.parenthesized = true) :
    { head.bare with parenthesized := true } = head := by
  simp only [bare, ← marked]

namespace Expr

def bare : Expr → Expr
  | .atom leaf => .atom { leaf with head := leaf.head.bare }
  | .unary head operand => .unary head.bare operand
  | .binary head left right => .binary head.bare left right
  | .ternary head condition thenValue elseValue =>
      .ternary head.bare condition thenValue elseValue
  | .call head callee arguments => .call head.bare callee arguments
  | .methodCall head object member arguments => .methodCall head.bare object member arguments

theorem bare_of_plain {value : Expr} (plain : value.head.parenthesized = false) :
    value.bare = value := by
  cases value with
  | atom leaf => exact congrArg (fun head => atom ⟨leaf.kind, head⟩) (Head.bare_of_plain plain)
  | unary _ operand => exact congrArg (unary · operand) (Head.bare_of_plain plain)
  | binary _ left right => exact congrArg (binary · left right) (Head.bare_of_plain plain)
  | ternary _ condition thenValue elseValue =>
      exact congrArg (ternary · condition thenValue elseValue) (Head.bare_of_plain plain)
  | call _ callee arguments => exact congrArg (call · callee arguments) (Head.bare_of_plain plain)
  | methodCall _ object member arguments =>
      exact congrArg (methodCall · object member arguments) (Head.bare_of_plain plain)

theorem parenthesize_bare {value : Expr} (marked : value.head.parenthesized = true) :
    value.bare.parenthesize = value := by
  cases value with
  | atom leaf => exact congrArg (fun head => atom ⟨leaf.kind, head⟩) (Head.enclose_bare marked)
  | unary _ operand => exact congrArg (unary · operand) (Head.enclose_bare marked)
  | binary _ left right => exact congrArg (binary · left right) (Head.enclose_bare marked)
  | ternary _ condition thenValue elseValue =>
      exact congrArg (ternary · condition thenValue elseValue) (Head.enclose_bare marked)
  | call _ callee arguments => exact congrArg (call · callee arguments) (Head.enclose_bare marked)
  | methodCall _ object member arguments =>
      exact congrArg (methodCall · object member arguments) (Head.enclose_bare marked)

end Expr

theorem Spelled.succ {room : Nat} {phrase : Phrase} {words : List Word}
    (spelled : Spelled room phrase words) : Spelled (room + 1) phrase words := by
  induction spelled with
  | atom spelled => exact .atom spelled
  | group _ ih => exact .group ih
  | unary spells acts _ ih => exact .unary spells acts ih
  | step spells acts _ ih => exact .step spells acts ih
  | binary spells acts between _ _ firstIH secondIH =>
      exact .binary spells acts between firstIH secondIH
  | ternary spells _ _ _ firstIH secondIH thirdIH =>
      exact .ternary spells firstIH secondIH thirdIH
  | member spells plain _ ih => exact .member spells plain ih
  | index spells _ _ leftIH insideIH => exact .index spells leftIH insideIH
  | call spells _ _ leftIH insideIH => exact .call spells leftIH insideIH
  | methodCall spells accesses _ _ leftIH insideIH =>
      exact .methodCall spells accesses leftIH insideIH
  | none => exact .none
  | one _ ih => exact .one ih
  | more _ _ beforeIH lastIH => exact .more beforeIH lastIH

theorem Spelled.mono {room more : Nat} {phrase : Phrase} {words : List Word}
    (spelled : Spelled room phrase words) (least : room ≤ more) : Spelled more phrase words := by
  induction least with
  | refl => exact spelled
  | step _ ih => exact ih.succ

theorem Spelled.exists_succ {room : Nat} {value : Expr} {words : List Word}
    (spelled : Spelled room (.value value) words) : ∃ fewer, room = fewer + 1 := by
  have positive {phrase : Phrase} (spelled : Spelled room phrase words)
      (single : phrase = .value value) : ∃ fewer, room = fewer + 1 := by
    cases spelled with
    | none | one | more => cases single
    | _ => exact ⟨_, rfl⟩
  exact positive spelled rfl

theorem Spelled.enclosed {room : Nat} {value : Expr} {words : List Word}
    (spelled : Spelled room (.value value.bare) words) :
    Spelled (room + Expr.enclosure value.head) (.value value) (Expr.enclose value.head words) := by
  cases marked : value.head.parenthesized with
  | false =>
      rw [Expr.bare_of_plain marked] at spelled
      simpa [Expr.enclosure, Expr.enclose, marked] using spelled
  | true =>
      have grouped := spelled.group
      rw [Expr.parenthesize_bare marked] at grouped
      simpa [Expr.enclosure, Expr.enclose, marked] using grouped

theorem Atom.word_spelled {leaf : Atom} (formed : leaf.wellFormed = true) :
    Atom.Spelled { leaf with head := leaf.head.bare } leaf.word := by
  obtain ⟨kind, head⟩ := leaf
  cases kind with
  | name =>
      simp only [wellFormed, Bool.and_eq_true, beq_iff_eq] at formed
      have free : (Word.name head.text).isFree = true := by
        simp [Word.isFree, Word.name, Option.isNone_iff_eq_none.mp formed.2]
      refine .name ⟨?_, rfl⟩
      simp only [Head.bare, Word.id_name, free, if_true, formed.1.1]
  | literal =>
      simp only [wellFormed, Bool.or_eq_true, Bool.and_eq_true, Head.isMark, beq_iff_eq] at formed
      rcases formed with ⟨id, text⟩ | ⟨id, text⟩
      · have word : Atom.word ⟨.literal, head⟩ = Word.name "NULL" := by
          simp [Atom.word, id, text]
        rw [word]
        exact .constant ⟨id, text, rfl⟩
      · have word : Atom.word ⟨.literal, head⟩ =
            ⟨if isStringText head.text then .string else .integer, head.text⟩ := by
          simp [Atom.word, id]
        rw [word]
        cases string : isStringText head.text with
        | true => exact @Spelled.literal head.bare .string id rfl (.inr rfl) string
        | false =>
            rw [string] at text
            exact @Spelled.literal head.bare .integer id rfl (.inl rfl) (text.resolve_right (by simp))
  | thisObject =>
      simp only [wellFormed, Bool.and_eq_true, Head.isMark, beq_iff_eq] at formed
      have word : Atom.word ⟨.thisObject, head⟩ = Word.name "this" := by
        simp [Atom.word, formed.2]
      rw [word]
      exact .thisObject ⟨formed.1, formed.2, rfl⟩
  | superObject =>
      simp only [wellFormed, Bool.and_eq_true, Head.isMark, beq_iff_eq] at formed
      have word : Atom.word ⟨.superObject, head⟩ = Word.name "super" := by
        simp [Atom.word, formed.2]
      rw [word]
      exact .superObject ⟨formed.1, formed.2, rfl⟩
  | invalid => simp [wellFormed] at formed

namespace Expr

theorem property_words {value : Expr} (property : value.isProperty = true) :
    ∃ head, value = .atom ⟨.literal, head⟩ ∧ head.Names ∧
      value.words = [Word.name head.text] := by
  cases value with
  | atom leaf =>
      obtain ⟨kind, head⟩ := leaf
      cases kind with
      | literal =>
          simp only [isProperty, Bool.and_eq_true, beq_iff_eq, Bool.not_eq_true'] at property
          obtain ⟨⟨id, plain⟩, text⟩ := property
          have other : head.id ≠ "(literal)" := by
            intro literal
            rw [id] at literal
            rw [Word.id_name] at literal
            split at literal
            · simp at literal
            · rw [literal] at text
              revert text
              decide
          exact ⟨head, rfl, ⟨id, plain⟩, by simp [words, enclose, plain, Atom.word, other, name]⟩
      | _ => simp [isProperty] at property
  | _ => simp [isProperty] at property

theorem stepIds_step {id : String} (step : stepIds.contains id = true) :
    (Grammar.standard.denotations id).operator? = some .step := by
  have all : ∀ id ∈ stepIds, (Grammar.standard.denotations id).operator? = some .step := by
    decide
  exact all id (by simpa using step)

theorem unaryIds_unary {id : String} (unary : ["-", "!", "~"].contains id = true) :
    (Grammar.standard.denotations id).operand? = some .unaryOperator := by
  have all : ∀ id ∈ ["-", "!", "~"],
      (Grammar.standard.denotations id).operand? = some .unaryOperator := by decide
  exact all id (by simpa using unary)

theorem operator?_member (id : String) :
    (Grammar.standard.denotations id).operator? = some .member → id = "." :=
  @Grammar.denotations_induction Grammar.standard
    (fun id denotations => denotations.operator? = some .member → id = ".") (fun _ => by simp)
    (by decide) id

theorem operator?_index (id : String) :
    (Grammar.standard.denotations id).operator? = some .index → id = "[" :=
  @Grammar.denotations_induction Grammar.standard
    (fun id denotations => denotations.operator? = some .index → id = "[") (fun _ => by simp)
    (by decide) id

theorem exists_room (left right : Nat) :
    ∃ room, max left (right + 1) = room + 1 ∧ left ≤ room + 1 ∧ right ≤ room :=
  ⟨max left (right + 1) - 1, by omega, by omega, by omega⟩

theorem operator_spelled {head : Head} {left right : Expr} {form : OperatorForm}
    (text : head.text = head.id)
    (acts : (Grammar.standard.denotations head.id).operator? = some form)
    (between : form.isInfix = true) (first : Spelled left.nesting (.value left) left.words)
    (second : Spelled right.nesting (.value right) right.words) :
    Spelled (nesting (.binary head left right)) (.value (.binary head left right))
      (words (.binary head left right)) := by
  have member : head.id ≠ "." := by
    intro same
    have dot : (Grammar.standard.denotations ".").operator? = some .member := by decide
    rw [same, dot, Option.some.injEq] at acts
    simp [← acts, OperatorForm.isInfix] at between
  have index : head.id ≠ "[" := by
    intro same
    have bracket : (Grammar.standard.denotations "[").operator? = some .index := by decide
    rw [same, bracket, Option.some.injEq] at acts
    simp [← acts, OperatorForm.isInfix] at between
  obtain ⟨room, enough, leftEnough, rightEnough⟩ := exists_room left.nesting right.nesting
  rw [← text] at acts
  simp only [nesting, words, member, index, if_false, enough]
  exact @Spelled.enclosed _ (.binary head left right) _
    (.binary ⟨text.symm, rfl, rfl⟩ acts between (first.mono leftEnough) (second.mono rightEnough))

theorem member_spelled {head : Head} {object property : Expr} (text : head.text = head.id)
    (acts : (Grammar.standard.denotations head.id).operator? = some .member)
    (isProperty : property.isProperty = true)
    (left : Spelled object.nesting (.value object) object.words) :
    Spelled (nesting (.binary head object property)) (.value (.binary head object property))
      (words (.binary head object property)) := by
  obtain ⟨name, same, names, printed⟩ := property_words isProperty
  have id := operator?_member _ acts
  obtain ⟨room, nested⟩ := left.exists_succ
  rw [nested] at left
  simp only [nesting, words, id, text, nested, if_true, printed]
  subst same
  exact @Spelled.enclosed _ (.binary head object (.atom ⟨.literal, name⟩)) _
    (.member ⟨id, text.trans id, rfl⟩ names left)

theorem index_spelled {head : Head} {object index : Expr} (text : head.text = head.id)
    (acts : (Grammar.standard.denotations head.id).operator? = some .index)
    (left : Spelled object.nesting (.value object) object.words)
    (inside : Spelled index.nesting (.value index) index.words) :
    Spelled (nesting (.binary head object index)) (.value (.binary head object index))
      (words (.binary head object index)) := by
  have id := operator?_index _ acts
  obtain ⟨room, enough, leftEnough, rightEnough⟩ := exists_room object.nesting index.nesting
  simp only [nesting, words, id, enough, if_true]
  exact @Spelled.enclosed _ (.binary head object index) _
    (.index ⟨id, text.trans id, rfl⟩ (left.mono leftEnough) (inside.mono rightEnough))

/-- The call of a member or an element is spelled as the access is, with the values after it. -/
theorem methodCall_spelled {room : Nat} {head : Head} {object member : Expr}
    {arguments : List Expr} {others : List Word} (id : head.id = "(") (text : head.text = "(")
    (property : member.wellFormed = false → member.isProperty = true)
    (objectEnough : object.nesting ≤ room + 1)
    (memberEnough : member.wellFormed = true → member.nesting ≤ room)
    (left : Spelled object.nesting (.value object) object.words)
    (inside : member.wellFormed = true → Spelled member.nesting (.value member) member.words)
    (values : Spelled room (.values arguments) others) :
    Spelled (room + 1) (.value (.methodCall head.bare object member arguments))
      ((object.words ++
        if member.wellFormed then brackets "[" "]" member.words else mark "." :: member.words) ++
        brackets "(" ")" others) := by
  cases formed : member.wellFormed with
  | false =>
      obtain ⟨name, rfl, names, printed⟩ := property_words (property formed)
      have access : Head.Spells { id := ".", text := ".", span := {} } "." := ⟨rfl, rfl, rfl⟩
      simp only [Bool.false_eq_true, if_false, printed]
      exact .methodCall ⟨id, text, rfl⟩ (.inl access)
        (.member access names (left.mono objectEnough)) values
  | true =>
      have access : Head.Spells { id := "[", text := "[", span := {} } "[" := ⟨rfl, rfl, rfl⟩
      simp only [if_true]
      exact .methodCall ⟨id, text, rfl⟩ (.inr access)
        (.index access (left.mono objectEnough) ((inside formed).mono (memberEnough formed)))
        values

mutual

theorem words_spelled : (value : Expr) → value.wellFormed = true →
    Spelled value.nesting (.value value) value.words
  | .atom leaf, formed => by
      simp only [wellFormed] at formed
      rw [nesting, words]
      exact @Spelled.enclosed 1 (.atom leaf) _ (.atom (Atom.word_spelled formed))
  | .unary head operand, formed => by
      simp only [wellFormed, Bool.and_eq_true, beq_iff_eq] at formed
      obtain ⟨⟨text, operandFormed⟩, position⟩ := formed
      have inside := words_spelled operand operandFormed
      have spells : head.bare.Spells head.text := ⟨text.symm, rfl, rfl⟩
      cases step : stepIds.contains head.id with
      | true =>
          obtain ⟨room, nested⟩ := inside.exists_succ
          have acts := stepIds_step step
          rw [← text] at acts
          rw [nested] at inside
          simp only [nesting, words, step, if_true, nested]
          exact @Spelled.enclosed _ (.unary head operand) _ (.step spells acts inside)
      | false =>
          simp only [step, Bool.false_eq_true, if_false, Bool.and_eq_true] at position
          have acts := unaryIds_unary position.1
          rw [← text] at acts
          simp only [nesting, words, step, Bool.false_eq_true, if_false]
          exact @Spelled.enclosed _ (.unary head operand) _ (.unary spells acts inside)
  | .binary head left right, formed => by
      simp only [wellFormed, Bool.and_eq_true, beq_iff_eq] at formed
      obtain ⟨⟨text, leftFormed⟩, position⟩ := formed
      have first := words_spelled left leftFormed
      cases acts : (Grammar.standard.denotations head.id).operator? with
      | none => simp [acts] at position
      | some form =>
          cases form with
          | leftAssociative =>
              simp only [acts, Bool.and_eq_true] at position
              exact operator_spelled text acts rfl first (words_spelled right position.2)
          | rightAssociative =>
              simp only [acts, Bool.and_eq_true] at position
              exact operator_spelled text acts rfl first (words_spelled right position.2)
          | assignment =>
              simp only [acts, Bool.and_eq_true] at position
              exact operator_spelled text acts rfl first (words_spelled right position.2)
          | member =>
              simp only [acts, Bool.and_eq_true] at position
              exact member_spelled text acts position.2 first
          | index =>
              simp only [acts, Bool.and_eq_true] at position
              exact index_spelled text acts first (words_spelled right position.2)
          | step | ternary | call => simp [acts] at position
  | .ternary head condition thenValue elseValue, formed => by
      simp only [wellFormed, Head.isMark, Bool.and_eq_true, beq_iff_eq] at formed
      obtain ⟨⟨⟨⟨⟨id, text⟩, conditionFormed⟩, _⟩, thenFormed⟩, elseFormed⟩ := formed
      have first := words_spelled condition conditionFormed
      have second := words_spelled thenValue thenFormed
      have third := words_spelled elseValue elseFormed
      obtain ⟨room, enough, leftEnough, rightEnough⟩ :=
        exists_room condition.nesting (max thenValue.nesting elseValue.nesting)
      simp only [nesting, words, enough]
      exact @Spelled.enclosed _ (.ternary head condition thenValue elseValue) _
        (.ternary ⟨id, text, rfl⟩ (first.mono leftEnough) (second.mono (by omega))
          (third.mono (by omega)))
  | .call head callee arguments, formed => by
      simp only [wellFormed, Head.isMark, Bool.and_eq_true, beq_iff_eq] at formed
      obtain ⟨⟨⟨⟨⟨id, text⟩, calleeFormed⟩, _⟩, _⟩, argumentsFormed⟩ := formed
      have left := words_spelled callee calleeFormed
      have inside := wordsAll_spelled arguments argumentsFormed
      obtain ⟨room, enough, leftEnough, rightEnough⟩ :=
        exists_room callee.nesting (nestingAll arguments)
      simp only [nesting, words, enough]
      exact @Spelled.enclosed _ (.call head callee arguments) _
        (.call ⟨id, text, rfl⟩ (left.mono leftEnough) (inside.mono rightEnough))
  | .methodCall head object member arguments, formed => by
      simp only [wellFormed, Head.isMark, Bool.and_eq_true, Bool.or_eq_true, beq_iff_eq] at formed
      obtain ⟨⟨⟨⟨⟨id, text⟩, objectFormed⟩, _⟩, memberFormed⟩, argumentsFormed⟩ := formed
      have left := words_spelled object objectFormed
      have inside (formed : member.wellFormed = true) := words_spelled member formed
      have property (other : member.wellFormed = false) : member.isProperty = true :=
        memberFormed.resolve_right (by simp [other])
      have values := wordsAll_spelled arguments argumentsFormed
      obtain ⟨room, enough, leftEnough, rightEnough⟩ := exists_room
        (if member.wellFormed then max object.nesting (member.nesting + 1) else object.nesting)
        (nestingAll arguments)
      have bounds : object.nesting ≤ room + 1 ∧
          (member.wellFormed = true → member.nesting ≤ room) := by
        cases formed : member.wellFormed with
        | false => exact ⟨by simpa [formed] using leftEnough, by simp⟩
        | true =>
            simp only [formed, if_true] at leftEnough
            exact ⟨by omega, fun _ => by omega⟩
      simp only [nesting, words, enough]
      exact @Spelled.enclosed _ (.methodCall head object member arguments) _
        (methodCall_spelled id text property bounds.1 bounds.2 left inside
          (values.mono rightEnough))

theorem wordsAll_spelled : (values : List Expr) → wellFormedAll values = true →
    Spelled (nestingAll values) (.values values) (wordsAll values)
  | [], _ => .none
  | value :: others, formed => by
      simp only [wellFormedAll, Bool.and_eq_true] at formed
      have first := words_spelled value formed.1
      rw [nestingAll, wordsAll]
      exact wordsMore_spelled others formed.2 (Nat.le_max_right _ _)
        (.one (first.mono (Nat.le_max_left _ _)))

theorem wordsMore_spelled {first : Expr} {before : List Expr} {words : List Word} {room : Nat} :
    (values : List Expr) → wellFormedAll values = true → nestingAll values ≤ room →
      Spelled room (.values (first :: before)) words →
        Spelled room (.values (first :: before ++ values)) (words ++ wordsMore values)
  | [], _, _, spelled => by simpa [wordsMore] using spelled
  | value :: others, formed, enough, spelled => by
      simp only [wellFormedAll, Bool.and_eq_true] at formed
      simp only [nestingAll] at enough
      have next := (words_spelled value formed.1).mono (Nat.le_trans (Nat.le_max_left _ _) enough)
      have rest := wordsMore_spelled others formed.2
        (Nat.le_trans (Nat.le_max_right _ _) enough) (spelled.more next)
      simpa [wordsMore] using rest

end

end Expr

end Adventure
