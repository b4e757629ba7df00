import Adventure.Grammar.Standard
import Adventure.Proofs.Lexing

/-!
The concrete syntax of the language: which words an expression or a statement can be written with.
A tree says which of its expressions stand between parentheses, but not how many pairs of them. The
number that goes with a spelling is the room it takes, as for the readers.
-/

namespace Adventure

namespace Grammar

def denotations (grammar : Grammar) (id : String) : Denotations :=
  ((grammar.get? id).map (·.denotations)).getD {}

theorem get?_denotations {grammar : Grammar} {id : String} {symbol : Symbol}
    (known : grammar.get? id = some symbol) :
    symbol ∈ grammar.symbols ∧ symbol = ⟨id, grammar.denotations id⟩ := by
  have same : symbol.id = id := by simpa using List.find?_some known
  refine ⟨List.mem_of_find?_eq_some known, ?_⟩
  subst same
  simp [denotations, known]

theorem denotations_induction {grammar : Grammar} {property : String → Denotations → Prop}
    (idle : ∀ id, property id {})
    (known : ∀ symbol ∈ grammar.symbols, property symbol.id symbol.denotations) (id : String) :
    property id (grammar.denotations id) := by
  cases found : grammar.get? id with
  | none => simpa [denotations, found] using idle id
  | some symbol =>
      obtain ⟨member, same⟩ := get?_denotations found
      have holds := known symbol member
      rw [same] at holds
      exact holds

end Grammar

namespace Word

def isFree (word : Word) : Bool :=
  word.kind == .name && (Grammar.standard.get? word.text).isNone

def id (word : Word) : String :=
  match word.kind with
  | .integer | .string => "(literal)"
  | _ => if word.isFree then "(name)" else word.text

def denotations (word : Word) : Denotations :=
  match word.kind with
  | .integer | .string => Grammar.standard.denotations "(literal)"
  | _ =>
      if word.isFree then Grammar.undefinedName.denotations
      else Grammar.standard.denotations word.text

def limit (words : List Word) : Nat := (words.head?.map (·.denotations.power)).getD 0

def name (text : String) : Word := ⟨.name, text⟩

def mark (text : String) : Word := ⟨.operator, text⟩

theorem id_name (text : String) :
    (name text).id = if (name text).isFree then "(name)" else text := rfl

theorem denotations_name (text : String) :
    (name text).denotations =
      if (name text).isFree then Grammar.undefinedName.denotations
      else Grammar.standard.denotations text := rfl

@[simp] theorem isFree_mark (text : String) : (mark text).isFree = false := rfl

@[simp] theorem id_mark (text : String) : (mark text).id = text := rfl

@[simp] theorem denotations_mark (text : String) :
    (mark text).denotations = Grammar.standard.denotations text := rfl

def brackets (opening closing : String) (words : List Word) : List Word :=
  mark opening :: (words ++ [mark closing])

end Word

open Word

namespace Head

structure Names (head : Head) : Prop where
  id : head.id = (Word.name head.text).id
  plain : head.parenthesized = false

structure Spells (head : Head) (text : String) : Prop where
  id : head.id = text
  text : head.text = text
  plain : head.parenthesized = false

end Head

inductive Atom.Spelled : Atom → Word → Prop
  | name {head : Head} (names : head.Names) : Spelled ⟨.name, head⟩ (Word.name head.text)
  | literal {head : Head} {kind : TokenKind} (id : head.id = "(literal)")
      (plain : head.parenthesized = false) (literal : kind = .integer ∨ kind = .string)
      (solid : isSolid ⟨kind, head.text⟩ = true) : Spelled ⟨.literal, head⟩ ⟨kind, head.text⟩
  | constant {head : Head} (spells : head.Spells "NULL") :
      Spelled ⟨.literal, head⟩ (Word.name "NULL")
  | thisObject {head : Head} (spells : head.Spells "this") :
      Spelled ⟨.thisObject, head⟩ (Word.name "this")
  | superObject {head : Head} (spells : head.Spells "super") :
      Spelled ⟨.superObject, head⟩ (Word.name "super")

inductive Phrase
  | value (value : Expr)
  | values (values : List Expr)

def OperatorForm.isInfix : OperatorForm → Bool
  | .leftAssociative | .rightAssociative | .assignment => true
  | _ => false

/-- The words an expression is written with. A left operand is read with the room of the whole. -/
inductive Spelled : Nat → Phrase → List Word → Prop
  | atom {room : Nat} {leaf : Atom} {word : Word} (spelled : leaf.Spelled word) :
      Spelled (room + 1) (.value (.atom leaf)) [word]
  | group {room : Nat} {value : Expr} {words : List Word}
      (inside : Spelled room (.value value) words) :
      Spelled (room + 1) (.value value.parenthesize) (brackets "(" ")" words)
  | unary {room : Nat} {head : Head} {text : String} {operand : Expr} {words : List Word}
      (spells : head.Spells text)
      (acts : (Grammar.standard.denotations text).operand? = some .unaryOperator)
      (inside : Spelled room (.value operand) words) :
      Spelled (room + 1) (.value (.unary head operand)) (mark text :: words)
  | step {room : Nat} {head : Head} {text : String} {operand : Expr} {words : List Word}
      (spells : head.Spells text)
      (acts : (Grammar.standard.denotations text).operator? = some .step)
      (left : Spelled (room + 1) (.value operand) words) :
      Spelled (room + 1) (.value (.unary head operand)) (words ++ [mark text])
  | binary {room : Nat} {head : Head} {text : String} {left right : Expr} {form : OperatorForm}
      {words others : List Word} (spells : head.Spells text)
      (acts : (Grammar.standard.denotations text).operator? = some form)
      (between : form.isInfix = true) (first : Spelled (room + 1) (.value left) words)
      (second : Spelled room (.value right) others) :
      Spelled (room + 1) (.value (.binary head left right)) (words ++ mark text :: others)
  | ternary {room : Nat} {head : Head} {condition thenValue elseValue : Expr}
      {words thenWords elseWords : List Word} (spells : head.Spells "?")
      (first : Spelled (room + 1) (.value condition) words)
      (second : Spelled room (.value thenValue) thenWords)
      (third : Spelled room (.value elseValue) elseWords) :
      Spelled (room + 1) (.value (.ternary head condition thenValue elseValue))
        (words ++ mark "?" :: (thenWords ++ mark ":" :: elseWords))
  | member {room : Nat} {head property : Head} {object : Expr} {words : List Word}
      (spells : head.Spells ".") (names : property.Names)
      (left : Spelled (room + 1) (.value object) words) :
      Spelled (room + 1) (.value (.binary head object (.atom ⟨.literal, property⟩)))
        (words ++ [mark ".", Word.name property.text])
  | index {room : Nat} {head : Head} {object index : Expr} {words others : List Word}
      (spells : head.Spells "[") (left : Spelled (room + 1) (.value object) words)
      (inside : Spelled room (.value index) others) :
      Spelled (room + 1) (.value (.binary head object index)) (words ++ brackets "[" "]" others)
  | call {room : Nat} {head : Head} {callee : Expr} {arguments : List Expr}
      {words others : List Word} (spells : head.Spells "(")
      (left : Spelled (room + 1) (.value callee) words)
      (inside : Spelled room (.values arguments) others) :
      Spelled (room + 1) (.value (.call head callee arguments)) (words ++ brackets "(" ")" others)
  | methodCall {room : Nat} {head access : Head} {object member : Expr} {arguments : List Expr}
      {words others : List Word} (spells : head.Spells "(")
      (accesses : access.Spells "." ∨ access.Spells "[")
      (left : Spelled (room + 1) (.value (.binary access object member)) words)
      (inside : Spelled room (.values arguments) others) :
      Spelled (room + 1) (.value (.methodCall head object member arguments))
        (words ++ brackets "(" ")" others)
  | none {room : Nat} : Spelled room (.values []) []
  | one {room : Nat} {value : Expr} {words : List Word} (only : Spelled room (.value value) words) :
      Spelled room (.values [value]) words
  | more {room : Nat} {first value : Expr} {values : List Expr} {words others : List Word}
      (before : Spelled room (.values (first :: values)) words)
      (last : Spelled room (.value value) others) :
      Spelled room (.values (first :: values ++ [value])) (words ++ mark "," :: others)

inductive Separated {α : Type} (item : α → List Word → Prop) : List α → List Word → Prop
  | one {first : α} {words : List Word} (only : item first words) : Separated item [first] words
  | more {items : List α} {next : α} {words others : List Word}
      (before : Separated item items words) (last : item next others) :
      Separated item (items ++ [next]) (words ++ mark "," :: others)

inductive Optional (room : Nat) : Option Expr → List Word → Prop
  | none : Optional room none []
  | some {value : Expr} {words : List Word} (spelled : Spelled room (.value value) words) :
      Optional room (some value) words

inductive ArraySize (room : Nat) : Bool → Option Expr → List Word → Prop
  | none : ArraySize room false none []
  | brackets {size? : Option Expr} {words : List Word} (size : Optional room size? words) :
      ArraySize room true size? (Word.brackets "[" "]" words)

/-- What a variable starts with. A parenthesis after the `=` of an array opens a list. -/
inductive Initial (room : Nat) : Bool → Option Initializer → List Word → Prop
  | none {isArray : Bool} : Initial room isArray none []
  | expression {isArray : Bool} {value : Expr} {words : List Word}
      (spelled : Spelled room (.value value) words)
      (opened : isArray = true → words.head? ≠ some (mark "(")) :
      Initial room isArray (some (.expression value)) (mark "=" :: words)
  | list {values : List Expr} {words : List Word} (spelled : Spelled room (.values values) words) :
      Initial room true (some (.list values)) (mark "=" :: Word.brackets "(" ")" words)

inductive Declarator.Spelled (room : Nat) : Declarator → List Word → Prop
  | mk {head : Head} {isArray : Bool} {size? : Option Expr} {initializer? : Option Initializer}
      {words others : List Word} (names : head.Names)
      (size : ArraySize room isArray size? words)
      (initial : Initial room isArray initializer? others) :
      Spelled room ⟨⟨.name, head⟩, isArray, size?, initializer?⟩
        (Word.name head.text :: (words ++ others))

inductive Parameter.Spelled : Parameter → List Word → Prop
  | mk {valueType : ValueType} {head : Head} (storable : valueType.isStorable = true)
      (names : head.Names) :
      Spelled ⟨some valueType, ⟨.name, head⟩⟩
        [Word.name valueType.keyword, Word.name head.text]

inductive Parameters : List Parameter → List Word → Prop
  | none : Parameters [] []
  | some {parameters : List Parameter} {words : List Word}
      (separated : Separated Parameter.Spelled parameters words) : Parameters parameters words

def Word.closers : List String := [";", ")", "]", "\x7d", ",", ":"]

/-- The second and third operand of a verb, which take any word. One that is neither a name nor a
literal is kept as an invalid node, except that a closing mark is left to what comes after. -/
inductive Atom.Taken : Atom → List Word → Prop
  | name {head : Head} (names : head.Names) : Taken ⟨.name, head⟩ [Word.name head.text]
  | literal {head : Head} {kind : TokenKind} (id : head.id = "(literal)")
      (plain : head.parenthesized = false) (literal : kind = .integer ∨ kind = .string)
      (solid : isSolid ⟨kind, head.text⟩ = true) :
      Taken ⟨.literal, head⟩ [⟨kind, head.text⟩]
  | mark {head : Head} {text : String} (spells : head.Spells text)
      (opens : closers.contains text = false) : Taken ⟨.invalid, head⟩ [Word.mark text]
  | closer {head : Head} {text : String} (spells : head.Spells text)
      (closes : closers.contains text = true) : Taken ⟨.invalid, head⟩ []

inductive Superclass : Option Atom → List Word → Prop
  | none : Superclass none []
  | some {head : Head} (names : head.Names) :
      Superclass (some ⟨.name, head⟩) [mark ":", Word.name head.text]

/-- A piece of a program: a statement, the statements of a block, or what follows an `if`. -/
inductive Part
  | statement (statement : Stmt)
  | body (statements : List Stmt)
  | alternative (statements? : Option (List Stmt))

def Word.braces (words : List Word) : List Word := brackets "\x7b" "\x7d" words

/-- The words a statement is written with. -/
inductive Written : Nat → Part → List Word → Prop
  | expression {room : Nat} {value : Expr} {words : List Word}
      (spelled : Spelled room (.value value) words) :
      Written (room + 1) (.statement (.expression value)) (words ++ [mark ";"])
  | function {room : Nat} {head : Head} {returnType : ValueType} {parameters : List Parameter}
      {body : List Stmt} {words others : List Word} (names : head.Names)
      (signature : Parameters parameters words) (inside : Written room (.body body) others) :
      Written (room + 1) (.statement (.function head returnType parameters body))
        (Word.name returnType.keyword :: Word.name head.text :: (brackets "(" ")" words ++
          braces others))
  | classDefinition {room : Nat} {head : Head} {isAbstract : Bool} {superclass? : Option Atom}
      {body : List Stmt} {words others : List Word} (names : head.Names)
      (superclass : Superclass superclass? words) (inside : Written room (.body body) others) :
      Written (room + 1) (.statement (.classDefinition head isAbstract superclass? body))
        (Word.name "class" :: ((if isAbstract then [Word.name "abstract"] else []) ++
          Word.name head.text :: (words ++ braces others)))
  | verb {room : Nat} {head word : Head} {action flags : Atom} {words others : List Word}
      (spells : head.Spells "verb") (literal : word.id = "(literal)")
      (plain : word.parenthesized = false) (second : action.Taken words) (third : flags.Taken others) :
      Written (room + 1) (.statement (.verb head ⟨.literal, word⟩ action flags))
        (Word.name "verb" :: (brackets "(" ")"
          (⟨.string, word.text⟩ :: mark "," :: (words ++ mark "," :: others)) ++ [mark ";"]))
  | declaration {room : Nat} {head : Head} {valueType : ValueType} {declarators : List Declarator}
      {words : List Word} (spells : head.Spells valueType.keyword)
      (storable : valueType.isStorable = true)
      (separated : Separated (Declarator.Spelled room) declarators words) :
      Written (room + 1) (.statement (.declaration head valueType declarators))
        (Word.name valueType.keyword :: (words ++ [mark ";"]))
  | block {room : Nat} {head : Head} {body : List Stmt} {words : List Word}
      (spells : head.Spells "\x7b") (inside : Written room (.body body) words) :
      Written (room + 1) (.statement (.block head body)) (braces words)
  | returning {room : Nat} {head : Head} {value? : Option Expr} {words : List Word}
      (spells : head.Spells "return") (value : Optional room value? words) :
      Written (room + 1) (.statement (.returning head value?))
        (Word.name "return" :: (words ++ [mark ";"]))
  | guarded {room : Nat} {head : Head} {text : String} {subject : Expr} {body : List Stmt}
      {words others : List Word} (spells : head.Spells text)
      (acts : (Grammar.standard.denotations text).statement? = some .guarded)
      (spelled : Spelled room (.value subject) words) (inside : Written room (.body body) others) :
      Written (room + 1) (.statement (.guarded head subject body))
        (Word.name text :: (brackets "(" ")" words ++ braces others))
  | doWhile {room : Nat} {head : Head} {body : List Stmt} {condition : Expr}
      {words others : List Word} (spells : head.Spells "do")
      (inside : Written room (.body body) words)
      (spelled : Spelled room (.value condition) others) :
      Written (room + 1) (.statement (.doWhile head body condition))
        (Word.name "do" :: (braces words ++ Word.name "while" ::
          (brackets "(" ")" others ++ [mark ";"])))
  | ifElse {room : Nat} {head : Head} {condition : Expr} {thenBody : List Stmt}
      {elseBody? : Option (List Stmt)} {words thenWords elseWords : List Word}
      (spells : head.Spells "if") (spelled : Spelled room (.value condition) words)
      (inside : Written room (.body thenBody) thenWords)
      (other : Written room (.alternative elseBody?) elseWords) :
      Written (room + 1) (.statement (.ifElse head condition thenBody elseBody?))
        (Word.name "if" :: (brackets "(" ")" words ++ (braces thenWords ++ elseWords)))
  | forLoop {room : Nat} {head : Head} {first? condition? step? : Option Expr} {body : List Stmt}
      {firstWords conditionWords stepWords words : List Word} (spells : head.Spells "for")
      (first : Optional room first? firstWords)
      (condition : Optional room condition? conditionWords)
      (step : Optional room step? stepWords) (inside : Written room (.body body) words) :
      Written (room + 1) (.statement (.forLoop head first? condition? step? body))
        (Word.name "for" :: (brackets "(" ")" (firstWords ++ mark ";" ::
          (conditionWords ++ mark ";" :: stepWords)) ++ braces words))
  | caseLabel {room : Nat} {head : Head} {value : Expr} {words : List Word}
      (spells : head.Spells "case") (spelled : Spelled room (.value value) words) :
      Written (room + 1) (.statement (.caseLabel head value))
        (Word.name "case" :: (brackets "(" ")" words ++ [mark ";"]))
  | bare {room : Nat} {head : Head} {text : String} (spells : head.Spells text)
      (acts : (Grammar.standard.denotations text).statement? = some .bare) :
      Written (room + 1) (.statement (.bare head)) [Word.name text, mark ";"]
  | nothing {room : Nat} : Written room (.body []) []
  | another {room : Nat} {statements : List Stmt} {statement : Stmt} {words others : List Word}
      (before : Written room (.body statements) words)
      (last : Written room (.statement statement) others) :
      Written room (.body (statements ++ [statement])) (words ++ others)
  | noElse {room : Nat} : Written room (.alternative none) []
  | elseBlock {room : Nat} {body : List Stmt} {words : List Word}
      (inside : Written room (.body body) words) :
      Written room (.alternative (some body)) (Word.name "else" :: braces words)
  | elseIf {room : Nat} {statement : Stmt} {words : List Word}
      (chained : words.head? = some (Word.name "if"))
      (inside : Written room (.statement statement) words) :
      Written room (.alternative (some [statement])) (Word.name "else" :: words)

end Adventure
