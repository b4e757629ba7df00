import Adventure.Tree

/-!
Grammars as data. A grammar is a table of symbols; a symbol says how strongly it binds what stands
left of it, and what it does in each of the three places where a token can be met: as the start of
an operand, after a complete left operand, and as the start of a statement.
-/

namespace Adventure

/-- What a symbol does at the start of an operand. -/
inductive OperandForm
  | itself
  | undefinedName
  | literal
  | constant
  | thisObject
  | superObject
  | unaryOperator
  | group
deriving DecidableEq, Inhabited

/-- What a symbol does after a left operand. -/
inductive OperatorForm
  | leftAssociative
  | rightAssociative
  | assignment
  | step
  | ternary
  | member
  | index
  | call
deriving DecidableEq, Inhabited

/-- What a symbol does at the start of a statement. -/
inductive StatementForm
  | block
  | verb
  | classDefinition
  | returning
  | guarded
  | doWhile
  | ifElse
  | forLoop
  | caseLabel
  | bare
  | declaration (valueType : ValueType)
deriving DecidableEq, Inhabited

namespace Power

/-! Binding powers. A larger number binds tighter. -/

def none : Nat := 0
def assignment : Nat := 10
def ternary : Nat := 20
def logical : Nat := 30
def bitwiseOr : Nat := 35
def bitwiseXor : Nat := 36
def bitwiseAnd : Nat := 37
def relational : Nat := 40
def shift : Nat := 45
def additive : Nat := 50
def multiplicative : Nat := 60
def unary : Nat := 70
def member : Nat := 80

/-- The power a right-associative operator reads its right side at. -/
def weaker (power : Nat) : Nat := power - 1

end Power

structure Denotations where
  power : Nat := 0
  operand? : Option OperandForm := none
  operator? : Option OperatorForm := none
  statement? : Option StatementForm := none
deriving DecidableEq, Inhabited

namespace Denotations

def identifier : Denotations := { operand? := some .itself }

def describe (denotations : Denotations) : String :=
  "Denotations \x7b lbp: " ++ toString denotations.power ++
    ", nud: " ++ toString denotations.operand?.isSome ++
    ", led: " ++ toString denotations.operator?.isSome ++
    ", std: " ++ toString denotations.statement?.isSome ++ " \x7d"

end Denotations

structure Symbol where
  id : String
  denotations : Denotations := {}
deriving DecidableEq, Inhabited

/-- A table of symbols, at most one for each id, and the symbol that stands for names nothing
defines. -/
structure Grammar where
  symbols : List Symbol
  undefined : Symbol

namespace Grammar

def undefinedName : Symbol :=
  { id := "(name)", denotations := { operand? := some .undefinedName } }

def empty : Grammar := ⟨[undefinedName], undefinedName⟩

def get? (grammar : Grammar) (id : String) : Option Symbol :=
  grammar.symbols.find? (·.id == id)

def size (grammar : Grammar) : Nat := grammar.symbols.length

def isEmpty (grammar : Grammar) : Bool := grammar.symbols.isEmpty

/-- The symbols with the denotations of `id` changed; a symbol that is not there is entered first. -/
def withDenotations (id : String) (change : Denotations → Denotations) : List Symbol → List Symbol
  | [] => [⟨id, change {}⟩]
  | known :: others =>
      if known.id = id then ⟨id, change known.denotations⟩ :: others
      else known :: withDenotations id change others

def update (grammar : Grammar) (id : String) (change : Denotations → Denotations) : Grammar :=
  { grammar with symbols := withDenotations id change grammar.symbols }

theorem find?_withDenotations (id : String) (change : Denotations → Denotations)
    (known : List Symbol) (other : String) :
    (withDenotations id change known).find? (·.id == other) =
      if id = other then
        some ⟨id, change (((known.find? (·.id == id)).map (·.denotations)).getD {})⟩
      else known.find? (·.id == other) := by
  induction known with
  | nil => simp [withDenotations, List.find?_singleton]
  | cons first others ih =>
      by_cases same : first.id = id <;> by_cases wanted : id = other <;>
        simp_all [withDenotations, List.find?_cons]

@[simp] theorem get?_update (grammar : Grammar) (id other : String)
    (change : Denotations → Denotations) :
    (grammar.update id change).get? other =
      if id = other then some ⟨id, change (((grammar.get? id).map (·.denotations)).getD {})⟩
      else grammar.get? other :=
  find?_withDenotations id change grammar.symbols other

/-- An entry of the table. Each one raises the symbol's power to the entry's, never lowers it, and
all but the first set one of its forms. -/
inductive Entry
  | symbol (id : String) (power : Nat)
  | operator (id : String) (power : Nat) (form : OperatorForm)
  | operand (id : String) (form : OperandForm)
  | assignment (id : String)
  | constant (id : String)
  | statement (id : String) (form : StatementForm)
deriving DecidableEq, Inhabited

namespace Entry

def id : Entry → String
  | .symbol id _ => id
  | .operator id _ _ => id
  | .operand id _ => id
  | .assignment id => id
  | .constant id => id
  | .statement id _ => id

def change : Entry → Denotations → Denotations
  | .symbol _ power, known => { known with power := max known.power power }
  | .operator _ power form, known =>
      { known with power := max known.power power, operator? := some form }
  | .operand _ form, known => { known with operand? := some form }
  | .assignment _, known =>
      { known with power := max known.power Power.assignment, operator? := some .assignment }
  | .constant _, known => { known with operand? := some .constant }
  | .statement _ form, known => { known with statement? := some form }

end Entry

def add (grammar : Grammar) (entry : Entry) : Grammar := grammar.update entry.id entry.change

def ofEntries (entries : List Entry) : Grammar := entries.foldl add empty

end Grammar

end Adventure
