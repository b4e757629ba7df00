import Adventure.Diagnostic
import Adventure.Terminal

/-!
Scopes. A scope binds names to definitions and has a parent, up to the root; a tree of scopes keeps
every scope that a document opens. Bindings are replaced and never removed.
-/

namespace Adventure

/-- A name bound in a scope, by a declaration or because a keyword took it. -/
structure Definition where
  id : String
  name : String
  span : Span
  arity : Arity
  reserved : Bool := false
  denotations : Denotations := Denotations.identifier
  valueType? : Option ValueType := none
  /-- The scope in which the name is bound. -/
  scope : Nat
deriving DecidableEq, Inhabited

structure Scope where
  definitions : List Definition := []
  parent? : Option Nat := none
deriving DecidableEq, Inhabited

namespace Scope

def get? (scope : Scope) (name : String) : Option Definition :=
  scope.definitions.find? (·.name == name)

def declares (scope : Scope) (name : String) : Bool :=
  (scope.get? name).any (!·.reserved)

/-- The definitions with one more, which takes the place of an earlier one of its name. -/
def withDefinition (definition : Definition) : List Definition → List Definition
  | [] => [definition]
  | known :: others =>
      if known.name = definition.name then definition :: others
      else known :: withDefinition definition others

def insert (scope : Scope) (definition : Definition) : Scope :=
  { scope with definitions := withDefinition definition scope.definitions }

theorem find?_withDefinition (definition : Definition) (known : List Definition) (name : String) :
    (withDefinition definition known).find? (·.name == name) =
      if definition.name = name then some definition else known.find? (·.name == name) := by
  induction known with
  | nil => simp [withDefinition, List.find?_singleton]
  | cons first others ih =>
      by_cases same : first.name = definition.name <;> by_cases wanted : definition.name = name <;>
        simp_all [withDefinition, List.find?_cons]

@[simp] theorem get?_insert (scope : Scope) (definition : Definition) (name : String) :
    (scope.insert definition).get? name =
      if definition.name = name then some definition else scope.get? name :=
  find?_withDefinition definition scope.definitions name

end Scope

inductive Lookup
  | defined (definition : Definition)
  | grammar (symbol : Symbol)
  | undefined (symbol : Symbol)
deriving DecidableEq

namespace Lookup

def isUndefined : Lookup → Bool
  | .undefined _ => true
  | _ => false

def terminal (lookup : Lookup) (token : Token) : Terminal :=
  match lookup with
  | .defined definition =>
      { Terminal.ofSymbol ⟨definition.id, definition.denotations⟩ token with
        reserved := definition.reserved }
  | .grammar symbol | .undefined symbol => Terminal.ofSymbol symbol token

end Lookup

/-- All scopes of a document, numbered in the order of opening, the root first. -/
structure ScopeTree where
  scopes : Array Scope := #[{}]
  pushes : Nat := 0
  pops : Nat := 0
deriving DecidableEq

inductive ScopeError
  | rootPopped
deriving DecidableEq

def ScopeError.message : ScopeError → String
  | .rootPopped => "the root scope is never popped"

namespace ScopeTree

def size (tree : ScopeTree) : Nat := tree.scopes.size

def isEmpty (tree : ScopeTree) : Bool := tree.scopes.isEmpty

def get? (tree : ScopeTree) (scope : Nat) : Option Scope := tree.scopes[scope]?

def root (tree : ScopeTree) : Scope := (tree.get? 0).getD {}

def push (tree : ScopeTree) (parent : Nat) : ScopeTree :=
  { tree with scopes := tree.scopes.push { parent? := some parent }, pushes := tree.pushes + 1 }

def parentOf (tree : ScopeTree) (scope : Nat) : Nat :=
  ((tree.get? scope).bind (·.parent?)).getD 0

/-- Closes a scope, which keeps its bindings. -/
def pop (tree : ScopeTree) (scope : Nat) : Except ScopeError ScopeTree :=
  if scope = 0 then .error .rootPopped else .ok { tree with pops := tree.pops + 1 }

def modify (tree : ScopeTree) (scope : Nat) (change : Scope → Scope) : ScopeTree :=
  { tree with scopes := tree.scopes.modify scope change }

@[simp] theorem get?_push (tree : ScopeTree) (parent other : Nat) :
    (tree.push parent).get? other =
      if other = tree.size then some { parent? := some parent } else tree.get? other := by
  unfold get? push
  rw [Array.getElem?_push]
  rfl

@[simp] theorem get?_modify (tree : ScopeTree) (scope other : Nat) (change : Scope → Scope) :
    (tree.modify scope change).get? other =
      if scope = other then (tree.get? other).map change else tree.get? other := by
  simp [get?, modify, Array.getElem?_modify]

/-- Binds a definition. A name that was bound already is reported where it was bound before. -/
def define (tree : ScopeTree) (scope : Nat) (definition : Definition) :
    ScopeTree × Option Diagnostic :=
  match tree.get? scope with
  | none => (tree, none)
  | some target =>
      (tree.modify scope (·.insert definition),
        (target.get? definition.name).map fun previous =>
          if previous.reserved then ⟨.alreadyReserved, previous.span, .error⟩
          else ⟨.alreadyDefined, previous.span, .warning⟩)

def reservation (scope : Nat) (terminal : Terminal) : Definition :=
  { id := terminal.id
    name := terminal.text
    span := terminal.span
    arity := .name
    reserved := true
    denotations := terminal.denotations
    scope }

/-- Takes a keyword's text as a name. Only names that nothing has taken yet are; over a declared
name that is neither a function nor a class it is reported at the keyword. -/
def reserve (tree : ScopeTree) (scope : Nat) (terminal : Terminal) :
    ScopeTree × Option Diagnostic :=
  if !terminal.isName || terminal.reserved then (tree, none)
  else
    match tree.get? scope with
    | none => (tree, none)
    | some target =>
        let reserved := tree.modify scope (·.insert (reservation scope terminal))
        match target.get? terminal.text with
        | none => (reserved, none)
        | some previous =>
            if previous.reserved then (tree, none)
            else if previous.arity = .name then
              (reserved, some ⟨.alreadyDefined, terminal.span, .warning⟩)
            else (reserved, none)

def findWithin (tree : ScopeTree) (name : String) : Nat → Nat → Option Definition
  | 0, _ => none
  | count + 1, scope => do
      let here ← tree.get? scope
      match here.get? name with
      | some definition => some definition
      | none => findWithin tree name count (← here.parent?)

/-- The nearest binding of `name` from `scope` outwards, else the grammar's symbol for it. A scope's
parent was opened before it, so no way outwards is longer than the tree is large. -/
def find (tree : ScopeTree) (scope : Nat) (name : String) (grammar : Grammar) : Lookup :=
  match tree.findWithin name tree.size scope with
  | some definition => .defined definition
  | none =>
      match grammar.get? name with
      | some symbol => .grammar symbol
      | none => .undefined grammar.undefined

end ScopeTree

end Adventure
