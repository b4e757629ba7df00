import Adventure.Position

/-!
The tree of a document. Expressions and statements are told apart by their types; every node keeps
the grammar symbol it was read from, the text of that symbol's token, and its span.
-/

namespace Adventure

inductive ValueType
  | void
  | int
  | string
  | object
deriving DecidableEq, Inhabited

namespace ValueType

def keyword : ValueType → String
  | .void => "void"
  | .int => "int"
  | .string => "string"
  | .object => "object"

def ofKeyword? (keyword : String) : Option ValueType :=
  if keyword = "void" then some .void
  else if keyword = "int" then some .int
  else if keyword = "string" then some .string
  else if keyword = "object" then some .object
  else none

def isStorable (valueType : ValueType) : Bool := valueType != .void

theorem ofKeyword?_keyword (valueType : ValueType) :
    ofKeyword? valueType.keyword = some valueType := by
  cases valueType <;> rfl

theorem keyword_of_ofKeyword? {keyword : String} {valueType : ValueType}
    (named : ofKeyword? keyword = some valueType) : keyword = valueType.keyword := by
  unfold ofKeyword? at named
  split at named
  · obtain rfl := Option.some.inj named
    assumption
  · split at named
    · obtain rfl := Option.some.inj named
      assumption
    · split at named
      · obtain rfl := Option.some.inj named
        assumption
      · split at named
        · obtain rfl := Option.some.inj named
          assumption
        · cases named

end ValueType

/-- Where a node comes from: its grammar symbol, the token's text and place, and whether the node
was written between parentheses of its own. -/
structure Head where
  id : String
  text : String
  span : Span
  parenthesized : Bool := false
deriving DecidableEq, Inhabited

/-- What a single token stands for. An invalid atom takes the place of something that could not be
read. -/
inductive AtomKind
  | name
  | literal
  | thisObject
  | superObject
  | invalid
deriving DecidableEq, Inhabited

structure Atom where
  kind : AtomKind
  head : Head
deriving DecidableEq, Inhabited

/-- Expressions. A member access is a binary node on `.` whose right side is the property's name,
an index a binary node on `[`; either becomes a method call when its result is called. -/
inductive Expr
  | atom (leaf : Atom)
  | unary (head : Head) (operand : Expr)
  | binary (head : Head) (left right : Expr)
  | ternary (head : Head) (condition thenValue elseValue : Expr)
  | call (head : Head) (callee : Expr) (arguments : List Expr)
  | methodCall (head : Head) (object member : Expr) (arguments : List Expr)
deriving Inhabited

namespace Expr

def head : Expr → Head
  | .atom leaf => leaf.head
  | .unary head _ => head
  | .binary head _ _ => head
  | .ternary head _ _ _ => head
  | .call head _ _ => head
  | .methodCall head _ _ _ => head

def parenthesize : Expr → Expr
  | .atom leaf => .atom { leaf with head := { leaf.head with parenthesized := true } }
  | .unary head operand => .unary { head with parenthesized := true } operand
  | .binary head left right => .binary { head with parenthesized := true } left right
  | .ternary head condition thenValue elseValue =>
      .ternary { head with parenthesized := true } condition thenValue elseValue
  | .call head callee arguments => .call { head with parenthesized := true } callee arguments
  | .methodCall head object member arguments =>
      .methodCall { head with parenthesized := true } object member arguments

def isInvalid : Expr → Bool
  | .atom leaf => leaf.kind == .invalid
  | _ => false

def isName : Expr → Bool
  | .atom leaf => leaf.kind == .name
  | _ => false

def assignmentIds : List String := ["=", "+=", "-=", "*=", "/=", "%="]

def stepIds : List String := ["++", "--"]

def accessIds : List String := [".", "["]

def isAssignment : Expr → Bool
  | .binary head _ _ => assignmentIds.contains head.id
  | .unary head _ => stepIds.contains head.id
  | _ => false

def isCall : Expr → Bool
  | .call .. | .methodCall .. => true
  | _ => false

/-- What can be assigned to: a name, a member or an indexed element. -/
def isLeftValue : Expr → Bool
  | .atom leaf => leaf.kind == .name
  | .binary head _ _ => accessIds.contains head.id
  | _ => false

/-- What a plain call can be made on. -/
def isCallable (callee : Expr) : Bool :=
  callee.isName || callee.isInvalid || callee.head.parenthesized ||
    ["(", "&&", "||", "?"].contains callee.head.id

/-- The call of `callee`: a member or element that is called directly makes a method call. -/
def calling (head : Head) (callee : Expr) (arguments : List Expr) : Expr :=
  match callee with
  | .binary access object member =>
      if accessIds.contains access.id && !access.parenthesized then
        .methodCall head object member arguments
      else .call head callee arguments
  | _ => .call head callee arguments

end Expr

/-- A parameter without a valid type keyword has no type. -/
structure Parameter where
  valueType? : Option ValueType
  name : Atom
deriving DecidableEq, Inhabited

inductive Initializer
  | expression (value : Expr)
  | list (items : List Expr)
deriving Inhabited

/-- One name of a variable declaration. `isArray` is set by brackets, with a size in them or
not. -/
structure Declarator where
  name : Atom
  isArray : Bool := false
  size? : Option Expr := none
  initializer? : Option Initializer := none
deriving Inhabited

inductive Stmt
  | expression (value : Expr)
  | function (head : Head) (returnType : ValueType) (parameters : List Parameter)
      (body : List Stmt)
  | classDefinition (head : Head) (isAbstract : Bool) (superclass? : Option Atom)
      (body : List Stmt)
  | verb (head : Head) (word action flags : Atom)
  | declaration (head : Head) (valueType : ValueType) (declarators : List Declarator)
  | block (head : Head) (body : List Stmt)
  | returning (head : Head) (value? : Option Expr)
  | guarded (head : Head) (subject : Expr) (body : List Stmt)
  | doWhile (head : Head) (body : List Stmt) (condition : Expr)
  | ifElse (head : Head) (condition : Expr) (thenBody : List Stmt)
      (elseBody? : Option (List Stmt))
  | forLoop (head : Head) (first? condition? step? : Option Expr) (body : List Stmt)
  | caseLabel (head : Head) (value : Expr)
  | bare (head : Head)
deriving Inhabited

def Stmt.head : Stmt → Head
  | .expression value => value.head
  | .function head .. => head
  | .classDefinition head .. => head
  | .verb head .. => head
  | .declaration head .. => head
  | .block head _ => head
  | .returning head _ => head
  | .guarded head .. => head
  | .doWhile head .. => head
  | .ifElse head .. => head
  | .forLoop head .. => head
  | .caseLabel head _ => head
  | .bare head => head

end Adventure
