import Adventure.Tree

/-!
One view of all parts of a tree. A node is an expression or a statement; its children are its
parts in source order, and a walk visits a node before its children.
-/

namespace Adventure

inductive Arity
  | name
  | literal
  | unary
  | binary
  | ternary
  | function
  | classDefinition
  | statement
  | verb
  | thisObject
  | superObject
  | invalid
deriving DecidableEq, Inhabited

def Arity.label : Arity → String
  | .name => "name"
  | .literal => "literal"
  | .unary => "unary"
  | .binary => "binary"
  | .ternary => "ternary"
  | .function => "function"
  | .classDefinition => "class"
  | .statement => "statement"
  | .verb => "verb"
  | .thisObject => "this"
  | .superObject => "super"
  | .invalid => "invalid"

def AtomKind.arity : AtomKind → Arity
  | .name => .name
  | .literal => .literal
  | .thisObject => .thisObject
  | .superObject => .superObject
  | .invalid => .invalid

def Expr.arity : Expr → Arity
  | .atom leaf => leaf.kind.arity
  | .unary .. => .unary
  | .binary .. | .call .. => .binary
  | .ternary .. | .methodCall .. => .ternary

def Stmt.arity : Stmt → Arity
  | .expression value => value.arity
  | .function .. => .function
  | .classDefinition .. => .classDefinition
  | .verb .. => .verb
  | _ => .statement

inductive Node
  | expression (value : Expr)
  | statement (value : Stmt)
deriving Inhabited

/-- An expression that stands as a statement is that expression. -/
def Stmt.node : Stmt → Node
  | .expression value => .expression value
  | statement => .statement statement

def Atom.node (atom : Atom) : Node := .expression (.atom atom)

def Expr.children : Expr → List Expr
  | .atom _ => []
  | .unary _ operand => [operand]
  | .binary _ left right => [left, right]
  | .ternary _ condition thenValue elseValue => [condition, thenValue, elseValue]
  | .call _ callee arguments => callee :: arguments
  | .methodCall _ object member arguments => object :: member :: arguments

def Initializer.values : Initializer → List Expr
  | .expression value => [value]
  | .list items => items

def Declarator.nodes (declarator : Declarator) : List Node :=
  declarator.name.node :: (declarator.size?.toList.map .expression ++
    (declarator.initializer?.elim [] Initializer.values).map .expression)

def Stmt.children : Stmt → List Node
  | .expression value => value.children.map .expression
  | .function _ _ parameters body => parameters.map (·.name.node) ++ body.map node
  | .classDefinition _ _ superclass? body => superclass?.toList.map Atom.node ++ body.map node
  | .verb _ word action flags => [word.node, action.node, flags.node]
  | .declaration _ _ declarators => declarators.flatMap Declarator.nodes
  | .block _ body => body.map node
  | .returning _ value? => value?.toList.map .expression
  | .guarded _ subject body => .expression subject :: body.map node
  | .doWhile _ body condition => body.map node ++ [.expression condition]
  | .ifElse _ condition thenBody elseBody? =>
      .expression condition :: (thenBody.map node ++ (elseBody?.getD []).map node)
  | .forLoop _ first? condition? step? body =>
      first?.toList.map .expression ++ condition?.toList.map .expression ++
        step?.toList.map .expression ++ body.map node
  | .caseLabel _ value => [.expression value]
  | .bare _ => []

namespace Node

def head : Node → Head
  | .expression value => value.head
  | .statement value => value.head

def arity : Node → Arity
  | .expression value => value.arity
  | .statement value => value.arity

def children : Node → List Node
  | .expression value => value.children.map .expression
  | .statement value => value.children

def isAssignment : Node → Bool
  | .expression value => value.isAssignment
  | .statement (.expression value) => value.isAssignment
  | .statement _ => false

def isCall : Node → Bool
  | .expression value => value.isCall
  | .statement (.expression value) => value.isCall
  | .statement _ => false

end Node

mutual

/-- The expression and everything below it, each node before its children. -/
def Expr.walk : Expr → List Node
  | .atom leaf => [leaf.node]
  | .unary head operand => .expression (.unary head operand) :: operand.walk
  | .binary head left right => .expression (.binary head left right) :: (left.walk ++ right.walk)
  | .ternary head condition thenValue elseValue =>
      .expression (.ternary head condition thenValue elseValue) ::
        (condition.walk ++ thenValue.walk ++ elseValue.walk)
  | .call head callee arguments =>
      .expression (.call head callee arguments) :: (callee.walk ++ Expr.walkAll arguments)
  | .methodCall head object member arguments =>
      .expression (.methodCall head object member arguments) ::
        (object.walk ++ member.walk ++ Expr.walkAll arguments)

def Expr.walkAll : List Expr → List Node
  | [] => []
  | value :: others => value.walk ++ Expr.walkAll others

end

def Declarator.walk (declarator : Declarator) : List Node :=
  declarator.name.node :: (declarator.size?.toList.flatMap Expr.walk ++
    (declarator.initializer?.elim [] Initializer.values).flatMap Expr.walk)

mutual

def Stmt.walk : Stmt → List Node
  | .expression value => value.walk
  | .function head returnType parameters body =>
      .statement (.function head returnType parameters body) ::
        (parameters.map (·.name.node) ++ Stmt.walkAll body)
  | .classDefinition head isAbstract superclass? body =>
      .statement (.classDefinition head isAbstract superclass? body) ::
        (superclass?.toList.map Atom.node ++ Stmt.walkAll body)
  | .verb head word action flags =>
      [.statement (.verb head word action flags), word.node, action.node, flags.node]
  | .declaration head valueType declarators =>
      .statement (.declaration head valueType declarators) ::
        declarators.flatMap Declarator.walk
  | .block head body => .statement (.block head body) :: Stmt.walkAll body
  | .returning head value? =>
      .statement (.returning head value?) :: value?.toList.flatMap Expr.walk
  | .guarded head subject body =>
      .statement (.guarded head subject body) :: (subject.walk ++ Stmt.walkAll body)
  | .doWhile head body condition =>
      .statement (.doWhile head body condition) :: (Stmt.walkAll body ++ condition.walk)
  | .ifElse head condition thenBody elseBody? =>
      .statement (.ifElse head condition thenBody elseBody?) ::
        (condition.walk ++ Stmt.walkAll thenBody ++ Stmt.walkAll? elseBody?)
  | .forLoop head first? condition? step? body =>
      .statement (.forLoop head first? condition? step? body) ::
        (first?.toList.flatMap Expr.walk ++ condition?.toList.flatMap Expr.walk ++
          step?.toList.flatMap Expr.walk ++ Stmt.walkAll body)
  | .caseLabel head value => .statement (.caseLabel head value) :: value.walk
  | .bare head => [.statement (.bare head)]

def Stmt.walkAll : List Stmt → List Node
  | [] => []
  | statement :: others => statement.walk ++ Stmt.walkAll others

def Stmt.walkAll? : Option (List Stmt) → List Node
  | none => []
  | some body => Stmt.walkAll body

end

def Node.walk : Node → List Node
  | .expression value => value.walk
  | .statement value => value.walk

@[simp] theorem Node.walk_expression (value : Expr) : (Node.expression value).walk = value.walk :=
  rfl

@[simp] theorem Atom.walk_node (atom : Atom) : atom.node.walk = [atom.node] := rfl

@[simp] theorem Stmt.walk_node (statement : Stmt) : statement.node.walk = statement.walk := by
  cases statement <;> rfl

theorem Expr.walkAll_eq_flatMap (values : List Expr) :
    Expr.walkAll values = values.flatMap Expr.walk := by
  induction values with
  | nil => rfl
  | cons value others ih => simp [Expr.walkAll, ih]

theorem Stmt.walkAll_eq_flatMap (statements : List Stmt) :
    Stmt.walkAll statements = statements.flatMap Stmt.walk := by
  induction statements with
  | nil => rfl
  | cons statement others ih => simp [Stmt.walkAll, ih]

theorem Expr.walk_eq (value : Expr) :
    value.walk = .expression value :: value.children.flatMap Expr.walk := by
  cases value <;> simp [Expr.walk, Expr.children, Atom.node, Expr.walkAll_eq_flatMap]

theorem Declarator.walk_eq (declarator : Declarator) :
    declarator.walk = declarator.nodes.flatMap Node.walk := by
  simp [Declarator.walk, Declarator.nodes, List.flatMap_map]

theorem Expr.flatMap_walk_node (values : List Expr) :
    (values.map Node.expression).flatMap Node.walk = values.flatMap Expr.walk := by
  simp [List.flatMap_map]

theorem Stmt.flatMap_walk_node (statements : List Stmt) :
    (statements.map Stmt.node).flatMap Node.walk = Stmt.walkAll statements := by
  simp [List.flatMap_map, Stmt.walkAll_eq_flatMap]

theorem Atom.flatMap_walk_node (atoms : List Atom) :
    (atoms.map Atom.node).flatMap Node.walk = atoms.map Atom.node := by
  induction atoms with
  | nil => rfl
  | cons atom others ih => simp [ih]

theorem Stmt.walk_eq (statement : Stmt) :
    statement.walk = statement.node :: statement.children.flatMap Node.walk := by
  cases statement with
  | expression value =>
      rw [walk, Expr.walk_eq value]
      refine congrArg (List.cons _) ?_
      simp [children, List.flatMap_map]
  | function head returnType parameters body =>
      refine congrArg (List.cons _) ?_
      have names : parameters.map (·.name.node) = (parameters.map (·.name)).map Atom.node := by simp
      simp only [children, List.flatMap_append, names, Atom.flatMap_walk_node, flatMap_walk_node]
  | declaration head valueType declarators =>
      refine congrArg (List.cons _) ?_
      have walks : Declarator.walk = fun declarator => declarator.nodes.flatMap Node.walk :=
        funext Declarator.walk_eq
      simp [children, List.flatMap_assoc, walks]
  | ifElse head condition thenBody elseBody? =>
      refine congrArg (List.cons _) ?_
      cases elseBody? <;> simp [children, flatMap_walk_node, walkAll?]
  | _ =>
      refine congrArg (List.cons _) ?_
      simp [children, flatMap_walk_node, Atom.flatMap_walk_node, Expr.flatMap_walk_node]

end Adventure
