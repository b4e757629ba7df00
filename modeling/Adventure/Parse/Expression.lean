import Adventure.Parse.State

/-!
Reading of expressions by binding power: an operand is read first, and operators are folded onto it
as long as they bind tighter than what stands left of the expression.

How deep expressions may still nest is an argument here, the room, and reading is by recursion on
it. An operator or operand reads what is inside it through `inner`, which has one less of it.
-/

namespace Adventure.ParseM

def operandForm (inner : Nat → ParseM Expr) (terminal : Terminal) : OperandForm → ParseM Expr
  | .itself => return .atom (terminal.atom .name)
  | .undefinedName => do
      noteOccurrence terminal
      return .atom (terminal.atom .name)
  | .literal => return .atom (terminal.atom .literal)
  | .constant => do
      reserve terminal
      return .atom (terminal.atom .literal)
  | .thisObject => do
      reserve terminal
      return .atom (terminal.atom .thisObject)
  | .superObject => do
      reserve terminal
      return .atom (terminal.atom .superObject)
  | .unaryOperator => do
      reserve terminal
      let operand ← inner Power.unary
      return .unary terminal.head operand
  | .group => do
      let value ← inner Power.none
      let _ ← expect ")"
      return value.parenthesize

/-- An operand. Without one the lookahead is reported, and skipped unless it closes something. -/
def operand (inner : Nat → ParseM Expr) : ParseM Expr := do
  let token ← current
  match token.denotations.operand? with
  | some form => do
      let terminal ← advance
      operandForm inner terminal form
  | none => do
      error (.unexpectedToken token.text) token.span
      let placeholder ← advanceUnlessCloser
      return .atom (placeholder.atom .invalid)

def property : ParseM Expr := do
  let token ← current
  if token.isName then do
    let name ← advance
    return .atom (name.atom .literal)
  else do
    error .expectedPropertyName token.span
    let placeholder ← advanceUnlessCloser
    return .atom (placeholder.atom .invalid)

def arguments (inner : Nat → ParseM Expr) : ParseM (List Expr) := do
  let values ← commaList ")" (inner Power.none)
  let _ ← expect ")"
  return values

def checkLeftValue (value : Expr) : ParseM Unit :=
  errorUnless value.isLeftValue .badLeftValue value.head.span

/-- What a plain call is made on should be callable; a method always is. -/
def checkCallee (call callee : Expr) : ParseM Unit :=
  match call with
  | .call .. => errorUnless callee.isCallable .expectedVariableName callee.head.span
  | _ => pure ()

def callOf (inner : Nat → ParseM Expr) (terminal : Terminal) (callee : Expr) : ParseM Expr := do
  let values ← arguments inner
  checkCallee (callee.calling terminal.head values) callee
  return callee.calling terminal.head values

def operatorForm (inner : Nat → ParseM Expr) (terminal : Terminal) (left : Expr) :
    OperatorForm → ParseM Expr
  | .leftAssociative => do
      let right ← inner terminal.denotations.power
      return .binary terminal.head left right
  | .rightAssociative => do
      let right ← inner (Power.weaker terminal.denotations.power)
      return .binary terminal.head left right
  | .assignment => do
      checkLeftValue left
      let right ← inner (Power.weaker Power.assignment)
      return .binary terminal.head left right
  | .step => do
      checkLeftValue left
      return .unary terminal.head left
  | .ternary => do
      let thenValue ← inner Power.none
      let _ ← expect ":"
      let elseValue ← inner Power.none
      return .ternary terminal.head left thenValue elseValue
  | .member => do
      let right ← property
      return .binary terminal.head left right
  | .index => do
      let right ← inner Power.none
      let _ ← expect "]"
      return .binary terminal.head left right
  | .call => callOf inner terminal left

/-- Folds the next operator onto `left`. A symbol that binds but is no operator is reported. -/
def fold (inner : Nat → ParseM Expr) (left : Expr) : ParseM Expr := do
  let terminal ← advance
  match terminal.denotations.operator? with
  | some form => operatorForm inner terminal left form
  | none => do
      error (.unexpectedToken terminal.text) terminal.span
      return left

/-- An expression with the operators that bind tighter than `power`. -/
def expression : Nat → Nat → ParseM Expr
  | 0, _ => do
      let placeholder ← refuse
      return .atom placeholder
  | room + 1, power => do
      enter
      let left ← operand (expression room)
      let value ← whileToken (power < ·.denotations.power) (fold (expression room)) left
      leave
      return value

end Adventure.ParseM
