import Adventure.Parse.Expression

/-!
Reading of statements. A statement is told by its first terminal; one that starts no statement of
its own starts an expression.

As with expressions, the room for further nesting is an argument and reading is by recursion on it.
What stands inside a statement is read through `inner` and `nested`, which have one less of it.
-/

namespace Adventure.ParseM

def anotherStatement (nested : ParseM (Option Stmt)) (statements : List Stmt) :
    ParseM (List Stmt) := do
  let next ← nested
  return statements ++ next.toList

def statementsUntilBrace (nested : ParseM (Option Stmt)) : ParseM (List Stmt) :=
  whileToken (·.id != "\x7d") (anotherStatement nested) []

def atBrace : ParseM Bool := do
  let token ← current
  errorUnless (token.id == "\x7b") (.expected "\x7b") token.span
  return token.id == "\x7b"

/-- The rest of a block whose `{` was consumed. Its scope closes before the `}` is consumed, so
what comes after is looked up outside. -/
def blockBody (nested : ParseM (Option Stmt)) : ParseM (List Stmt) := do
  pushScope
  let body ← statementsUntilBrace nested
  popScope
  let _ ← expect "\x7d"
  return body

def block (nested : ParseM (Option Stmt)) : ParseM (List Stmt) := do
  let opened ← atBrace
  if opened then do
    skip
    blockBody nested
  else
    return []

def functionBody (nested : ParseM (Option Stmt)) : ParseM (List Stmt) := do
  let opened ← atBrace
  if opened then do
    skip
    let body ← statementsUntilBrace nested
    popScope
    let _ ← expect "\x7d"
    return body
  else do
    popScope
    return []

def parenthesized (inner : Nat → ParseM Expr) : ParseM Expr := do
  let _ ← expect "("
  let value ← inner Power.none
  let _ ← expect ")"
  return value

def optional (inner : Nat → ParseM Expr) (closing : String) : ParseM (Option Expr) := do
  let token ← current
  if token.id = closing then
    return none
  else do
    let value ← inner Power.none
    return some value

def atomOf (terminal : Terminal) : Atom :=
  match terminal.arity? with
  | some .name => terminal.atom .name
  | some .literal => terminal.atom .literal
  | _ => terminal.atom .invalid

def takeAtom : ParseM Atom := do
  let token ← current
  if token.isCloser then
    return token.atom .invalid
  else do
    let terminal ← advance
    return atomOf terminal

def checkWord : ParseM Unit := do
  let token ← current
  errorUnless (token.origin == some .string) .expectedStringLiteral token.span

def checkAction : ParseM Unit := do
  let token ← current
  if token.isName then noteIfUndefined token else warning .expectedActionIdentifier token.span

def checkFlags : ParseM Unit := do
  let token ← current
  warningUnless (token.origin == some .integer) .expectedIntegerLiteral token.span

/-- A verb: `verb("word", action, flags);` -/
def verb (terminal : Terminal) : ParseM Stmt := do
  let _ ← expect "("
  checkWord
  let word ← takeAtom
  let _ ← expect ","
  checkAction
  let action ← takeAtom
  let _ ← expect ","
  checkFlags
  let flags ← takeAtom
  let _ ← expect ")"
  expectSemicolon
  return .verb terminal.head word action flags

def abstractModifier : ParseM Bool := do
  let token ← current
  if token.isName && token.text == "abstract" then do
    let modifier ← advance
    reserve modifier
    return true
  else
    return false

/-- The terminal that names a class. Without a name it is the keyword, or what stands in the name's
place if that is neither a closer nor the beginning of what follows. -/
def className (keyword : Terminal) : ParseM Terminal := do
  let token ← current
  if token.isName then do
    let name ← advance
    define name .classDefinition none
    return name
  else do
    error .expectedClassName token.span
    if token.id = "\x7b" ∨ token.id = ":" ∨ token.isCloser then return keyword else advance

/-- The name of a superclass. The class may be declared further down, so it is looked up later in
any case. -/
def superclassName : ParseM (Option Atom) := do
  let token ← current
  if token.isName then do
    let name ← advance
    noteOccurrence name
    return some (name.atom .name)
  else do
    error .expectedSuperClassName token.span
    return none

def superclass : ParseM (Option Atom) := do
  let token ← current
  if token.id = ":" then do
    skip
    superclassName
  else
    return none

/-- A class: `class [abstract] Name [: Name] { ... }` -/
def classDefinition (nested : ParseM (Option Stmt)) (terminal : Terminal) : ParseM Stmt := do
  let isAbstract ← abstractModifier
  let name ← className terminal
  let superclass? ← superclass
  let body ← block nested
  return .classDefinition name.head isAbstract superclass? body

def endsPath (token : Terminal) : Bool := ["\x7d", "case", "default", "(end)"].contains token.id

/-- A return: `return [value];`, after which the block should end. -/
def returning (inner : Nat → ParseM Expr) (terminal : Terminal) : ParseM Stmt := do
  let value? ← optional inner ";"
  expectSemicolon
  let token ← current
  warningUnless (endsPath token) .unreachableCode terminal.span
  return .returning terminal.head value?

/-- A block under a subject: `keyword (subject) { ... }` -/
def guarded (inner : Nat → ParseM Expr) (nested : ParseM (Option Stmt)) (terminal : Terminal) :
    ParseM Stmt := do
  let subject ← parenthesized inner
  let body ← block nested
  return .guarded terminal.head subject body

/-- A loop with its condition last: `do { ... } while (condition);` -/
def doWhile (inner : Nat → ParseM Expr) (nested : ParseM (Option Stmt)) (terminal : Terminal) :
    ParseM Stmt := do
  let body ← block nested
  let keyword ← current
  reserve keyword
  let _ ← expect "while"
  let condition ← parenthesized inner
  expectSemicolon
  return .doWhile terminal.head body condition

def alternative (nested : ParseM (Option Stmt)) : ParseM (List Stmt) := do
  let token ← current
  if token.id = "if" then do
    let next ← nested
    return next.toList
  else
    block nested

def elseBody (nested : ParseM (Option Stmt)) : ParseM (Option (List Stmt)) := do
  let token ← current
  if token.id = "else" then do
    let keyword ← advance
    reserve keyword
    let body ← alternative nested
    return some body
  else
    return none

/-- A choice: `if (condition) { ... } [else ...]` -/
def ifElse (inner : Nat → ParseM Expr) (nested : ParseM (Option Stmt)) (terminal : Terminal) :
    ParseM Stmt := do
  let condition ← parenthesized inner
  let thenBody ← block nested
  let elseBody? ← elseBody nested
  return .ifElse terminal.head condition thenBody elseBody?

/-- A counting loop: `for ([first]; [condition]; [step]) { ... }` -/
def forLoop (inner : Nat → ParseM Expr) (nested : ParseM (Option Stmt)) (terminal : Terminal) :
    ParseM Stmt := do
  let _ ← expect "("
  let first? ← optional inner ";"
  let _ ← expect ";"
  let condition? ← optional inner ";"
  let _ ← expect ";"
  let step? ← optional inner ")"
  let _ ← expect ")"
  let body ← block nested
  return .forLoop terminal.head first? condition? step? body

/-- A label in a switch: `case (value);` -/
def caseLabel (inner : Nat → ParseM Expr) (terminal : Terminal) : ParseM Stmt := do
  let value ← parenthesized inner
  expectSemicolon
  return .caseLabel terminal.head value

def bare (terminal : Terminal) : ParseM Stmt := do
  expectSemicolon
  return .bare terminal.head

def parameterType? (terminal : Terminal) : Option ValueType :=
  if terminal.isName then (ValueType.ofKeyword? terminal.text).filter (·.isStorable) else none

def parameterName (valueType? : Option ValueType) : ParseM Parameter := do
  let token ← current
  if token.isName then do
    let name ← advance
    define name .name valueType?
    return ⟨valueType?, name.atom .name⟩
  else do
    error .expectedParameterName token.span
    let placeholder ← advanceUnlessCloser
    return ⟨valueType?, placeholder.atom .invalid⟩

/-- A parameter whose first terminal is no type. A name alone, before a comma or the closing
parenthesis, lacks its type only. -/
def untypedParameter (first : Terminal) : ParseM Parameter := do
  error (.invalidParameterType first.text) first.span
  let token ← current
  if first.isName && (token.id == "," || token.id == ")") then do
    define first .name none
    return ⟨none, first.atom .name⟩
  else
    parameterName none

def parameter : ParseM Parameter := do
  let token ← current
  if token.isCloser then do
    error .expectedParameterName token.span
    return ⟨none, token.atom .invalid⟩
  else do
    let first ← advance
    match parameterType? first with
    | some valueType => parameterName (some valueType)
    | none => untypedParameter first

def functionName (name : Terminal) (returnType : ValueType) : ParseM Unit :=
  if name.isName then define name .function (some returnType)
  else error .expectedFunctionName name.span

/-- The rest of a function, from its parameter list on. Parameters and body share one scope. -/
def function (nested : ParseM (Option Stmt)) (name : Terminal) (returnType : ValueType) :
    ParseM Stmt := do
  functionName name returnType
  let _ ← expect "("
  pushScope
  let parameters ← commaList ")" parameter
  let _ ← expect ")"
  let body ← functionBody nested
  return .function name.head returnType parameters body

def variableName (name : Terminal) (valueType : ValueType) : ParseM Atom :=
  if name.isName then do
    define name .name (some valueType)
    return name.atom .name
  else do
    error .expectedVariableName name.span
    return name.atom .invalid

def arraySize (inner : Nat → ParseM Expr) : ParseM (Bool × Option Expr) := do
  let token ← current
  if token.id = "[" then do
    skip
    let size? ← optional inner "]"
    let _ ← expect "]"
    return (true, size?)
  else
    return (false, none)

def initialValue (inner : Nat → ParseM Expr) (isArray : Bool) : ParseM Initializer := do
  let token ← current
  if isArray && token.id == "(" then do
    skip
    let items ← arguments inner
    return .list items
  else do
    let value ← inner Power.none
    return .expression value

def initializer (inner : Nat → ParseM Expr) (isArray : Bool) : ParseM (Option Initializer) := do
  let token ← current
  if token.id = "=" then do
    skip
    let value ← initialValue inner isArray
    return some value
  else
    return none

def declarator (inner : Nat → ParseM Expr) (valueType : ValueType) (name : Terminal) :
    ParseM Declarator := do
  let atom ← variableName name valueType
  let array ← arraySize inner
  let initializer? ← initializer inner array.1
  return ⟨atom, array.1, array.2, initializer?⟩

def nextDeclarator (inner : Nat → ParseM Expr) (valueType : ValueType) : ParseM Declarator := do
  let name ← advanceUnlessCloser
  declarator inner valueType name

def variableList (inner : Nat → ParseM Expr) (keyword first : Terminal) (valueType : ValueType) :
    ParseM Stmt := do
  let declared ← declarator inner valueType first
  let declarators ← afterCommas (nextDeclarator inner valueType) declared
  expectSemicolon
  return .declaration keyword.head valueType declarators

/-- A type keyword starts a function if a parenthesis follows the name, else variables. A type
whose values cannot be stored always starts a function. -/
def declaration (inner : Nat → ParseM Expr) (nested : ParseM (Option Stmt)) (keyword : Terminal)
    (valueType : ValueType) : ParseM Stmt := do
  let name ← advanceUnlessCloser
  let token ← current
  if !valueType.isStorable || token.id == "(" then
    function nested name valueType
  else
    variableList inner keyword name valueType

def statementForm (inner : Nat → ParseM Expr) (nested : ParseM (Option Stmt))
    (terminal : Terminal) : StatementForm → ParseM Stmt
  | .block => do
      let body ← blockBody nested
      return .block terminal.head body
  | .verb => verb terminal
  | .classDefinition => classDefinition nested terminal
  | .returning => returning inner terminal
  | .guarded => guarded inner nested terminal
  | .doWhile => doWhile inner nested terminal
  | .ifElse => ifElse inner nested terminal
  | .forLoop => forLoop inner nested terminal
  | .caseLabel => caseLabel inner terminal
  | .bare => bare terminal
  | .declaration valueType => declaration inner nested terminal valueType

def formedStatement (inner : Nat → ParseM Expr) (nested : ParseM (Option Stmt))
    (form : StatementForm) : ParseM Stmt := do
  let terminal ← advance
  log (.statement terminal.id terminal.span.start)
  reserve terminal
  statementForm inner nested terminal form

/-- An expression as a statement. It should change something or call something. -/
def expressionStatement (inner : Nat → ParseM Expr) : ParseM Stmt := do
  let value ← inner Power.none
  warningUnless (value.isAssignment || value.isCall || value.isInvalid) .badExpressionStatement
    value.head.span
  expectSemicolon
  return .expression value

/-- Skips what can start neither a statement nor an expression, up to where a statement can start
or one ends. -/
def skipStatement : ParseM Unit := do
  recover fun token => !token.startsStatement && token.id != ";" && token.id != "\x7d"
  let token ← current
  if token.id = ";" then skip else pure ()

/-- A statement, told by the lookahead, or nothing where recovery skipped one. -/
def statementBody (inner : Nat → ParseM Expr) (nested : ParseM (Option Stmt)) :
    ParseM (Option Stmt) := do
  let token ← current
  match token.denotations.statement?, token.denotations.operand? with
  | some form, _ => do
      let result ← formedStatement inner nested form
      return some result
  | none, some _ => do
      let result ← expressionStatement inner
      return some result
  | none, none => do
      skipStatement
      return none

def statement : Nat → ParseM (Option Stmt)
  | 0 => do
      let _ ← refuse
      return none
  | room + 1 => do
      enter
      let result ← statementBody (expression room) (statement room)
      leave
      return result

/-- More statements, after a `}` that closes nothing. It is reported and skipped. -/
def afterStrayBrace (nested : ParseM (Option Stmt)) (statements : List Stmt) :
    ParseM (List Stmt) := do
  recover (·.id == "\x7d")
  let more ← statementsUntilBrace nested
  return statements ++ more

def statements (nested : ParseM (Option Stmt)) : ParseM (List Stmt) := do
  let first ← statementsUntilBrace nested
  whileToken (fun _ => true) (afterStrayBrace nested) first

end Adventure.ParseM
