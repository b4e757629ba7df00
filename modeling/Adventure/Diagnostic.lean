import Adventure.Position

/-!
Diagnostics: what a problem is, where it was seen and how bad it is.
-/

namespace Adventure

inductive Severity
  | error
  | warning
  | information
  | hint
deriving DecidableEq, Inhabited

namespace Severity

def rank : Severity → Nat
  | .error => 1
  | .warning => 2
  | .information => 3
  | .hint => 4

def label : Severity → String
  | .error => "Error"
  | .warning => "Warning"
  | .information => "Information"
  | .hint => "Hint"

end Severity

/-- What can be wrong with a document. A field holds the text that the message quotes. -/
inductive Problem
  | alreadyDefined
  | alreadyReserved
  | expected (symbol : String)
  | missingSemicolon
  | unknownOperator (text : String)
  | invalidCharacter (text : String)
  | unexpectedToken (text : String)
  | unterminatedString
  | badExpressionStatement
  | badLeftValue
  | expectedPropertyName
  | expectedVariableName
  | expectedFunctionName
  | invalidParameterType (text : String)
  | expectedParameterName
  | expectedClassName
  | expectedSuperClassName
  | expectedStringLiteral
  | expectedActionIdentifier
  | expectedIntegerLiteral
  | unreachableCode
  | nestingTooDeep (limit : Nat)
  | undefined (name : String)
deriving DecidableEq, Inhabited

namespace Problem

def name : Problem → String
  | .alreadyDefined => "AlreadyDefined"
  | .alreadyReserved => "AlreadyReserved"
  | .expected _ => "Expected"
  | .missingSemicolon => "MissingSemicolon"
  | .unknownOperator _ => "UnknownOperator"
  | .invalidCharacter _ => "InvalidCharacter"
  | .unexpectedToken _ => "UnexpectedToken"
  | .unterminatedString => "UnterminatedString"
  | .badExpressionStatement => "BadExpressionStatement"
  | .badLeftValue => "BadLeftValue"
  | .expectedPropertyName => "ExpectedPropertyName"
  | .expectedVariableName => "ExpectedVariableName"
  | .expectedFunctionName => "ExpectedFunctionName"
  | .invalidParameterType _ => "InvalidParameterType"
  | .expectedParameterName => "ExpectedParameterName"
  | .expectedClassName => "ExpectedClassName"
  | .expectedSuperClassName => "ExpectedSuperClassName"
  | .expectedStringLiteral => "ExpectedStringLiteral"
  | .expectedActionIdentifier => "ExpectedActionIdentifier"
  | .expectedIntegerLiteral => "ExpectedIntegerLiteral"
  | .unreachableCode => "UnreachableCode"
  | .nestingTooDeep _ => "NestingTooDeep"
  | .undefined _ => "Undefined"

def message : Problem → String
  | .alreadyDefined => "Already defined"
  | .alreadyReserved => "Already reserved"
  | .expected symbol => "Expected '" ++ symbol ++ "'"
  | .missingSemicolon => "Missing ';'"
  | .unknownOperator text => "Unknown operator '" ++ text ++ "'"
  | .invalidCharacter text => "Invalid character '" ++ text ++ "'"
  | .unexpectedToken text => "Unexpected token '" ++ text ++ "'"
  | .unterminatedString => "Unterminated string literal"
  | .badExpressionStatement => "Bad expression statement"
  | .badLeftValue => "Bad left value"
  | .expectedPropertyName => "Expected a property name"
  | .expectedVariableName => "Expected a variable name"
  | .expectedFunctionName => "Expected a function name"
  | .invalidParameterType text =>
      "Invalid parameter type '" ++ text ++ "'. Use either int, string or object."
  | .expectedParameterName => "Expected parameter name"
  | .expectedClassName => "Expected class name"
  | .expectedSuperClassName => "Expected super class name"
  | .expectedStringLiteral => "Expected string literal"
  | .expectedActionIdentifier => "Expected action identifier"
  | .expectedIntegerLiteral => "Expected integer literal"
  | .unreachableCode => "Unreachable code"
  | .nestingTooDeep limit => "Nesting deeper than " ++ toString limit ++ " levels"
  | .undefined name => "'" ++ name ++ "' is undefined"

end Problem

structure Diagnostic where
  problem : Problem
  span : Span
  severity : Severity
deriving DecidableEq, Inhabited

namespace Diagnostic

def source : String := "floyd"

def message (diagnostic : Diagnostic) : String := diagnostic.problem.message

def summary (diagnostic : Diagnostic) : Except Position.CoordinateError String := do
  let line ← Position.oneBased diagnostic.span.start.line
  let character ← Position.oneBased diagnostic.span.start.character
  return toString line ++ ":" ++ toString character ++ ": " ++ diagnostic.severity.label ++ ": " ++
    diagnostic.message

end Diagnostic

abbrev Diagnostics := List Diagnostic

namespace Diagnostics

def push (reported : Diagnostics) (diagnostic : Diagnostic) : Diagnostics :=
  reported ++ [diagnostic]

def error (reported : Diagnostics) (problem : Problem) (span : Span) : Diagnostics :=
  reported.push ⟨problem, span, .error⟩

def warning (reported : Diagnostics) (problem : Problem) (span : Span) : Diagnostics :=
  reported.push ⟨problem, span, .warning⟩

def information (reported : Diagnostics) (problem : Problem) (span : Span) : Diagnostics :=
  reported.push ⟨problem, span, .information⟩

def hint (reported : Diagnostics) (problem : Problem) (span : Span) : Diagnostics :=
  reported.push ⟨problem, span, .hint⟩

def hasErrors (reported : Diagnostics) : Bool :=
  reported.any (·.severity == .error)

end Diagnostics

end Adventure
