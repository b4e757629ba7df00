import Adventure.Position
import Adventure.Text.Blank
import Adventure.Text.Quoted

/-!
Tokens: pieces of a source text with their lexical class. Classes know nothing of the grammar, so
a keyword is a name and every operator or punctuation mark is an operator.
-/

namespace Adventure

inductive TokenKind
  | name
  | integer
  | string
  | operator
  | directive
  | comment
  | whitespace
  | invalid
deriving DecidableEq, Inhabited

namespace TokenKind

def label : TokenKind → String
  | .name => "Name"
  | .integer => "Integer"
  | .string => "String"
  | .operator => "Operator"
  | .directive => "Directive"
  | .comment => "Comment"
  | .whitespace => "Whitespace"
  | .invalid => "Invalid"

def isTrivia : TokenKind → Bool
  | .comment | .whitespace | .directive => true
  | _ => false

end TokenKind

structure Token where
  kind : TokenKind
  text : String
  span : Span
deriving DecidableEq, Inhabited

namespace Token

def upTo (close : Char) (text : List Char) : Option String :=
  if close ∈ text then some (String.ofList (text.takeWhile (· != close))) else none

/-- What stands between quotes or angle brackets after `#include`. -/
def includeTarget (token : Token) : Option String :=
  let word := "#include".toList
  if token.kind = .directive ∧ word.isPrefixOf token.text.toList then
    match Text.trim (token.text.toList.drop word.length) with
    | '"' :: inner => upTo '"' inner
    | '<' :: inner => upTo '>' inner
    | _ => none
  else none

def describe (token : Token) : String :=
  "Token \x7b\nkind: " ++ token.kind.label ++ ",\nvalue: " ++ Text.quoted token.text ++ "\x7d"

/-- A string is closed when a second quote ends it. -/
def isClosedString (token : Token) : Bool :=
  let text := token.text.toList
  2 ≤ text.length && text.getLast? == some '"'

end Token

end Adventure
