import Adventure.Grammar
import Adventure.Token
import Adventure.Tree.Node

/-!
A terminal is a token together with the grammar symbol or definition it was found to be.
-/

namespace Adventure

structure Terminal where
  id : String
  denotations : Denotations := {}
  text : String
  span : Span
  /-- The lexical class of the token; the end of the input has none. -/
  origin : Option TokenKind
  reserved : Bool := false
deriving DecidableEq, Inhabited

namespace Terminal

def ofSymbol (symbol : Symbol) (token : Token) : Terminal :=
  { id := symbol.id
    denotations := symbol.denotations
    text := token.text
    span := token.span
    origin := some token.kind }

/-- Names and keywords are names, integers and strings are literals, and nothing else has a role
before it is read. -/
def arity? (terminal : Terminal) : Option Arity :=
  match terminal.origin with
  | some .name => some .name
  | some .integer | some .string => some .literal
  | _ => none

def isName (terminal : Terminal) : Bool := terminal.origin == some .name

def isEnd (terminal : Terminal) : Bool := terminal.origin.isNone

def token? (terminal : Terminal) : Option Token :=
  terminal.origin.map fun kind => ⟨kind, terminal.text, terminal.span⟩

/-- What closes or separates constructs is left in place where an operand was expected. -/
def isCloser (terminal : Terminal) : Bool :=
  terminal.isEnd || [";", ")", "]", "\x7d", ",", ":"].contains terminal.id

def startsStatement (terminal : Terminal) : Bool := terminal.denotations.statement?.isSome

def head (terminal : Terminal) : Head :=
  { id := terminal.id, text := terminal.text, span := terminal.span }

def atom (terminal : Terminal) (kind : AtomKind) : Atom := ⟨kind, terminal.head⟩

end Terminal

end Adventure
