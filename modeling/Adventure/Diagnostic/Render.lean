import Adventure.Diagnostic
import Adventure.Text.Lines

/-!
A diagnostic as it is shown to people: severity and message, the file, and the source line with a
caret under the position. The caret is led up to by dashes, and a position too far to the right for
them is an error.
-/

namespace Adventure.Diagnostic

def gutter (width : Nat) : List Char := List.replicate (width + 1) ' ' ++ ['|']

/-- The source line loses its leading spaces and tabs and every blank at its end. -/
def isIndent (c : Char) : Bool := c == ' ' || c == '\t'

def indent (line : List Char) : Nat := (line.takeWhile isIndent).length

def caret (offset : Nat) : List Char := List.replicate offset '-' ++ ['^']

/-- The column under which the caret stands, counted in the source line as it is shown. -/
def caretOffset (diagnostic : Diagnostic) (source : String) : Nat :=
  diagnostic.span.start.character -
    indent (Text.line source.toList diagnostic.span.start.line)

def render (diagnostic : Diagnostic) (source file : String) : String :=
  let position := diagnostic.span.start
  let line := Text.line source.toList position.line
  let number := toString (position.line + 1)
  diagnostic.severity.label ++ ": " ++ diagnostic.message ++ "\n" ++
    "-> " ++ file ++ "\n" ++
    String.ofList (gutter number.length) ++ "\n" ++
    number ++ " | " ++ String.ofList (Text.trimRight (line.drop (indent line))) ++ "\n" ++
    String.ofList (gutter number.length ++ ' ' :: caret (diagnostic.caretOffset source)) ++ "\n"

/-- The caret and its dashes fill a field of at most this many columns. -/
def fieldLimit : Nat := 65535

inductive RenderError
  | fieldTooWide
deriving DecidableEq, Inhabited

def RenderError.message : RenderError → String
  | .fieldTooWide => "Formatting argument out of range"

/-- The rendering of a diagnostic whose caret stays within its field. -/
def display (diagnostic : Diagnostic) (source file : String) : Except RenderError String :=
  if diagnostic.caretOffset source < fieldLimit then .ok (diagnostic.render source file)
  else .error .fieldTooWide

theorem display_eq_ok_iff {diagnostic : Diagnostic} {source file shown : String} :
    diagnostic.display source file = .ok shown ↔
      diagnostic.caretOffset source < fieldLimit ∧ diagnostic.render source file = shown := by
  unfold display
  split <;> simp [*]

end Adventure.Diagnostic
