import Adventure.Position
import Adventure.Text.Blank

/-!
The lines of a source text, divided at line feeds, and the text of one line without the carriage
returns at its end.
-/

namespace Adventure.Text

/-- The pieces of `text` between its line feeds; there is always at least one. -/
def lines : List Char → List (List Char)
  | [] => [[]]
  | c :: rest =>
      if c = '\n' then [] :: lines rest
      else match lines rest with
        | [] => [[c]]
        | line :: others => (c :: line) :: others

theorem lines_ne_nil (text : List Char) : lines text ≠ [] := by
  cases text with
  | nil => simp [lines]
  | cons c rest =>
      simp only [lines]
      split
      · simp
      · split <;> simp

/-- Line `number`, counted from zero and empty past the last line, without final carriage
returns. -/
def line (source : List Char) (number : Nat) : List Char :=
  dropEndWhile (· == '\r') ((lines source)[number]?.getD [])

def lineAt (source : String) (position : Position) : Nat × String × Nat :=
  (position.line + 1, String.ofList (line source.toList position.line), position.character)

end Adventure.Text
