/-!
Places in a source text. Lines and characters are counted from zero, a character is one Unicode
scalar value, and only a line feed ends a line.
-/

namespace Adventure

/-- Coordinates are natural numbers. A program that counts them in 32 bits comes to the same ones in every
source of fewer than 2^32 characters; of that program, results speak for those sources only. -/
structure Position where
  line : Nat := 0
  character : Nat := 0
deriving DecidableEq, Inhabited

namespace Position

def after (position : Position) (c : Char) : Position :=
  if c = '\n' then ⟨position.line + 1, 0⟩ else ⟨position.line, position.character + 1⟩

def afterAll (position : Position) (text : List Char) : Position :=
  text.foldl after position

def le (first second : Position) : Bool :=
  first.line < second.line ||
    (first.line == second.line && first.character ≤ second.character)

def coordinateLimit : Nat := 4294967295

inductive CoordinateError
  | overflow
deriving DecidableEq

def CoordinateError.message : CoordinateError → String
  | .overflow => "attempt to add with overflow"

/-- The coordinate counted from one; the last 32-bit coordinate has no successor. -/
def oneBased (coordinate : Nat) : Except CoordinateError Nat :=
  if coordinate < coordinateLimit then .ok (coordinate + 1) else .error .overflow

@[simp] theorem afterAll_nil (position : Position) : position.afterAll [] = position := rfl

@[simp] theorem afterAll_cons (position : Position) (c : Char) (text : List Char) :
    position.afterAll (c :: text) = (position.after c).afterAll text := rfl

theorem afterAll_append (position : Position) (first second : List Char) :
    position.afterAll (first ++ second) = (position.afterAll first).afterAll second :=
  List.foldl_append

end Position

/-- A half-open range of a source text: `stop` is the first position past it. -/
structure Span where
  start : Position := {}
  stop : Position := {}
deriving DecidableEq, Inhabited

def Span.at (position : Position) : Span := ⟨position, position⟩

end Adventure
