import Adventure.Token.Rules

/-!
A cursor reads one source text from its start to its end, a token at a time. Trivia comes out like
everything else, so the texts of the tokens make up the source.
-/

namespace Adventure

structure Cursor where
  rest : List Char
  position : Position := {}
deriving DecidableEq

namespace Cursor

def ofSource (source : String) : Cursor := { rest := source.toList }

def remainder (cursor : Cursor) : String := String.ofList cursor.rest

def atEnd (cursor : Cursor) : Bool := cursor.rest.isEmpty

def next? (cursor : Cursor) : Option (Token × Cursor) :=
  if cursor.rest.isEmpty then none
  else
    let (kind, length) := Token.lexeme cursor.rest
    let text := cursor.rest.take length
    let stop := cursor.position.afterAll text
    some (⟨kind, String.ofList text, ⟨cursor.position, stop⟩⟩, ⟨cursor.rest.drop length, stop⟩)

theorem next?_rest_lt {cursor after : Cursor} {token : Token}
    (read : cursor.next? = some (token, after)) : after.rest.length < cursor.rest.length := by
  unfold next? at read
  split at read
  · simp at read
  · rename_i nonempty
    simp only [Option.some.injEq, Prod.mk.injEq] at read
    obtain ⟨_, rfl⟩ := read
    have positive := Token.lexeme_pos cursor.rest
    have present : cursor.rest.length ≠ 0 := by simpa using nonempty
    simp only [List.length_drop]
    omega

def readWithin : Nat → Cursor → List Token × Cursor
  | 0, cursor => ([], cursor)
  | count + 1, cursor =>
      match cursor.next? with
      | none => ([], cursor)
      | some (token, after) =>
          let (others, last) := readWithin count after
          (token :: others, last)

/-- All remaining tokens, and the cursor at the end. Each token takes at least one character, so
the bound is never what stops the reading. -/
def readAll (cursor : Cursor) : List Token × Cursor := readWithin cursor.rest.length cursor

end Cursor

def tokens (source : String) : List Token := (Cursor.ofSource source).readAll.1

end Adventure
