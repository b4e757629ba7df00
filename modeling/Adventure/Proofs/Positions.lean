import Adventure.Proofs.Languages
import Adventure.Text.Lines
import Mathlib.Algebra.Group.Nat.Defs
import Mathlib.Data.List.Induction

/-!
Where tokens lie. The tokens of a source make it up without a gap, each starts where the one before it
stops, and the coordinates counted on the way are those that lead back to the token when the source is
divided into lines.
-/

namespace Adventure

namespace Position

def ofText (text : List Char) : Position :=
  ⟨text.count '\n', (text.reverse.takeWhile (· != '\n')).length⟩

theorem afterAll_start (text : List Char) : ({} : Position).afterAll text = ofText text := by
  induction text using List.reverseRecOn with
  | nil => rfl
  | append_singleton text c ih =>
      rw [afterAll_append, ih]
      by_cases feed : c = '\n'
      · subst feed
        simp [after, ofText]
      · simp [after, ofText, feed]

theorem line_ofText_le (text : List Char) : (ofText text).line ≤ text.length :=
  List.count_le_length

theorem character_ofText_le (text : List Char) : (ofText text).character ≤ text.length := by
  have bound := (List.takeWhile_prefix (l := text.reverse) (· != '\n')).length_le
  rw [List.length_reverse] at bound
  exact bound

end Position

namespace Text

theorem intercalate_lines (text : List Char) : ['\n'].intercalate (lines text) = text := by
  induction text with
  | nil => rfl
  | cons c rest ih =>
      cases split : lines rest with
      | nil => exact absurd split (lines_ne_nil rest)
      | cons line others =>
          rw [split] at ih
          by_cases feed : c = '\n'
          · simp [lines, feed, split, List.intercalate_cons_cons, ih]
          · cases others with
            | nil => simpa [lines, feed, split] using ih
            | cons next others =>
                rw [List.intercalate_cons_cons] at ih
                simp only [lines, feed, split, if_false, List.intercalate_cons_cons]
                rw [← ih]
                rfl

theorem not_mem_of_mem_lines {text line : List Char} (member : line ∈ lines text) : '\n' ∉ line := by
  induction text generalizing line with
  | nil =>
      simp only [lines, List.mem_singleton] at member
      simp [member]
  | cons c rest ih =>
      cases split : lines rest with
      | nil => exact absurd split (lines_ne_nil rest)
      | cons first others =>
          rw [split] at ih
          by_cases feed : c = '\n'
          · simp only [lines, feed, if_true, split, List.mem_cons] at member
            rcases member with rfl | member
            · simp
            · exact ih (by simpa using member)
          · simp only [lines, feed, if_false, split, List.mem_cons] at member
            rcases member with rfl | member
            · have clear : '\n' ∉ first := ih (by simp)
              simp only [List.mem_cons, not_or]
              exact ⟨fun same => feed same.symm, clear⟩
            · exact ih (by simp [member])

def following (text : List Char) (position : Position) : List Char :=
  ['\n'].intercalate <|
    ((lines text)[position.line]?.getD []).drop position.character ::
      (lines text).drop (position.line + 1)

theorem following_start (text : List Char) : following text {} = text := by
  cases split : lines text with
  | nil => exact absurd split (lines_ne_nil text)
  | cons line others =>
      have whole := intercalate_lines text
      rw [split] at whole
      simpa [following, split] using whole

theorem following_after {text rest : List Char} {position : Position} {c : Char}
    (here : following text position = c :: rest) : following text (position.after c) = rest := by
  unfold following at here ⊢
  cases line : ((lines text)[position.line]?.getD []).drop position.character with
  | nil =>
      rw [line] at here
      cases later : (lines text).drop (position.line + 1) with
      | nil => simp [later] at here
      | cons next others =>
          rw [later, List.intercalate_cons_cons] at here
          obtain ⟨rfl, rfl⟩ := List.cons.inj here
          have found : (lines text)[position.line + 1]? = some next := by
            rw [← List.head?_drop, later]
            rfl
          have others' : (lines text).drop (position.line + 1 + 1) = others := by
            rw [← List.tail_drop, later]
            rfl
          simp [Position.after, found, others']
  | cons first more =>
      rw [line] at here
      have remaining : c = first ∧ ['\n'].intercalate (more :: (lines text).drop (position.line + 1)) =
          rest := by
        cases later : (lines text).drop (position.line + 1) with
        | nil =>
            rw [later, List.intercalate_singleton] at here
            obtain ⟨rfl, rfl⟩ := List.cons.inj here
            simp
        | cons next others =>
            rw [later, List.intercalate_cons_cons] at here
            obtain ⟨rfl, rfl⟩ := List.cons.inj here
            simp [List.intercalate_cons_cons]
      obtain ⟨rfl, remaining⟩ := remaining
      have other : c ≠ '\n' := by
        rintro rfl
        cases found : (lines text)[position.line]? with
        | none => simp [found] at line
        | some whole =>
            have member : '\n' ∈ whole := by
              rw [found, Option.getD_some] at line
              exact List.mem_of_mem_drop (by rw [line]; simp)
            exact not_mem_of_mem_lines (List.mem_of_getElem? found) member
      have onward : ((lines text)[position.line]?.getD []).drop (position.character + 1) = more := by
        rw [← List.tail_drop, line]
        rfl
      simpa [Position.after, other, onward] using remaining

theorem following_afterAll {text passed rest : List Char} {position : Position}
    (here : following text position = passed ++ rest) :
    following text (position.afterAll passed) = rest := by
  induction passed generalizing position with
  | nil => exact here
  | cons c passed ih => exact ih (following_after here)

end Text

namespace Token

def characters (tokens : List Token) : List Char := tokens.flatMap (·.text.toList)

@[simp] theorem characters_cons (token : Token) (others : List Token) :
    characters (token :: others) = token.text.toList ++ characters others :=
  List.flatMap_cons

end Token

namespace Cursor

open Token

theorem next?_eq_some {cursor after : Cursor} {token : Token}
    (read : cursor.next? = some (token, after)) :
    cursor.rest = token.text.toList ++ after.rest ∧
      token.span = ⟨cursor.position, after.position⟩ ∧
      after.position = cursor.position.afterAll token.text.toList ∧
      lexeme cursor.rest = (token.kind, token.text.toList.length) := by
  unfold next? at read
  split at read
  · cases read
  · simp only [Option.some.injEq, Prod.mk.injEq] at read
    obtain ⟨rfl, rfl⟩ := read
    have present : cursor.rest ≠ [] := by simpa using ‹¬cursor.rest.isEmpty = true›
    have bound := (lexeme_longest present).within.2
    refine ⟨?_, rfl, ?_, ?_⟩
    · rw [String.toList_ofList, List.take_append_drop]
    · rw [String.toList_ofList]
    · rw [String.toList_ofList, List.length_take, Nat.min_eq_left bound]

theorem next?_eq_none {cursor : Cursor} (stopped : cursor.next? = none) : cursor.rest = [] := by
  unfold next? at stopped
  split at stopped
  · simpa using ‹cursor.rest.isEmpty = true›
  · cases stopped

theorem readAll_cases (cursor : Cursor) :
    cursor.readAll.1 = [] ∧ cursor.rest = [] ∨
      ∃ token after, cursor.next? = some (token, after) ∧
        cursor.readAll.1 = token :: after.readAll.1 := by
  cases read : cursor.next? with
  | none =>
      have finished := next?_eq_none read
      exact .inl ⟨by simp [readAll, finished, readWithin], finished⟩
  | some next => exact .inr ⟨next.1, next.2, rfl, readAll_of_next? read⟩

theorem characters_readAll (cursor : Cursor) : characters cursor.readAll.1 = cursor.rest := by
  induction length : cursor.rest.length using Nat.strongRecOn generalizing cursor with
  | ind length ih =>
      rcases cursor.readAll_cases with ⟨none, finished⟩ | ⟨token, after, read, more⟩
      · rw [none, finished]
        rfl
      · have fewer := next?_rest_lt read
        rw [more, (next?_eq_some read).1, characters_cons, ih _ (length ▸ fewer) after rfl]

theorem readWithin_finish {count : Nat} {cursor : Cursor} (enough : cursor.rest.length ≤ count) :
    (readWithin count cursor).2.position = cursor.position.afterAll cursor.rest := by
  induction count generalizing cursor with
  | zero =>
      have empty : cursor.rest = [] := by simpa using enough
      simp [readWithin, empty]
  | succ count ih =>
      cases read : cursor.next? with
      | none => simp [readWithin, read, next?_eq_none read]
      | some next =>
          obtain ⟨token, after⟩ := next
          obtain ⟨rest, _, position, _⟩ := next?_eq_some read
          have fewer := next?_rest_lt read
          simp only [readWithin, read]
          rw [ih (by omega), position, rest, Position.afterAll_append]

theorem readAll_finish (cursor : Cursor) :
    cursor.readAll.2.position = cursor.position.afterAll cursor.rest :=
  readWithin_finish (Nat.le_refl _)

/-- A token of a reading is the lexeme of what there is to read from it on, and it lies right after what
was read before it. -/
structure Placed (cursor : Cursor) (before : List Token) (token : Token) (after : List Token) : Prop
    where
  rest : cursor.rest = characters before ++ (token.text.toList ++ characters after)
  start : token.span.start = cursor.position.afterAll (characters before)
  stop : token.span.stop = token.span.start.afterAll token.text.toList
  lexeme : lexeme (token.text.toList ++ characters after) = (token.kind, token.text.toList.length)

theorem readAll_placed {cursor : Cursor} {before after : List Token} {token : Token}
    (split : cursor.readAll.1 = before ++ token :: after) : Placed cursor before token after := by
  induction before generalizing cursor with
  | nil =>
      rcases cursor.readAll_cases with ⟨none, _⟩ | ⟨first, next, read, more⟩
      · simp [none] at split
      · rw [more, List.nil_append, List.cons.injEq] at split
        obtain ⟨rfl, rfl⟩ := split
        obtain ⟨rest, span, position, lexeme⟩ := next?_eq_some read
        rw [← characters_readAll next] at rest
        rw [rest] at lexeme
        exact ⟨rest, by rw [span]; rfl, by rw [span]; exact position, lexeme⟩
  | cons first before ih =>
      rcases cursor.readAll_cases with ⟨none, _⟩ | ⟨first', next, read, more⟩
      · simp [none] at split
      · rw [more, List.cons_append, List.cons.injEq] at split
        obtain ⟨rfl, split⟩ := split
        obtain ⟨rest, _, position, _⟩ := next?_eq_some read
        obtain ⟨rest', start, stop, lexeme⟩ := ih split
        refine ⟨?_, ?_, stop, lexeme⟩
        · rw [rest, rest', characters_cons, List.append_assoc]
        · rw [start, position, characters_cons, Position.afterAll_append]

end Cursor

open Token

/-- How the tokens of a source cover it. -/
structure Covers (source : String) (tokens : List Token) : Prop where
  texts : String.join (tokens.map (·.text)) = source
  nonempty : ∀ token ∈ tokens, token.text ≠ ""
  first : ∀ token ∈ tokens.head?, token.span.start = {}
  next : ∀ token next, [token, next] <:+: tokens → next.span.start = token.span.stop

/-- A token is where its coordinates say: as many line feeds stand before it and as many characters
after the last of them, and dividing the source into lines leads back to it. -/
structure Located (source : String) (before : List Token) (token : Token) (after : List Token) : Prop
    where
  start : token.span.start = Position.ofText (characters before)
  stop : token.span.stop = Position.ofText (characters before ++ token.text.toList)
  following : Text.following source.toList token.span.start =
    token.text.toList ++ characters after

theorem tokens_placed {source : String} {before after : List Token} {token : Token}
    (split : tokens source = before ++ token :: after) :
    Cursor.Placed (Cursor.ofSource source) before token after :=
  Cursor.readAll_placed split

theorem tokens_located {source : String} {before after : List Token} {token : Token}
    (split : tokens source = before ++ token :: after) : Located source before token after := by
  have placed := tokens_placed split
  have start : token.span.start = ({} : Position).afterAll (characters before) := placed.start
  refine ⟨start.trans (Position.afterAll_start _), ?_, ?_⟩
  · rw [placed.stop, start, ← Position.afterAll_append, Position.afterAll_start]
  · rw [start]
    have here : Text.following source.toList {} =
        characters before ++ (token.text.toList ++ characters after) := by
      rw [Text.following_start]
      exact placed.rest
    exact Text.following_afterAll here

theorem characters_tokens (source : String) : characters (tokens source) = source.toList :=
  Cursor.characters_readAll _

theorem tokens_cover (source : String) : Covers source (tokens source) := by
  refine ⟨?_, ?_, ?_, ?_⟩
  · rw [← String.toList_inj, ← characters_tokens source]
    simp [characters, String.toList_join, List.flatMap_map]
  · intro token member
    obtain ⟨before, after, split⟩ := List.append_of_mem member
    have positive := lexeme_pos (token.text.toList ++ characters after)
    rw [(tokens_placed split).lexeme] at positive
    rintro empty
    simp [empty] at positive
  · intro token head
    obtain ⟨after, split⟩ := List.head?_eq_some_iff.mp head
    exact (@tokens_placed source [] after token split).start
  · rintro token next ⟨before, after, split⟩
    have first : tokens source = before ++ token :: next :: after := by simpa using split.symm
    have second : tokens source = (before ++ [token]) ++ next :: after := by simpa using split.symm
    have first := tokens_placed first
    have second := tokens_placed second
    rw [first.stop, first.start, second.start, ← Position.afterAll_append]
    simp [characters]

/-- Tokens cover their source without a gap, each at the coordinates that dividing the source into lines
leads back from. The coordinates of a source of fewer than 2^32 characters are numbers of 32 bits. -/
theorem tokens_positions {source : String} (small : source.length < 2 ^ 32) :
    Covers source (tokens source) ∧
      (∀ before token after, tokens source = before ++ token :: after →
        Located source before token after) ∧
      ∀ read, read <+: source.toList →
        (({} : Position).afterAll read).line < 2 ^ 32 ∧
          (({} : Position).afterAll read).character < 2 ^ 32 := by
  refine ⟨tokens_cover source, fun _ _ _ split => tokens_located split, ?_⟩
  intro read starts
  have shorter : read.length ≤ source.length := String.length_toList ▸ starts.length_le
  have line := Position.line_ofText_le read
  have character := Position.character_ofText_le read
  rw [Position.afterAll_start]
  omega

theorem tokens_positions_lines :
    "a\n \"\n\" b".length < 2 ^ 32 ∧
      Located "a\n \"\n\" b"
        [⟨.name, "a", ⟨⟨0, 0⟩, ⟨0, 1⟩⟩⟩, ⟨.whitespace, "\n ", ⟨⟨0, 1⟩, ⟨1, 1⟩⟩⟩,
          ⟨.string, "\"\n\"", ⟨⟨1, 1⟩, ⟨2, 1⟩⟩⟩, ⟨.whitespace, " ", ⟨⟨2, 1⟩, ⟨2, 2⟩⟩⟩]
        ⟨.name, "b", ⟨⟨2, 2⟩, ⟨2, 3⟩⟩⟩ [] :=
  ⟨by decide, (tokens_positions (by decide)).2.1 _ _ _ (by decide +kernel)⟩

end Adventure
