import Adventure.Token
import Mathlib.Data.List.DropRight

/-!
What trimming leaves of a text, and what it finds between two marks: the name of the file that a
directive includes.
-/

namespace Adventure

namespace Text

section

variable {drop : Char → Bool} {text inner : List Char} {c : Char} {index : Nat}

theorem dropEndWhile_split (drop : Char → Bool) (text : List Char) :
    ∃ dropped, text = dropEndWhile drop text ++ dropped ∧ ∀ c ∈ dropped, drop c = true :=
  ⟨text.rtakeWhile drop, List.rdropWhile_append_rtakeWhile.symm,
    fun _ member => List.mem_rtakeWhile_imp member⟩

theorem dropEndWhile_subset (drop : Char → Bool) (text : List Char) : dropEndWhile drop text ⊆ text :=
  (List.rdropWhile_prefix drop text).subset

theorem dropEndWhile_last (drop : Char → Bool) (text : List Char) :
    ∀ c ∈ (dropEndWhile drop text).getLast?, drop c = false := by
  intro c last
  rw [Option.mem_def, List.getLast?_eq_some_iff] at last
  obtain ⟨others, same⟩ := last
  have nonempty : dropEndWhile drop text ≠ [] := by simp [same]
  have kept : ¬ drop ((dropEndWhile drop text).getLast nonempty) = true :=
    List.rdropWhile_last_not drop text nonempty
  simpa [same] using kept

theorem getElem?_dropEndWhile (found : text[index]? = some c) (kept : drop c = false) :
    (dropEndWhile drop text)[index]? = some c := by
  obtain ⟨dropped, split, all⟩ := dropEndWhile_split drop text
  rw [split] at found
  rcases Nat.lt_or_ge index (dropEndWhile drop text).length with inside | outside
  · rwa [List.getElem?_append_left inside] at found
  · rw [List.getElem?_append_right outside] at found
    simp [all c (List.mem_of_getElem? found)] at kept

theorem dropEndWhile_append_cons (kept : drop c = false) (first rest : List Char) :
    dropEndWhile drop (first ++ c :: rest) = first ++ c :: dropEndWhile drop rest := by
  have reversed : (first ++ c :: rest).reverse = rest.reverse ++ c :: first.reverse := by simp
  rw [dropEndWhile, dropEndWhile, reversed, List.dropWhile_append]
  split
  next nothing =>
    rw [List.isEmpty_iff] at nothing
    simp [nothing, kept]
  next => simp

/-- Trimming ends at the first character that is no blank, and leaves everything from there to the last
one. -/
theorem trim_eq_cons_iff (visible : isBlank c = false) : trim text = c :: inner ↔
    ∃ blanks rest, (∀ b ∈ blanks, isBlank b = true) ∧ text = blanks ++ c :: rest ∧
      trimRight rest = inner := by
  constructor
  · intro trimmed
    have whole : text = text.takeWhile isBlank ++ trimLeft text := List.takeWhile_append_dropWhile.symm
    obtain ⟨dropped, split, _⟩ := dropEndWhile_split isBlank (trimLeft text)
    have kept : dropEndWhile isBlank (trimLeft text) = c :: inner := trimmed
    rw [kept, List.cons_append] at split
    have rest := dropEndWhile_append_cons visible [] (inner ++ dropped)
    rw [List.nil_append, ← split, kept] at rest
    exact ⟨text.takeWhile isBlank, inner ++ dropped, fun b member => List.mem_takeWhile_imp member,
      split ▸ whole, (List.cons.inj rest).2.symm⟩
  · rintro ⟨blanks, rest, blank, rfl, rfl⟩
    have left : trimLeft (blanks ++ c :: rest) = c :: rest := by
      rw [trimLeft, List.dropWhile_append_of_pos blank]
      exact List.dropWhile_cons_of_neg (by simp [visible])
    rw [trim, left]
    exact dropEndWhile_append_cons visible [] rest

end

end Text

namespace Token

open Text

inductive Marks : Char → Char → Prop
  | quotes : Marks '"' '"'
  | brackets : Marks '<' '>'

/-- What includes `target`: the word, blanks, and the target between two marks, up to the first closing
one; whatever follows it does not count. -/
inductive Includes : List Char → String → Prop
  | between {opening closing : Char} {blanks after : List Char} {target : String}
      (marks : Marks opening closing) (blank : ∀ c ∈ blanks, isBlank c = true)
      (unmarked : closing ∉ target.toList) :
      Includes ("#include".toList ++ (blanks ++ opening :: (target.toList ++ closing :: after))) target

section

variable {text : List Char} {opening closing : Char} {target : String}

theorem Marks.visible (marks : Marks opening closing) :
    isBlank opening = false ∧ isBlank closing = false := by
  cases marks <;> decide

theorem takeWhile_unmarked {before after : List Char} (unmarked : closing ∉ before) :
    (before ++ closing :: after).takeWhile (· != closing) = before := by
  have other : ∀ c ∈ before, (c != closing) = true := fun c member =>
    bne_iff_ne.mpr (ne_of_mem_of_not_mem member unmarked)
  rw [List.takeWhile_append_of_pos other]
  simp

theorem upTo_eq_some_iff : upTo closing text = some target ↔
    ∃ after, text = target.toList ++ closing :: after ∧ closing ∉ target.toList := by
  constructor
  · intro found
    unfold upTo at found
    split at found
    next inside =>
      obtain ⟨before, after, rfl, unmarked⟩ := List.eq_append_cons_of_mem inside
      rw [takeWhile_unmarked unmarked, Option.some.injEq] at found
      subst found
      exact ⟨after, by simp, by simpa using unmarked⟩
    next => cases found
  · rintro ⟨after, rfl, unmarked⟩
    simp [upTo, takeWhile_unmarked unmarked]

theorem upTo_trimRight (visible : isBlank closing = false) :
    upTo closing (trimRight text) = some target ↔ upTo closing text = some target := by
  rw [upTo_eq_some_iff, upTo_eq_some_iff]
  constructor
  · rintro ⟨after, kept, unmarked⟩
    obtain ⟨dropped, split, _⟩ := dropEndWhile_split isBlank text
    have trimmed : dropEndWhile isBlank text = target.toList ++ closing :: after := kept
    exact ⟨after ++ dropped, by simpa [trimmed] using split, unmarked⟩
  · rintro ⟨after, rfl, unmarked⟩
    exact ⟨trimRight after, dropEndWhile_append_cons visible target.toList after, unmarked⟩

theorem between_iff (marks : Marks opening closing) :
    (∃ inner, trim text = opening :: inner ∧ upTo closing inner = some target) ↔
      ∃ blanks after, (∀ c ∈ blanks, isBlank c = true) ∧ closing ∉ target.toList ∧
        text = blanks ++ opening :: (target.toList ++ closing :: after) := by
  constructor
  · rintro ⟨inner, trimmed, found⟩
    obtain ⟨blanks, rest, blank, rfl, rfl⟩ := (trim_eq_cons_iff marks.visible.1).mp trimmed
    rw [upTo_trimRight marks.visible.2, upTo_eq_some_iff] at found
    obtain ⟨after, rfl, unmarked⟩ := found
    exact ⟨blanks, after, blank, unmarked, rfl⟩
  · rintro ⟨blanks, after, blank, unmarked, rfl⟩
    refine ⟨_, (trim_eq_cons_iff marks.visible.1).mpr ⟨blanks, _, blank, rfl, rfl⟩, ?_⟩
    rw [upTo_trimRight marks.visible.2, upTo_eq_some_iff]
    exact ⟨after, rfl, unmarked⟩

theorem includes_iff : Includes text target ↔
    ∃ opening closing rest, Marks opening closing ∧ text = "#include".toList ++ rest ∧
      ∃ inner, trim rest = opening :: inner ∧ upTo closing inner = some target := by
  constructor
  · rintro ⟨marks, blank, unmarked⟩
    exact ⟨_, _, _, marks, rfl, (between_iff marks).mpr ⟨_, _, blank, unmarked, rfl⟩⟩
  · rintro ⟨opening, closing, rest, marks, rfl, found⟩
    obtain ⟨blanks, after, blank, unmarked, rfl⟩ := (between_iff marks).mp found
    exact .between marks blank unmarked

/-- A directive includes what its text says, and nothing else includes anything. -/
theorem includeTarget_eq_some_iff {token : Token} : token.includeTarget = some target ↔
    token.kind = .directive ∧ Includes token.text.toList target := by
  rw [includes_iff]
  constructor
  · intro found
    unfold includeTarget at found
    dsimp only at found
    split at found
    next included =>
      obtain ⟨directive, starts⟩ := included
      obtain ⟨rest, split⟩ := List.isPrefixOf_iff_prefix.mp starts
      rw [← split, List.drop_left] at found
      refine ⟨directive, ?_⟩
      split at found
      next inner trimmed => exact ⟨_, _, rest, .quotes, split.symm, inner, trimmed, found⟩
      next inner trimmed => exact ⟨_, _, rest, .brackets, split.symm, inner, trimmed, found⟩
      next => cases found
    next => cases found
  · rintro ⟨directive, opening, closing, rest, marks, split, inner, trimmed, found⟩
    have starts : "#include".toList.isPrefixOf ("#include".toList ++ rest) = true :=
      List.isPrefixOf_iff_prefix.mpr (List.prefix_append ..)
    unfold includeTarget
    simp only [split, directive, starts, and_self, if_true, List.drop_left, trimmed]
    cases marks <;> exact found

end

end Token

end Adventure
