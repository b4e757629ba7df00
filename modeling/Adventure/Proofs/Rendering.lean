import Adventure.Diagnostic.Render
import Adventure.Document
import Adventure.Proofs.Positions
import Adventure.Proofs.Trimming

/-!
Diagnostics as people see them. The caret of a diagnostic stands under the first character of the token
that the diagnostic begins at, in the line of the source that the token begins in.
-/

namespace Adventure

namespace Text

theorem lines_append (first rest : List Char) :
    lines (first ++ '\n' :: rest) = lines first ++ lines rest := by
  induction first with
  | nil => simp [lines]
  | cons c others ih =>
      by_cases feed : c = '\n'
      · simp [lines, feed, ih]
      · simp only [List.cons_append, lines, feed, if_false, ih]
        cases split : lines others with
        | nil => exact absurd split (lines_ne_nil others)
        | cons line more => rfl

theorem lines_of_not_mem {text : List Char} (single : '\n' ∉ text) : lines text = [text] := by
  induction text with
  | nil => rfl
  | cons c rest ih =>
      rw [List.mem_cons, not_or] at single
      have other : c ≠ '\n' := Ne.symm single.1
      simp [lines, other, ih single.2]

theorem not_mem_line (source : List Char) (number : Nat) : '\n' ∉ line source number := by
  intro member
  have inside := dropEndWhile_subset _ _ member
  cases found : (lines source)[number]? with
  | none => simp [found] at inside
  | some text =>
      rw [found] at inside
      exact not_mem_of_mem_lines (List.mem_of_getElem? found) inside

end Text

open Text Token

namespace Token

/-- A token starts in the line and at the character that its position says, unless it starts with the end
of a line. -/
theorem first_character {source : String} {token : Token} (member : token ∈ tokens source) {c : Char}
    (first : token.text.toList.head? = some c) (other : c ≠ '\n') :
    ∃ own, (lines source.toList)[token.span.start.line]? = some own ∧
      own[token.span.start.character]? = some c := by
  obtain ⟨before, after, split⟩ := List.append_of_mem member
  obtain ⟨text, shape⟩ := List.head?_eq_some_iff.mp first
  have following := (tokens_located split).following
  rw [shape, List.cons_append] at following
  unfold Text.following at following
  cases rest : ((lines source.toList)[token.span.start.line]?.getD []).drop token.span.start.character with
  | nil =>
      -- The line would end here, and what follows would start with the end of it.
      rw [rest] at following
      cases later : (lines source.toList).drop (token.span.start.line + 1) with
      | nil => simp [later] at following
      | cons next others =>
          rw [later, List.intercalate_cons_cons] at following
          exact absurd (List.cons.inj following).1.symm other
  | cons d others =>
      have same : d = c := by
        rw [rest] at following
        cases later : (lines source.toList).drop (token.span.start.line + 1) <;>
          simp_all [List.intercalate_cons_cons]
      subst same
      have found : ((lines source.toList)[token.span.start.line]?.getD [])[token.span.start.character]? =
          some d := by
        rw [← List.head?_drop, rest]
        rfl
      cases here : (lines source.toList)[token.span.start.line]? with
      | none => simp [here] at found
      | some line => exact ⟨line, rfl, by simpa [here] using found⟩

end Token

namespace Diagnostic

/-- What is shown of a line: all of it but the spaces and tabs at its start and the blanks at its end. -/
structure Shows (line shown : List Char) : Prop where
  parts : ∃ before after, line = before ++ (shown ++ after) ∧
    (∀ c ∈ before, isIndent c = true) ∧ ∀ c ∈ after, isBlank c = true
  start : ∀ c ∈ shown.head?, isIndent c = false
  stop : ∀ c ∈ shown.getLast?, isBlank c = false

section

variable {text : List Char} {c : Char} {index : Nat}

theorem drop_indent (text : List Char) : text.drop (indent text) = text.dropWhile isIndent := by
  have whole : text = text.takeWhile isIndent ++ text.dropWhile isIndent :=
    List.takeWhile_append_dropWhile.symm
  calc text.drop (indent text)
      = (text.takeWhile isIndent ++ text.dropWhile isIndent).drop (indent text) := by rw [← whole]
    _ = text.dropWhile isIndent := List.drop_left

theorem shows_trimmed {line returns : List Char} (split : line = text ++ returns)
    (blank : ∀ c ∈ returns, isBlank c = true) :
    Shows line (trimRight (text.drop (indent text))) := by
  obtain ⟨blanks, rest, allBlank⟩ := dropEndWhile_split isBlank (text.drop (indent text))
  have front : text = text.takeWhile isIndent ++ text.drop (indent text) := by
    rw [drop_indent, List.takeWhile_append_dropWhile]
  refine ⟨⟨text.takeWhile isIndent, blanks ++ returns, ?_, ?_, ?_⟩, ?_, dropEndWhile_last _ _⟩
  · calc line = text.takeWhile isIndent ++ text.drop (indent text) ++ returns := by rw [split, ← front]
      _ = text.takeWhile isIndent ++ (trimRight (text.drop (indent text)) ++ blanks) ++ returns := by
          rw [trimRight, ← rest]
      _ = text.takeWhile isIndent ++
            (trimRight (text.drop (indent text)) ++ (blanks ++ returns)) := by
          simp only [List.append_assoc]
  · exact fun c member => List.mem_takeWhile_imp member
  · exact List.forall_mem_append.mpr ⟨allBlank, blank⟩
  · intro c first
    have head : (text.dropWhile isIndent).head? = some c := by
      rw [trimRight, Option.mem_def] at first
      rw [← drop_indent, rest, List.head?_append, first]
      rfl
    have kept := List.head?_dropWhile_not isIndent text
    rwa [head] at kept

theorem getElem?_trimmed (found : text[index]? = some c) (visible : isBlank c = false) :
    indent text ≤ index ∧ (trimRight (text.drop (indent text)))[index - indent text]? = some c := by
  have unindented : isIndent c = false := by
    cases indents : isIndent c with
    | false => rfl
    | true =>
        simp only [isIndent, Bool.or_eq_true, beq_iff_eq] at indents
        rcases indents with rfl | rfl <;> simp [isBlank] at visible
  have reached : indent text ≤ index := by
    by_contra before
    have within : text.takeWhile isIndent <+: text := List.takeWhile_prefix _
    have inside : index < (text.takeWhile isIndent).length := Nat.lt_of_not_le before
    have same : (text.takeWhile isIndent)[index]? = some c := by
      rw [← found, List.prefix_iff_getElem?.mp within index inside, List.getElem?_eq_getElem inside]
    simp [List.mem_takeWhile_imp (List.mem_of_getElem? same)] at unindented
  refine ⟨reached, getElem?_dropEndWhile ?_ visible⟩
  rw [List.getElem?_drop, Nat.add_sub_cancel' reached]
  exact found

end

def numbered (source : String) (number : Nat) : List Char :=
  let text := line source.toList number
  (toString (number + 1)).toList ++ " | ".toList ++ trimRight (text.drop (indent text))

def pointer (diagnostic : Diagnostic) (source : String) : List Char :=
  gutter (toString (diagnostic.span.start.line + 1)).length ++
    ' ' :: caret (diagnostic.caretOffset source)

theorem lines_render (diagnostic : Diagnostic) (source file : String) :
    ∃ above, lines (diagnostic.render source file).toList =
      above ++ [numbered source diagnostic.span.start.line, diagnostic.pointer source, []] := by
  let number := toString (diagnostic.span.start.line + 1)
  have split : (diagnostic.render source file).toList =
      (diagnostic.severity.label ++ ": " ++ diagnostic.message ++ "\n" ++ "-> " ++ file ++ "\n" ++
        String.ofList (gutter number.length)).toList ++ '\n' ::
          (numbered source diagnostic.span.start.line ++ '\n' :: (diagnostic.pointer source ++ ['\n'])) := by
    simp [render, numbered, pointer, number]
  have digits : '\n' ∉ (toString (diagnostic.span.start.line + 1)).toList := by
    intro member
    have digit := Nat.isDigit_of_mem_toDigits (by decide) (by decide) (Nat.toList_repr ▸ member)
    simp at digit
  have within : '\n' ∉ numbered source diagnostic.span.start.line := by
    simp only [numbered, List.mem_append, not_or]
    refine ⟨⟨digits, by decide⟩, fun member => not_mem_line source.toList diagnostic.span.start.line ?_⟩
    exact List.mem_of_mem_drop (dropEndWhile_subset isBlank _ member)
  have pointing : '\n' ∉ diagnostic.pointer source := by
    simp [pointer, gutter, caret]
  rw [split, lines_append, lines_append, lines_append, lines_of_not_mem within, lines_of_not_mem pointing]
  exact ⟨_, rfl⟩

/-- How a rendering ends that points at the character `c` of the source: with the source line, shown after
its number, and a line whose one caret is its last character and stands under `c`. -/
structure Points (diagnostic : Diagnostic) (source file : String) (c : Char) (shown pointer : List Char) :
    Prop where
  rendered : ∃ above, lines (diagnostic.render source file).toList = above ++ [shown, pointer, []]
  line : ∃ line text, (lines source.toList)[diagnostic.span.start.line]? = some line ∧ Shows line text ∧
    shown = (toString (diagnostic.span.start.line + 1)).toList ++ " | ".toList ++ text
  single : pointer.count '^' = 1
  last : pointer.getLast? = some '^'
  column : ∃ column : Nat, pointer[column]? = some '^' ∧ shown[column]? = some c

theorem points {diagnostic : Diagnostic} {source file : String} {token : Token} {c : Char}
    (member : token ∈ tokens source) (begins : diagnostic.span.start = token.span.start)
    (first : token.text.toList.head? = some c) (visible : isBlank c = false) :
    diagnostic.Points source file c (numbered source diagnostic.span.start.line)
      (diagnostic.pointer source) := by
  have other : c ≠ '\n' := by
    rintro rfl
    simp [isBlank] at visible
  obtain ⟨line, found, here⟩ := first_character member first other
  rw [← begins] at found here
  obtain ⟨returns, split, allReturns⟩ := dropEndWhile_split (· == '\r') line
  have trimmed : Text.line source.toList diagnostic.span.start.line = dropEndWhile (· == '\r') line := by
    simp [Text.line, found]
  rw [← trimmed] at split
  have unreturned : (c == '\r') = false := by
    rw [beq_eq_false_iff_ne]
    rintro rfl
    simp [isBlank] at visible
  have kept : (Text.line source.toList diagnostic.span.start.line)[diagnostic.span.start.character]? =
      some c := trimmed ▸ getElem?_dropEndWhile here unreturned
  obtain ⟨reached, shown⟩ := getElem?_trimmed kept visible
  refine ⟨lines_render diagnostic source file, ⟨line, _, found, shows_trimmed split ?_, rfl⟩, ?_, ?_, ?_⟩
  · intro d dropped
    obtain rfl := eq_of_beq (allReturns d dropped)
    decide
  · simp [pointer, gutter, caret, List.count_replicate]
  · simp [pointer, caret, List.getLast?_cons]
  · -- Both lines have as many columns before the text of the source line.
    let number := (toString (diagnostic.span.start.line + 1)).toList
    let before := number ++ " | ".toList
    let dashes := gutter number.length ++ ' ' :: List.replicate (diagnostic.caretOffset source) '-'
    have width : before.length = number.length + 3 := by simp [before]
    have reach : dashes.length = before.length + diagnostic.caretOffset source := by
      simp [dashes, width, gutter]
      omega
    have pointing : diagnostic.pointer source = dashes ++ ['^'] := by
      simp only [pointer, caret, dashes, number, String.length_toList, List.append_assoc, List.cons_append]
    refine ⟨before.length + diagnostic.caretOffset source, ?_, ?_⟩
    · rw [pointing, ← reach]
      exact List.getElem?_concat_length
    · rw [numbered, List.getElem?_append_right (Nat.le_add_right _ _), Nat.add_sub_cancel_left]
      exact shown

end Diagnostic

namespace Document

/-- Each diagnostic of a document that begins at a token with something to see at its start points there
when it is shown: the line above the caret is the one in the source, and it has the token's first character
where the caret is. The coordinates of a source of fewer than 2^32 characters are numbers of 32 bits. -/
theorem parse_pointed (options : Options) {source : String} (small : source.length < 2 ^ 32)
    (file : String) : ∀ diagnostic ∈ (parse Grammar.standard options source).diagnostics,
      ∀ token ∈ tokens source, diagnostic.span.start = token.span.start →
      ∀ c, token.text.toList.head? = some c → isBlank c = false →
        (∃ shown pointer, diagnostic.Points source file c shown pointer) ∧
          (diagnostic.caretOffset source < Diagnostic.fieldLimit →
            diagnostic.display source file = .ok (diagnostic.render source file)) ∧
          diagnostic.span.start.line < 2 ^ 32 ∧ diagnostic.span.start.character < 2 ^ 32 := by
  intro diagnostic _ token member begins c first visible
  refine ⟨⟨_, _, Diagnostic.points member begins first visible⟩, fun near => ?_, ?_⟩
  · exact Diagnostic.display_eq_ok_iff.mpr ⟨near, rfl⟩
  · obtain ⟨before, after, split⟩ := List.append_of_mem member
    have read : characters before <+: source.toList := by
      rw [← characters_tokens source, split]
      exact ⟨characters (token :: after), by simp [characters]⟩
    have bounds := (tokens_positions small).2.2 _ read
    rw [Position.afterAll_start, ← (tokens_located split).start, ← begins] at bounds
    exact bounds

theorem parse_pointed_foreign :
    let source := "x();\n\t int é;\r\n"
    let diagnostic : Diagnostic := ⟨.invalidCharacter "é", ⟨⟨1, 6⟩, ⟨1, 7⟩⟩, .error⟩
    source.length < 2 ^ 32 ∧
      diagnostic ∈ (parse Grammar.standard Options.default source).diagnostics ∧
      (⟨.invalid, "é", ⟨⟨1, 6⟩, ⟨1, 7⟩⟩⟩ : Token) ∈ tokens source ∧ isBlank 'é' = false ∧
      ∃ shown pointer, diagnostic.Points source "room.fl" 'é' shown pointer := by
  have small : "x();\n\t int é;\r\n".length < 2 ^ 32 := by decide
  have reported : (⟨.invalidCharacter "é", ⟨⟨1, 6⟩, ⟨1, 7⟩⟩, .error⟩ : Diagnostic) ∈
      (parse Grammar.standard Options.default "x();\n\t int é;\r\n").diagnostics := by decide +kernel
  have member : (⟨.invalid, "é", ⟨⟨1, 6⟩, ⟨1, 7⟩⟩⟩ : Token) ∈ tokens "x();\n\t int é;\r\n" := by
    decide +kernel
  have visible : isBlank 'é' = false := by decide
  exact ⟨small, reported, member, visible,
    (parse_pointed Options.default small "room.fl" _ reported _ member rfl _ rfl visible).1⟩

example :
    let diagnostic : Diagnostic := ⟨.invalidCharacter "é", ⟨⟨1, 6⟩, ⟨1, 7⟩⟩, .error⟩
    diagnostic.render "x();\n\t int é;\r\n" "room.fl" =
      "Error: Invalid character 'é'\n-> room.fl\n  |\n2 | int é;\n  | ----^\n" := by
  decide +kernel

end Document

end Adventure
