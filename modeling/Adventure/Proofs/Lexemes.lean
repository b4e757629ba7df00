import Adventure.Proofs.Lexing

/-!
The tokens of any source text. Each has a text of its kind, and each starts after the one before it.
-/

namespace Adventure

namespace Position

def Precedes (first second : Position) : Prop :=
  first.line < second.line ∨ first.line = second.line ∧ first.character < second.character

variable {first second third : Position}

theorem Precedes.trans (before : Precedes first second) (after : Precedes second third) :
    Precedes first third := by
  unfold Precedes at *
  omega

theorem precedes_after (position : Position) (c : Char) : Precedes position (position.after c) := by
  unfold Precedes after
  split
  · exact .inl (Nat.lt_succ_self _)
  · exact .inr ⟨rfl, Nat.lt_succ_self _⟩

theorem precedes_afterAll (position : Position) {text : List Char} (nonempty : text ≠ []) :
    Precedes position (position.afterAll text) := by
  induction text generalizing position with
  | nil => exact absurd rfl nonempty
  | cons c others ih =>
      rw [afterAll_cons]
      cases others with
      | nil => exact precedes_after position c
      | cons next others => exact (precedes_after position c).trans (ih _ (by simp))

end Position

namespace Token

open Word

/-- The text of a token is one of its kind. Only strings may lack something: the closing quote. -/
structure Lexical (token : Token) : Prop where
  name_iff : isNameText token.text = true ↔ token.kind = .name
  integer : token.kind = .integer → isIntegerText token.text = true
  string : token.kind = .string → token.isClosedString = true → isStringText token.text = true
  operator : token.kind = .operator → token.text ∈ operators

theorem take_runLength (member : Char → Bool) (text : List Char) :
    text.take (runLength member text) = text.takeWhile member :=
  (List.prefix_iff_eq_take.mp (List.takeWhile_prefix member)).symm

variable {text : List Char}

theorem isNameText_take (positive : 0 < nameLength text) :
    isNameText (String.ofList (text.take (nameLength text))) = true := by
  cases text with
  | nil => simp [nameLength] at positive
  | cons c rest =>
      by_cases start : isNameStart c = true
      · have length : nameLength (c :: rest) = runLength isNamePart rest + 1 := by simp [nameLength, start]
        rw [length, List.take_succ_cons, take_runLength]
        simp only [isNameText, String.toList_ofList, start, Bool.true_and]
        exact List.all_takeWhile
      · simp [nameLength, start] at positive

theorem isIntegerText_take (positive : 0 < integerLength text) :
    isIntegerText (String.ofList (text.take (integerLength text))) = true := by
  unfold integerLength at positive ⊢
  have nonempty : text.takeWhile Char.isDigit ≠ [] := List.length_pos_iff.mp positive
  rw [take_runLength, isIntegerText, String.toList_ofList]
  simp only [Bool.and_eq_true, bne_iff_ne, ne_eq]
  exact ⟨nonempty, List.all_takeWhile⟩

theorem mem_operators_take (positive : 0 < operatorLength text) :
    String.ofList (text.take (operatorLength text)) ∈ operators := by
  unfold operatorLength at positive ⊢
  cases found : operators.find? (·.toList.isPrefixOf text) with
  | none => simp [found] at positive
  | some mark =>
      have fits : mark.toList.isPrefixOf text = true := by simpa using List.find?_some found
      obtain ⟨rest, rfl⟩ := List.isPrefixOf_iff_prefix.mp fits
      have length : mark.length = mark.toList.length := String.length_toList.symm
      simp only [Option.map_some, Option.getD_some, length, List.take_left, String.ofList_toList]
      exact List.mem_of_find?_eq_some found

theorem take_quote {rest : List Char} (stops : runLength (· != '"') rest < rest.length) :
    rest.take (runLength (· != '"') rest + 1) = rest.takeWhile (· != '"') ++ ['"'] := by
  induction rest with
  | nil => simp at stops
  | cons c others ih =>
      by_cases quote : c = '"'
      · subst quote
        simp [runLength]
      · have length : runLength (· != '"') (c :: others) = runLength (· != '"') others + 1 := by
          simp [runLength, quote]
        rw [length, List.length_cons] at stops
        rw [length, List.take_succ_cons, ih (by omega)]
        simp [quote]

theorem stringLength_pos (positive : 0 < stringLength text) : ∃ rest, text = '"' :: rest := by
  cases text with
  | nil => simp [stringLength] at positive
  | cons c rest =>
      by_cases quote : c = '"'
      · exact ⟨rest, by rw [quote]⟩
      · simp [stringLength_of_ne quote] at positive

theorem isStringText_take (span : Span) (rest : List Char)
    (closed : isClosedString ⟨.string, String.ofList
      (('"' :: rest).take (stringLength ('"' :: rest))), span⟩ = true) :
    isStringText (String.ofList (('"' :: rest).take (stringLength ('"' :: rest)))) = true := by
  simp only [stringLength] at closed ⊢
  by_cases stops : runLength (· != '"') rest < rest.length
  · rw [if_pos stops, List.take_succ_cons, take_quote stops]
    simp [isStringText]
  · have whole : rest.takeWhile (· != '"') = rest :=
      (List.takeWhile_prefix _).eq_of_length_le (by simpa [runLength] using stops)
    have inner : rest.all (· != '"') = true := by
      rw [← whole]
      exact List.all_takeWhile
    rw [if_neg stops, List.take_succ_cons, take_runLength, whole] at closed
    simp only [isClosedString, String.toList_ofList, Bool.and_eq_true, decide_eq_true_eq,
      beq_iff_eq, List.length_cons] at closed
    cases rest with
    | nil => simp at closed
    | cons c others =>
        rw [List.getLast?_cons_cons] at closed
        have quote := List.all_eq_true.mp inner '"' (List.mem_of_getLast? closed.2)
        simp at quote

theorem isNameText_lexeme (nonempty : text ≠ []) :
    isNameText (String.ofList (text.take (lexeme text).2)) = true ↔ (lexeme text).1 = .name := by
  cases text with
  | nil => exact absurd rfl nonempty
  | cons c rest =>
      rw [lexeme_kind_eq_name_iff]
      by_cases start : isNameStart c = true
      · have positive : 0 < nameLength (c :: rest) := by simp [nameLength, start]
        have length : nameLength (c :: rest) = runLength isNamePart rest + 1 := by
          simp [nameLength, start]
        have text := isNameText_take positive
        rw [length] at text
        rw [lexeme_name start]
        exact ⟨fun _ => start, fun _ => text⟩
      · obtain ⟨length, positive⟩ := Nat.exists_eq_add_of_lt (lexeme_pos (c :: rest))
        rw [Nat.zero_add] at positive
        rw [positive, List.take_succ_cons]
        simp [isNameText, start]

theorem length_eq_of_kind {kind : TokenKind} {measure : List Char → Nat}
    (same : (lexeme text).1 = kind) (valid : kind ≠ .invalid)
    (only : ∀ rule ∈ rules, rule.kind = kind → rule.length = measure) :
    measure text = (lexeme text).2 := by
  unfold lexeme at same ⊢
  cases found : longest rules text with
  | none =>
      rw [found] at same
      exact absurd same.symm valid
  | some best =>
      obtain ⟨rule, member, kind', length⟩ := longest_rule found
      rw [found] at same
      rw [only rule member (kind'.trans same)] at length
      exact length

theorem lexical_lexeme (span : Span) (nonempty : text ≠ []) :
    Lexical ⟨(lexeme text).1, String.ofList (text.take (lexeme text).2), span⟩ := by
  have positive := lexeme_pos text
  refine ⟨isNameText_lexeme nonempty, fun kind => ?_, fun kind closed => ?_, fun kind => ?_⟩
  · have length : integerLength text = (lexeme text).2 :=
      length_eq_of_kind kind (by decide) (by simp [rules])
    rw [← length] at positive ⊢
    exact isIntegerText_take positive
  · have length : stringLength text = (lexeme text).2 :=
      length_eq_of_kind kind (by decide) (by simp [rules])
    simp only at kind closed ⊢
    rw [kind, ← length] at closed
    rw [← length] at positive ⊢
    obtain ⟨rest, rfl⟩ := stringLength_pos positive
    exact isStringText_take span rest closed
  · have length : operatorLength text = (lexeme text).2 :=
      length_eq_of_kind kind (by decide) (by simp [rules])
    rw [← length] at positive ⊢
    exact mem_operators_take positive

end Token

namespace Cursor

variable {cursor after : Cursor} {token : Token}

theorem next?_token (read : cursor.next? = some (token, after)) :
    token.Lexical ∧ token.span.start = cursor.position ∧ cursor.position.Precedes after.position := by
  unfold next? at read
  split at read
  · simp at read
  · rename_i nonempty
    have present : cursor.rest ≠ [] := by simpa using nonempty
    have positive := Token.lexeme_pos cursor.rest
    simp only [Option.some.injEq, Prod.mk.injEq] at read
    obtain ⟨rfl, rfl⟩ := read
    refine ⟨Token.lexical_lexeme _ present, rfl, Position.precedes_afterAll _ ?_⟩
    simp only [ne_eq, List.take_eq_nil_iff, not_or]
    exact ⟨by omega, present⟩

theorem readWithin_ordered (count : Nat) (cursor : Cursor) :
    let tokens := (readWithin count cursor).1
    (∀ token ∈ tokens, token.Lexical ∧
      (token.span.start = cursor.position ∨ cursor.position.Precedes token.span.start)) ∧
    tokens.Pairwise (·.span.start.Precedes ·.span.start) := by
  induction count generalizing cursor with
  | zero => simp [readWithin]
  | succ count ih =>
      simp only [readWithin]
      cases read : cursor.next? with
      | none => simp
      | some found =>
          obtain ⟨token, after⟩ := found
          obtain ⟨lexical, start, onward⟩ := next?_token read
          obtain ⟨others, ordered⟩ := ih after
          have later : ∀ other ∈ (readWithin count after).1,
              cursor.position.Precedes other.span.start := by
            intro other member
            rcases (others other member).2 with same | later
            · rw [same]
              exact onward
            · exact onward.trans later
          constructor
          · intro other member
            rcases List.mem_cons.mp member with rfl | member
            · exact ⟨lexical, .inl start⟩
            · exact ⟨(others other member).1, .inr (later other member)⟩
          · refine .cons (fun other member => ?_) ordered
            rw [start]
            exact later other member

end Cursor

theorem tokens_lexical (source : String) : ∀ token ∈ tokens source, token.Lexical :=
  fun token member => ((Cursor.readWithin_ordered _ _).1 token member).1

/-- Each token of a source starts after the tokens before it. -/
theorem tokens_ordered (source : String) :
    (tokens source).Pairwise (·.span.start.Precedes ·.span.start) :=
  (Cursor.readWithin_ordered _ _).2

end Adventure
