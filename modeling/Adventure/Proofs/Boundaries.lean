import Adventure.Proofs.Positions

/-!
Where tokens end. What is read next is the longest word of any lexical language, so no token could go on
with the character after it.
-/

namespace Adventure

namespace Token

/-- What is known of a token from the characters after it. -/
structure Delimited (token : Token) (rest : List Char) : Prop where
  longest : Longest (token.text.toList ++ rest) token.kind token.text.toList.length
  operator : token.kind = .operator → ∀ mark ∈ operators,
    mark.toList <+: token.text.toList ++ rest → mark.toList.length ≤ token.text.toList.length
  blockComment : token.kind = .comment → "/*".toList <+: token.text.toList →
    ∃ body, ¬ "*/".toList <:+: body ∧ token.text.toList = "/*".toList ++ (body ++ "*/".toList)
  name : token.kind = .name → ∀ c ∈ rest.head?, isNamePart c = false
  integer : token.kind = .integer → ∀ c ∈ rest.head?, c.isDigit = false
  whitespace : token.kind = .whitespace → ∀ c ∈ rest.head?, isSpace c = false
  string : token.kind = .string → token.isClosedString = false → rest = []

variable {token : Token} {text word rest : List Char} {kind : TokenKind}

theorem Longest.stops {c : Char} (longest : Longest (word ++ c :: rest) kind word.length)
    {other : TokenKind} : ¬ Lexeme other (word ++ [c]) := by
  intro lexeme
  have bound := (longest.longest lexeme ⟨rest, by simp⟩).1
  rw [List.length_append, List.length_singleton] at bound
  omega

theorem Longest.lexeme (longest : Longest (word ++ rest) kind word.length) (valid : kind ≠ .invalid) :
    Lexeme kind word := by
  simpa using longest.word valid

theorem Longest.head_name (longest : Longest (word ++ rest) .name word.length) :
    ∀ c ∈ rest.head?, isNamePart c = false := by
  intro c head
  obtain ⟨others, rfl⟩ := List.head?_eq_some_iff.mp head
  cases part : isNamePart c with
  | false => rfl
  | true =>
      have lexeme := longest.lexeme (by decide)
      cases lexeme with
      | @name first parts start all =>
          have longer : ∀ other ∈ parts ++ [c], isNamePart other = true :=
            List.forall_mem_append.mpr ⟨all, by simpa using part⟩
          exact absurd (Lexeme.name start longer) longest.stops

theorem Longest.head_run {member : Char → Bool} (longest : Longest (word ++ rest) kind word.length)
    (all : ∀ c ∈ word, member c = true)
    (language : ∀ run : List Char, run ≠ [] → (∀ c ∈ run, member c = true) → Lexeme kind run) :
    ∀ c ∈ rest.head?, member c = false := by
  intro c head
  obtain ⟨others, rfl⟩ := List.head?_eq_some_iff.mp head
  cases another : member c with
  | false => rfl
  | true =>
      have longer : ∀ other ∈ word ++ [c], member other = true :=
        List.forall_mem_append.mpr ⟨all, by simpa using another⟩
      exact absurd (language (word ++ [c]) (by simp) longer) longest.stops

theorem Longest.string_end (longest : Longest (word ++ rest) .string word.length)
    (unclosed : ¬ (2 ≤ word.length ∧ word.getLast? = some '"')) : rest = [] := by
  have lexeme := longest.lexeme (by decide)
  cases rest with
  | nil => rfl
  | cons c rest =>
      cases lexeme with
      | @openString body unquoted =>
          by_cases quote : c = '"'
          · subst quote
            exact absurd (Lexeme.closedString unquoted) longest.stops
          · have longer : '"' ∉ body ++ [c] := by simp [unquoted, Ne.symm quote]
            exact absurd (Lexeme.openString longer) longest.stops
      | @closedString body =>
          have last : ('"' :: (body ++ ['"'])).getLast? = some '"' :=
            List.getLast?_concat (l := '"' :: body)
          exact absurd ⟨by simp, last⟩ unclosed

theorem Lexeme.blockComment_body (lexeme : Lexeme .comment word) (opens : "/*".toList <+: word) :
    ∃ body, ¬ "*/".toList <:+: body ∧ word = "/*".toList ++ (body ++ "*/".toList) := by
  cases lexeme with
  | @blockComment body unclosed => exact ⟨body, unclosed, rfl⟩
  | lineComment => simp at opens

theorem Longest.delimited (longest : Longest (token.text.toList ++ rest) token.kind
    token.text.toList.length) : token.Delimited rest where
  longest := longest
  operator _ mark known starts := (longest.longest (.operator known) starts).1
  blockComment same opens := Lexeme.blockComment_body (same ▸ longest.lexeme (by simp [same])) opens
  name same := Longest.head_name (same ▸ longest)
  integer same := by
    rw [same] at longest
    have lexeme := longest.lexeme (by decide)
    refine longest.head_run ?_ fun _ => .integer
    cases lexeme with
    | integer _ all => exact all
  whitespace same := by
    rw [same] at longest
    have lexeme := longest.lexeme (by decide)
    refine longest.head_run ?_ fun _ => .whitespace
    cases lexeme with
    | whitespace _ all => exact all
  string same unclosed := by
    rw [same] at longest
    refine longest.string_end ?_
    simpa [isClosedString] using unclosed

end Token

variable {source : String} {before after : List Token} {token : Token}

theorem tokens_delimited (split : tokens source = before ++ token :: after) :
    token.Delimited (Token.characters after) := by
  have lexeme := (tokens_placed split).lexeme
  have nonempty : token.text.toList ++ Token.characters after ≠ [] := by
    have present := (tokens_cover source).nonempty token (by simp [split])
    simp [present]
  have longest := Token.lexeme_longest nonempty
  rw [lexeme] at longest
  exact longest.delimited

theorem tokens_unclosed (split : tokens source = before ++ token :: after)
    (string : token.kind = .string) (unclosed : token.isClosedString = false) : after = [] := by
  have rest := (tokens_delimited split).string string unclosed
  refine List.eq_nil_iff_forall_not_mem.mpr fun other member => ?_
  have nonempty := (tokens_cover source).nonempty other (by simp [split, member])
  exact nonempty (String.toList_eq_nil_iff.mp (List.flatMap_eq_nil_iff.mp rest other member))

/-- What is read next is the longest word of any lexical language at the cursor, or a single character
where no word starts. So tokens end where their kind says, whatever comes after them. -/
theorem tokens_longest :
    (∀ cursor : Cursor, cursor.rest ≠ [] → ∃ token after, cursor.next? = some (token, after) ∧
      cursor.rest = token.text.toList ++ after.rest ∧
      Token.Longest cursor.rest token.kind token.text.toList.length) ∧
    ∀ (source : String) (before : List Token) (token : Token) (after : List Token),
      tokens source = before ++ token :: after → token.Delimited (Token.characters after) := by
  refine ⟨?_, fun source before token after split => tokens_delimited split⟩
  intro cursor nonempty
  cases read : cursor.next? with
  | none => exact absurd (Cursor.next?_eq_none read) nonempty
  | some next =>
      obtain ⟨token, after⟩ := next
      obtain ⟨rest, _, _, lexeme⟩ := Cursor.next?_eq_some read
      have longest := Token.lexeme_longest nonempty
      rw [lexeme] at longest
      exact ⟨token, after, rfl, rest, longest⟩

end Adventure
