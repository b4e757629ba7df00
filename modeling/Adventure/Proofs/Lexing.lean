import Adventure.Token.Cursor
import Mathlib.Data.List.Find

/-!
Lexing, read backwards. Words that blanks separate come out of lexing as they were; and whether a
token is a name shows in its first character.
-/

namespace Adventure

/-- A token without its place. -/
structure Word where
  kind : TokenKind
  text : String
deriving DecidableEq

def Token.word (token : Token) : Word := ⟨token.kind, token.text⟩

def Token.isSignificant (token : Token) : Bool := !token.kind.isTrivia

def Token.words (tokens : List Token) : List Word := (tokens.filter isSignificant).map word

namespace Token

theorem words_append (first second : List Token) :
    words (first ++ second) = words first ++ words second := by
  simp [words]

theorem words_cons (token : Token) (others : List Token) :
    words (token :: others) = (if token.isSignificant then [token.word] else []) ++ words others := by
  cases significant : token.isSignificant <;> simp [words, significant]

/-! The first character of a lexeme. -/

def isMark (c : Char) : Bool := operators.any (·.toList.head? == some c)

theorem isMark_of_mem : ∀ mark ∈ operators, mark.toList.head?.all (fun c =>
    !isNameStart c && !c.isDigit && c != '"' && c != '#' && !isSpace c) = true := by
  decide

theorem isMark_cases {c : Char} (mark : isMark c = true) : isNameStart c = false ∧
    c.isDigit = false ∧ c ≠ '"' ∧ c ≠ '#' ∧ isSpace c = false := by
  simp only [isMark, List.any_eq_true, beq_iff_eq] at mark
  obtain ⟨text, member, start⟩ := mark
  have apart := isMark_of_mem text member
  simpa [start, and_assoc] using apart

theorem isNameStart_of_isDigit {c : Char} (digit : c.isDigit = true) : isNameStart c = false := by
  cases start : isNameStart c with
  | false => rfl
  | true =>
      delta isNameStart Char.isAlpha Char.isUpper Char.isLower at start
      simp only [Char.isDigit, Bool.or_eq_true, Bool.and_eq_true, decide_eq_true_eq, beq_iff_eq,
        ge_iff_le, UInt32.le_iff_toNat_le] at start digit
      change 48 ≤ c.toNat ∧ c.toNat ≤ 57 at digit
      change ((65 ≤ c.toNat ∧ c.toNat ≤ 90) ∨ (97 ≤ c.toNat ∧ c.toNat ≤ 122)) ∨ c = '_' at start
      rcases start with (upper | lower) | rfl
      · omega
      · omega
      · revert digit
        decide

theorem isMark_of_isNameStart {c : Char} (start : isNameStart c = true) : isMark c = false := by
  cases mark : isMark c with
  | false => rfl
  | true => simp [(isMark_cases mark).1] at start

theorem isMark_of_isDigit {c : Char} (digit : c.isDigit = true) : isMark c = false := by
  cases mark : isMark c with
  | false => rfl
  | true => simp [(isMark_cases mark).2.1] at digit

theorem isSpace_cases {c : Char} (space : isSpace c = true) :
    isNameStart c = false ∧ c.isDigit = false ∧ c ≠ '"' ∧ c ≠ '#' ∧ isMark c = false := by
  simp only [isSpace, Bool.or_eq_true, beq_iff_eq] at space
  rcases space with ((rfl | rfl) | rfl) | rfl <;> decide

variable {c : Char} {rest : List Char}

theorem comment_length_of_isMark (other : isMark c = false) :
    blockCommentLength (c :: rest) = 0 ∧ lineCommentLength (c :: rest) = 0 := by
  have slash : c ≠ '/' := by
    rintro rfl
    revert other
    decide
  constructor
  · unfold blockCommentLength
    split
    · rename_i split
      exact absurd (List.cons.inj split).1 slash
    · rfl
  · unfold lineCommentLength
    split
    · rename_i split
      exact absurd (List.cons.inj split).1 slash
    · rfl

theorem operatorLength_of_isMark (other : isMark c = false) : operatorLength (c :: rest) = 0 := by
  have unfit : operators.find? (·.toList.isPrefixOf (c :: rest)) = none := by
    rw [List.find?_eq_none]
    intro mark member fits
    simp only [isMark, List.any_eq_false, beq_iff_eq] at other
    cases text : mark.toList with
    | nil =>
        have nonempty : ∀ mark ∈ operators, mark.toList ≠ [] := by decide
        exact nonempty mark member text
    | cons first others =>
        simp only [text, List.isPrefixOf, Bool.and_eq_true, beq_iff_eq] at fits
        exact other mark member (by rw [text, fits.1]; rfl)
  simp [operatorLength, unfit]

theorem nameLength_of_isNameStart (other : isNameStart c = false) : nameLength (c :: rest) = 0 := by
  simp [nameLength, other]

theorem integerLength_of_isDigit (other : c.isDigit = false) : integerLength (c :: rest) = 0 := by
  simp [integerLength, runLength, other]

theorem spaceLength_of_isSpace (other : isSpace c = false) : spaceLength (c :: rest) = 0 := by
  simp [spaceLength, runLength, other]

theorem stringLength_of_ne (other : c ≠ '"') : stringLength (c :: rest) = 0 := by
  unfold stringLength
  split
  · rename_i split
    exact absurd (List.cons.inj split).1 other
  · rfl

theorem directiveLength_of_ne (other : c ≠ '#') : directiveLength (c :: rest) = 0 := by
  unfold directiveLength
  split
  · rename_i split
    exact absurd (List.cons.inj split).1 other
  · rfl

theorem lexeme_name (start : isNameStart c = true) :
    lexeme (c :: rest) = (.name, runLength isNamePart rest + 1) := by
  have mark := isMark_of_isNameStart start
  have digit : c.isDigit = false := by
    cases digit : c.isDigit with
    | false => rfl
    | true => simp [isNameStart_of_isDigit digit] at start
  have space : isSpace c = false := by
    cases space : isSpace c with
    | false => rfl
    | true => simp [(isSpace_cases space).1] at start
  have quote : c ≠ '"' := by
    rintro rfl
    revert start
    decide
  have hash : c ≠ '#' := by
    rintro rfl
    revert start
    decide
  simp [lexeme, rules, longest, comment_length_of_isMark mark, operatorLength_of_isMark mark,
    integerLength_of_isDigit digit, spaceLength_of_isSpace space, stringLength_of_ne quote,
    directiveLength_of_ne hash, nameLength, start]

theorem longest_rule {rules : List Rule} {text : List Char} {kind : TokenKind} {length : Nat}
    (found : longest rules text = some (kind, length)) :
    ∃ rule ∈ rules, rule.kind = kind ∧ rule.length text = length := by
  induction rules generalizing kind length with
  | nil => simp [longest] at found
  | cons rule others ih =>
      simp only [longest] at found
      cases inner : longest others text with
      | none =>
          simp only [inner] at found
          split at found
          · simp only [Option.some.injEq, Prod.mk.injEq] at found
            exact ⟨rule, by simp, found⟩
          · simp at found
      | some best =>
          obtain ⟨kind', other⟩ := best
          simp only [inner] at found
          split at found
          · simp only [Option.some.injEq, Prod.mk.injEq] at found
            exact ⟨rule, by simp, found⟩
          · simp only [Option.some.injEq, Prod.mk.injEq] at found
            obtain ⟨rfl, rfl⟩ := found
            obtain ⟨rule', member, same⟩ := ih inner
            exact ⟨rule', by simp [member], same⟩

theorem lexeme_kind_eq_name_iff : (lexeme (c :: rest)).1 = .name ↔ isNameStart c = true := by
  constructor
  · intro name
    unfold lexeme at name
    cases found : longest rules (c :: rest) with
    | none => simp [found] at name
    | some best =>
        obtain ⟨kind, length⟩ := best
        have positive := longest_pos found
        simp only [found, Option.getD_some] at name
        obtain ⟨rule, member, same, measured⟩ := longest_rule found
        subst name
        have only : rule.length = nameLength := by
          simp only [rules, List.mem_cons, List.not_mem_nil, or_false] at member
          rcases member with rfl | rfl | rfl | rfl | rfl | rfl | rfl | rfl <;> simp at same ⊢
        cases start : isNameStart c with
        | true => rfl
        | false =>
            rw [only, nameLength_of_isNameStart start] at measured
            omega
  · intro start
    rw [lexeme_name start]

theorem lexeme_integer (digit : c.isDigit = true) :
    lexeme (c :: rest) = (.integer, runLength Char.isDigit rest + 1) := by
  have mark := isMark_of_isDigit digit
  have start := isNameStart_of_isDigit digit
  have space : isSpace c = false := by
    cases space : isSpace c with
    | false => rfl
    | true => simp [(isSpace_cases space).2.1] at digit
  have quote : c ≠ '"' := by
    rintro rfl
    revert digit
    decide
  have hash : c ≠ '#' := by
    rintro rfl
    revert digit
    decide
  simp [lexeme, rules, longest, comment_length_of_isMark mark, operatorLength_of_isMark mark,
    nameLength_of_isNameStart start, spaceLength_of_isSpace space, stringLength_of_ne quote,
    directiveLength_of_ne hash, integerLength, runLength, digit]

theorem lexeme_string : lexeme ('"' :: rest) = (.string, stringLength ('"' :: rest)) := by
  have mark : isMark '"' = false := by decide
  have start : isNameStart '"' = false := by decide
  have digit : Char.isDigit '"' = false := by decide
  have space : isSpace '"' = false := by decide
  have positive : 0 < stringLength ('"' :: rest) := by
    simp only [stringLength]
    split <;> omega
  simp [lexeme, rules, longest, comment_length_of_isMark mark, operatorLength_of_isMark mark,
    nameLength_of_isNameStart start, spaceLength_of_isSpace space, integerLength_of_isDigit digit,
    directiveLength, positive, Nat.ne_of_gt positive]

theorem lexeme_space (space : isSpace c = true) :
    lexeme (c :: rest) = (.whitespace, runLength isSpace rest + 1) := by
  obtain ⟨start, digit, quote, hash, mark⟩ := isSpace_cases space
  simp [lexeme, rules, longest, comment_length_of_isMark mark, operatorLength_of_isMark mark,
    nameLength_of_isNameStart start, stringLength_of_ne quote, integerLength_of_isDigit digit,
    directiveLength_of_ne hash, spaceLength, runLength, space]

def isDelimiter (c : Char) : Bool := isSpace c || c == ';'

def atDelimiter : List Char → Bool
  | [] => true
  | c :: _ => isDelimiter c

theorem isDelimiter_cases {c : Char} (delimiter : isDelimiter c = true) :
    isNamePart c = false ∧ c.isDigit = false := by
  simp only [isDelimiter, isSpace, Bool.or_eq_true, beq_iff_eq] at delimiter
  rcases delimiter with (((rfl | rfl) | rfl) | rfl) | rfl <;> decide

theorem isPrefixOf_append_delimiter {mark word : List Char}
    (solid : ∀ c ∈ mark, isDelimiter c = false) (ends : atDelimiter rest = true) :
    mark.isPrefixOf (word ++ rest) = mark.isPrefixOf word := by
  induction word generalizing mark with
  | nil =>
      cases mark with
      | nil => rfl
      | cons first others =>
          cases rest with
          | nil => rfl
          | cons c rest =>
              have differs : first ≠ c := by
                rintro rfl
                have apart := solid first (by simp)
                have delimiter : isDelimiter first = true := ends
                simp [apart] at delimiter
              simp [List.isPrefixOf, differs]
  | cons first word ih =>
      cases mark with
      | nil => rfl
      | cons start others =>
          rw [List.forall_mem_cons] at solid
          simp only [List.cons_append, List.isPrefixOf, ih solid.2]

theorem isPrefixOf_cons_append_delimiter {mark : List Char} (word : List Char)
    (solid : ∀ c ∈ mark.tail, isDelimiter c = false) (ends : atDelimiter rest = true) :
    mark.isPrefixOf (c :: word ++ rest) = mark.isPrefixOf (c :: word) := by
  cases mark with
  | nil => rfl
  | cons start others =>
      have same := @isPrefixOf_append_delimiter rest others word solid ends
      simp only [List.cons_append, List.isPrefixOf, same]

theorem not_isDelimiter_operators :
    ∀ mark ∈ operators, ∀ c ∈ mark.toList.tail, isDelimiter c = false := by
  have none : ∀ mark ∈ operators, mark.toList.tail.any isDelimiter = false := by decide
  intro mark member c inside
  have apart := List.any_eq_false.mp (none mark member) c inside
  simpa using apart

theorem operatorLength_append_delimiter (word : List Char) (ends : atDelimiter rest = true) :
    operatorLength (c :: word ++ rest) = operatorLength (c :: word) := by
  have fits : ∀ mark ∈ operators,
      mark.toList.isPrefixOf (c :: word ++ rest) = mark.toList.isPrefixOf (c :: word) :=
    fun mark member => isPrefixOf_cons_append_delimiter word (not_isDelimiter_operators mark member) ends
  simp only [operatorLength]
  rw [List.find?_congr fits]

theorem commentLength_append_delimiter {mark : String} (member : mark ∈ operators)
    (ends : atDelimiter rest = true) : blockCommentLength (mark.toList ++ rest) = 0 ∧
      lineCommentLength (mark.toList ++ rest) = 0 := by
  have opens : ∀ mark ∈ operators, ['/', '*'].isPrefixOf mark.toList = false ∧
      ['/', '/'].isPrefixOf mark.toList = false := by decide
  have solid : (∀ c ∈ ['/', '*'], isDelimiter c = false) ∧
      ∀ c ∈ ['/', '/'], isDelimiter c = false := by
    simp [isDelimiter, isSpace]
  obtain ⟨block, line⟩ := opens mark member
  rw [← isPrefixOf_append_delimiter solid.1 ends] at block
  rw [← isPrefixOf_append_delimiter solid.2 ends] at line
  constructor
  · unfold blockCommentLength
    split
    · rename_i split
      simp [split, List.isPrefixOf] at block
    · rfl
  · unfold lineCommentLength
    split
    · rename_i split
      simp [split, List.isPrefixOf] at line
    · rfl

theorem lexeme_operator {mark : String} (member : mark ∈ operators)
    (ends : atDelimiter rest = true) :
    lexeme (mark.toList ++ rest) = (.operator, mark.length) := by
  have lengths : ∀ mark ∈ operators, operatorLength mark.toList = mark.length ∧
      0 < mark.length := by decide
  obtain ⟨length, positive⟩ := lengths mark member
  obtain ⟨block, line⟩ := commentLength_append_delimiter member ends
  cases text : mark.toList with
  | nil => simp [← String.length_toList, text] at positive
  | cons c others =>
      have fits := @operatorLength_append_delimiter c rest others ends
      rw [← text, length, text] at fits
      have begins : isMark c = true := by
        simp only [isMark, List.any_eq_true, beq_iff_eq]
        exact ⟨mark, member, by simp [text]⟩
      obtain ⟨start, digit, quote, hash, space⟩ := isMark_cases begins
      simp only [text, List.cons_append] at block line fits ⊢
      simp [lexeme, rules, longest, block, line, fits, nameLength_of_isNameStart start,
        integerLength_of_isDigit digit, spaceLength_of_isSpace space, stringLength_of_ne quote,
        directiveLength_of_ne hash, positive, Nat.ne_of_gt positive]

theorem runLength_append_delimiter {member : Char → Bool} {run : List Char}
    (all : run.all member = true) (stops : ∀ c, isDelimiter c = true → member c = false)
    (ends : atDelimiter rest = true) : runLength member (run ++ rest) = run.length := by
  rw [runLength, List.takeWhile_append_of_pos (by simpa using all)]
  cases rest with
  | nil => simp
  | cons c rest => simp [stops c ends]

end Token

namespace Word

open Token

def isNameText (text : String) : Bool :=
  match text.toList with
  | [] => false
  | c :: others => isNameStart c && others.all isNamePart

def isIntegerText (text : String) : Bool := text.toList != [] && text.toList.all Char.isDigit

def isStringText (text : String) : Bool :=
  match text.toList with
  | '"' :: others => others.getLast? == some '"' && others.dropLast.all (· != '"')
  | _ => false

/-- Whether a word is one lexeme of its kind and no trivia. -/
def isSolid (word : Word) : Bool :=
  match word.kind with
  | .name => isNameText word.text
  | .integer => isIntegerText word.text
  | .string => isStringText word.text
  | .operator => operators.contains word.text
  | _ => false

theorem lexeme_eq {word : Word} {rest : List Char} (solid : word.isSolid = true)
    (ends : atDelimiter rest = true) :
    lexeme (word.text.toList ++ rest) = (word.kind, word.text.length) := by
  obtain ⟨kind, text⟩ := word
  cases kind with
  | name =>
      simp only [isSolid, isNameText] at solid
      cases characters : text.toList with
      | nil => simp [characters] at solid
      | cons c others =>
          simp only [characters, Bool.and_eq_true] at solid
          rw [List.cons_append, lexeme_name solid.1,
            runLength_append_delimiter solid.2 (fun _ delimiter => (isDelimiter_cases delimiter).1) ends]
          simp [← String.length_toList, characters]
  | integer =>
      simp only [isSolid, isIntegerText] at solid
      cases characters : text.toList with
      | nil => simp [characters] at solid
      | cons c others =>
          simp only [characters, List.all_cons, Bool.and_eq_true] at solid
          rw [List.cons_append, lexeme_integer solid.2.1,
            runLength_append_delimiter solid.2.2 (fun _ delimiter => (isDelimiter_cases delimiter).2) ends]
          simp [← String.length_toList, characters]
  | string =>
      simp only [isSolid, isStringText] at solid
      split at solid
      · rename_i others characters
        simp only [Bool.and_eq_true, beq_iff_eq] at solid
        obtain ⟨body, rfl⟩ := List.getLast?_eq_some_iff.mp solid.1
        have inner : runLength (· != '"') (body ++ '"' :: rest) = body.length := by
          rw [runLength, List.takeWhile_append_of_pos (by simpa using solid.2)]
          simp
        rw [characters, List.cons_append, lexeme_string, List.append_assoc]
        simp only [List.singleton_append, stringLength, inner]
        simp [← String.length_toList, characters]
      · simp at solid
  | operator => exact lexeme_operator (by simpa [isSolid] using solid) ends
  | _ => simp [isSolid] at solid

theorem isSignificant_of_solid {word : Word} (solid : word.isSolid = true) {token : Token}
    (same : token.word = word) : token.isSignificant = true := by
  subst same
  obtain ⟨kind, text, span⟩ := token
  cases kind <;> simp_all [Token.word, isSolid, Token.isSignificant, TokenKind.isTrivia]

theorem text_of_solid {word : Word} (solid : word.isSolid = true) :
    ∃ c others, word.text.toList = c :: others ∧ isSpace c = false := by
  have lexed : lexeme (word.text.toList ++ []) = (word.kind, word.text.length) :=
    lexeme_eq solid rfl
  rw [List.append_nil] at lexed
  cases characters : word.text.toList with
  | nil =>
      have positive := lexeme_pos word.text.toList
      rw [lexed] at positive
      simp [← String.length_toList, characters] at positive
  | cons c others =>
      refine ⟨c, others, rfl, ?_⟩
      cases space : isSpace c with
      | false => rfl
      | true =>
          rw [characters, lexeme_space space] at lexed
          have kind : word.kind = .whitespace := (Prod.mk.inj lexed).1.symm
          simp [isSolid, kind] at solid

end Word

namespace Cursor

open Token

theorem readWithin_congr {first second : Nat} {cursor : Cursor}
    (enough : cursor.rest.length ≤ first) (enough' : cursor.rest.length ≤ second) :
    readWithin first cursor = readWithin second cursor := by
  induction first generalizing second cursor with
  | zero =>
      have empty : cursor.rest = [] := by simpa using enough
      cases second <;> simp [readWithin, next?, empty]
  | succ first ih =>
      cases second with
      | zero =>
          have empty : cursor.rest = [] := by simpa using enough'
          simp [readWithin, next?, empty]
      | succ second =>
          cases read : cursor.next? with
          | none => simp [readWithin, read]
          | some next =>
              obtain ⟨token, after⟩ := next
              have fewer := next?_rest_lt read
              have same := @ih second after (by omega) (by omega)
              simp [readWithin, read, same]

theorem readAll_of_next? {cursor after : Cursor} {token : Token}
    (read : cursor.next? = some (token, after)) :
    cursor.readAll.1 = token :: after.readAll.1 := by
  have fewer := next?_rest_lt read
  unfold readAll
  cases length : cursor.rest.length with
  | zero => omega
  | succ count =>
      have same : readWithin count after = readWithin after.rest.length after :=
        readWithin_congr (by omega) (Nat.le_refl _)
      simp [readWithin, read, same]

theorem readAll_nil (position : Position) : (Cursor.mk [] position).readAll.1 = [] := rfl

theorem next?_word {word : Word} {rest : List Char} (position : Position)
    (solid : word.isSolid = true) (ends : atDelimiter rest = true) :
    ∃ token stop, (Cursor.mk (word.text.toList ++ rest) position).next? =
      some (token, ⟨rest, stop⟩) ∧ token.word = word := by
  obtain ⟨c, others, characters, _⟩ := Word.text_of_solid solid
  have nonempty : (word.text.toList ++ rest).isEmpty = false := by simp [characters]
  have taken : (word.text.toList ++ rest).take word.text.length = word.text.toList := by
    rw [← String.length_toList, List.take_left]
  have dropped : (word.text.toList ++ rest).drop word.text.length = rest := by
    rw [← String.length_toList, List.drop_left]
  simp only [next?, nonempty, Bool.false_eq_true, if_false, Word.lexeme_eq solid ends, taken,
    dropped]
  exact ⟨_, _, rfl, by simp [Token.word]⟩

theorem next?_blank {rest : List Char} (position : Position)
    (solid : ∀ c ∈ rest.head?, isSpace c = false) :
    ∃ token stop, (Cursor.mk (' ' :: rest) position).next? = some (token, ⟨rest, stop⟩) ∧
      token.isSignificant = false := by
  have run : runLength isSpace rest = 0 := by
    cases rest with
    | nil => rfl
    | cons c rest => simp [runLength, solid c (by simp)]
  have space : isSpace ' ' = true := by decide
  simp only [next?, List.isEmpty_cons, Bool.false_eq_true, if_false, lexeme_space space, run]
  exact ⟨_, _, rfl, rfl⟩

/-- Reading words between blanks gives the words. -/
theorem readAll_words {words : List Word} (position : Position)
    (solid : ∀ word ∈ words, word.isSolid = true) :
    Token.words (Cursor.mk ([' '].intercalate (words.map (·.text.toList))) position).readAll.1 =
      words := by
  induction words generalizing position with
  | nil => rfl
  | cons word others ih =>
      rw [List.forall_mem_cons] at solid
      cases others with
      | nil =>
          obtain ⟨token, stop, read, same⟩ := @next?_word word [] position solid.1 rfl
          rw [List.append_nil] at read
          simp only [List.map_cons, List.map_nil, List.intercalate_singleton]
          rw [readAll_of_next? read, readAll_nil, Token.words_cons,
            Word.isSignificant_of_solid solid.1 same, same]
          rfl
      | cons second others =>
          simp only [List.map_cons, List.intercalate_cons_cons, List.append_assoc,
            List.singleton_append]
          have opens : ∀ c ∈ ([' '].intercalate
              (second.text.toList :: others.map (·.text.toList))).head?, isSpace c = false := by
            obtain ⟨c, characters, text, apart⟩ := Word.text_of_solid (solid.2 second (by simp))
            simp [text, apart]
          obtain ⟨token, stop, read, same⟩ := @next?_word word (' ' :: _) position solid.1 rfl
          obtain ⟨gap, stop', skipped, trivial⟩ := next?_blank stop opens
          have remaining := ih stop' solid.2
          simp only [List.map_cons] at remaining
          rw [readAll_of_next? read, readAll_of_next? skipped, Token.words_cons, Token.words_cons,
            Word.isSignificant_of_solid solid.1 same, trivial, same, remaining]
          rfl

end Cursor

def Word.spaced (words : List Word) : String := " ".intercalate (words.map (·.text))

theorem tokens_spaced {words : List Word} (solid : ∀ word ∈ words, word.isSolid = true) :
    Token.words (tokens (Word.spaced words)) = words := by
  have characters : (Word.spaced words).toList =
      [' '].intercalate (words.map (·.text.toList)) := by
    simp only [Word.spaced, String.toList_intercalate, List.map_map]
    rfl
  unfold tokens Cursor.ofSource
  rw [characters]
  exact Cursor.readAll_words {} solid

end Adventure
