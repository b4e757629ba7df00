import Adventure.Proofs.Lexemes
import Mathlib.Data.List.Infix

/-!
The languages of the lexical rules. Each rule measures how far the longest word of its language reaches,
so the lexeme at the start of a text is the longest word of any of them. No word is in the languages of
two kinds.
-/

namespace Adventure.Token

/-- The words that the lexical rules are about. -/
inductive Lexeme : TokenKind → List Char → Prop
  | blockComment {body : List Char} (unclosed : ¬ ['*', '/'] <:+: body) :
      Lexeme .comment ('/' :: '*' :: (body ++ ['*', '/']))
  | lineComment {body : List Char} (inLine : ∀ c ∈ body, isLineEnd c = false) :
      Lexeme .comment ('/' :: '/' :: body)
  | name {c : Char} {others : List Char} (start : isNameStart c = true)
      (parts : ∀ c ∈ others, isNamePart c = true) : Lexeme .name (c :: others)
  | integer {digits : List Char} (nonempty : digits ≠ []) (all : ∀ c ∈ digits, c.isDigit = true) :
      Lexeme .integer digits
  | openString {body : List Char} (unquoted : '"' ∉ body) : Lexeme .string ('"' :: body)
  | closedString {body : List Char} (unquoted : '"' ∉ body) :
      Lexeme .string ('"' :: (body ++ ['"']))
  | directive {word : String} {body : List Char} (known : word ∈ directiveWords)
      (inLine : ∀ c ∈ body, isLineEnd c = false) :
      Lexeme .directive ('#' :: (word.toList ++ body))
  | operator {mark : String} (known : mark ∈ operators) : Lexeme .operator mark.toList
  | whitespace {blanks : List Char} (nonempty : blanks ≠ [])
      (all : ∀ c ∈ blanks, isSpace c = true) : Lexeme .whitespace blanks

variable {text word body : List Char} {c : Char}

/-! What the languages are made of, spelled out. -/

theorem isNameStart_iff :
    isNameStart c = true ↔ ('a' ≤ c ∧ c ≤ 'z') ∨ ('A' ≤ c ∧ c ≤ 'Z') ∨ c = '_' := by
  delta isNameStart Char.isAlpha Char.isUpper Char.isLower
  simp only [Bool.or_eq_true, Bool.and_eq_true, decide_eq_true_eq, beq_iff_eq]
  exact (or_congr_left or_comm).trans or_assoc

theorem isNamePart_iff :
    isNamePart c = true ↔ isNameStart c = true ∨ ('0' ≤ c ∧ c ≤ '9') := by
  simp only [isNamePart, isNameStart, Char.isAlphanum, Char.isDigit, Bool.or_eq_true,
    Bool.and_eq_true, decide_eq_true_eq, beq_iff_eq]
  exact or_right_comm

theorem Lexeme.name_iff : Lexeme .name word ↔ ∃ c others, word = c :: others ∧
    isNameStart c = true ∧ ∀ d ∈ others, isNameStart d = true ∨ ('0' ≤ d ∧ d ≤ '9') := by
  constructor
  · intro lexeme
    cases lexeme with
    | name start parts => exact ⟨_, _, rfl, start, fun d member => isNamePart_iff.mp (parts d member)⟩
  · rintro ⟨c, others, rfl, start, parts⟩
    exact .name start fun d member => isNamePart_iff.mpr (parts d member)

theorem Lexeme.whitespace_iff : Lexeme .whitespace word ↔
    word ≠ [] ∧ ∀ c ∈ word, c = ' ' ∨ c = '\t' ∨ c = '\r' ∨ c = '\n' := by
  have spelled (c : Char) : isSpace c = true ↔ c = ' ' ∨ c = '\t' ∨ c = '\r' ∨ c = '\n' := by
    simp [isSpace, or_assoc]
  constructor
  · intro lexeme
    cases lexeme with
    | whitespace nonempty all => exact ⟨nonempty, fun c member => (spelled c).mp (all c member)⟩
  · rintro ⟨nonempty, all⟩
    exact .whitespace nonempty fun c member => (spelled c).mpr (all c member)

theorem Lexeme.directive_iff : Lexeme .directive word ↔
    ∃ first ∈ ["#include", "#define", "#ifdef", "#ifndef", "#endif"], ∃ body,
      word = first.toList ++ body ∧ ∀ c ∈ body, c ≠ '\r' ∧ c ≠ '\n' := by
  have spelled : ["#include", "#define", "#ifdef", "#ifndef", "#endif"] =
    directiveWords.map ("#" ++ ·) := by decide
  have outside (c : Char) : isLineEnd c = false ↔ c ≠ '\r' ∧ c ≠ '\n' := by simp [isLineEnd]
  rw [spelled]
  constructor
  · intro lexeme
    cases lexeme with
    | @directive name body known inLine =>
        refine ⟨"#" ++ name, List.mem_map_of_mem known, body, ?_, fun c member => ?_⟩
        · simp
        · exact (outside c).mp (inLine c member)
  · rintro ⟨first, known, body, rfl, inLine⟩
    obtain ⟨word, member, rfl⟩ := List.mem_map.mp known
    have split : ("#" ++ word).toList ++ body = '#' :: (word.toList ++ body) := by simp
    rw [split]
    exact .directive member fun c inside => (outside c).mpr (inLine c inside)

/-! Runs. -/

theorem length_le_runLength {member : Char → Bool} (all : ∀ c ∈ word, member c = true)
    (starts : word <+: text) : word.length ≤ runLength member text := by
  obtain ⟨rest, rfl⟩ := starts
  rw [runLength, List.takeWhile_append_of_pos all, List.length_append]
  exact Nat.le_add_right _ _

/-! Block comments. -/

theorem commentCloseLength_cons {c : Char} (unclosed : ¬ ['*', '/'] <+: c :: text) :
    commentCloseLength (c :: text) = (commentCloseLength text).map (· + 1) := by
  rw [commentCloseLength]
  rintro others rfl rfl
  exact unclosed ⟨others, rfl⟩

theorem commentCloseLength_eq_some_iff {length : Nat} :
    commentCloseLength text = some length ↔ ∃ body, ¬ ['*', '/'] <:+: body ∧
      body ++ ['*', '/'] <+: text ∧ length = body.length + 2 := by
  induction text generalizing length with
  | nil =>
      constructor
      · intro closed
        simp [commentCloseLength] at closed
      · rintro ⟨body, _, starts, _⟩
        simp at starts
  | cons c rest ih =>
      by_cases closes : ['*', '/'] <+: c :: rest
      · obtain ⟨others, split⟩ := closes
        simp only [List.cons_append, List.nil_append, List.cons.injEq] at split
        obtain ⟨rfl, rfl⟩ := split
        have here : commentCloseLength ('*' :: ('/' :: others)) = some 2 := rfl
        constructor
        · intro closed
          refine ⟨[], by simp, by simp, ?_⟩
          simpa [here] using closed.symm
        · rintro ⟨body, unclosed, starts, rfl⟩
          cases body with
          | nil => rfl
          | cons first body =>
              refine absurd ?_ unclosed
              cases body with
              | nil => simp at starts
              | cons second body =>
                  simp only [List.cons_append, List.cons_prefix_cons] at starts
                  obtain ⟨rfl, rfl, _⟩ := starts
                  exact (List.prefix_append ['*', '/'] body).isInfix
      · rw [commentCloseLength_cons closes]
        constructor
        · intro closed
          obtain ⟨before, found, rfl⟩ := Option.map_eq_some_iff.mp closed
          obtain ⟨body, unclosed, starts, rfl⟩ := ih.mp found
          refine ⟨c :: body, ?_, by simpa using starts, rfl⟩
          rw [List.infix_cons_iff, not_or]
          refine ⟨fun opens => closes ?_, unclosed⟩
          exact opens.trans ((List.cons_prefix_cons.mpr ⟨rfl, (List.prefix_append _ _).trans starts⟩))
        · rintro ⟨body, unclosed, starts, rfl⟩
          cases body with
          | nil => exact absurd starts closes
          | cons first body =>
              rw [List.cons_append, List.cons_prefix_cons] at starts
              obtain ⟨rfl, starts⟩ := starts
              rw [List.infix_cons_iff, not_or] at unclosed
              rw [ih.mpr ⟨body, unclosed.2, starts, rfl⟩]
              rfl

/-! What a rule measures is a word of its language. -/

def HasWord (kind : TokenKind) (text : List Char) (length : Nat) : Prop :=
  ∃ word, Lexeme kind word ∧ word <+: text ∧ word.length = length

theorem runLength_word (member : Char → Bool) (text : List Char) :
    text.takeWhile member <+: text ∧ (∀ c ∈ text.takeWhile member, member c = true) ∧
      (text.takeWhile member).length = runLength member text :=
  ⟨List.takeWhile_prefix member, List.all_eq_true.mp List.all_takeWhile, rfl⟩

theorem blockComment_word (positive : 0 < blockCommentLength text) :
    HasWord .comment text (blockCommentLength text) := by
  unfold blockCommentLength at positive ⊢
  split at positive
  · rename_i rest
    cases closed : commentCloseLength rest with
    | none => simp [closed] at positive
    | some length =>
        obtain ⟨body, unclosed, starts, rfl⟩ := commentCloseLength_eq_some_iff.mp closed
        exact ⟨_, .blockComment unclosed, by simpa using starts, by simp⟩
  · cases Nat.lt_irrefl 0 positive

theorem lineComment_word (positive : 0 < lineCommentLength text) :
    HasWord .comment text (lineCommentLength text) := by
  unfold lineCommentLength at positive ⊢
  split at positive
  · rename_i rest
    obtain ⟨starts, all, length⟩ := runLength_word (!isLineEnd ·) rest
    exact ⟨_, .lineComment (by simpa using all), by simpa using starts, by simpa using length⟩
  · cases Nat.lt_irrefl 0 positive

theorem name_word (positive : 0 < nameLength text) : HasWord .name text (nameLength text) := by
  cases text with
  | nil => cases Nat.lt_irrefl 0 positive
  | cons c rest =>
      cases start : isNameStart c with
      | false => simp [nameLength, start] at positive
      | true =>
          obtain ⟨starts, all, length⟩ := runLength_word isNamePart rest
          exact ⟨_, .name start all, by simpa using starts, by simpa [nameLength, start] using length⟩

theorem integer_word (positive : 0 < integerLength text) :
    HasWord .integer text (integerLength text) := by
  obtain ⟨starts, all, length⟩ := runLength_word Char.isDigit text
  exact ⟨_, .integer (List.length_pos_iff.mp positive) all, starts, length⟩

theorem whitespace_word (positive : 0 < spaceLength text) :
    HasWord .whitespace text (spaceLength text) := by
  obtain ⟨starts, all, length⟩ := runLength_word isSpace text
  exact ⟨_, .whitespace (List.length_pos_iff.mp positive) all, starts, length⟩

theorem string_word (positive : 0 < stringLength text) : HasWord .string text (stringLength text) := by
  obtain ⟨rest, rfl⟩ := stringLength_pos positive
  obtain ⟨starts, all, length⟩ := runLength_word (· != '"') rest
  have unquoted : '"' ∉ rest.takeWhile (· != '"') := fun quote => by simpa using all _ quote
  simp only [stringLength]
  by_cases stops : runLength (· != '"') rest < rest.length
  · rw [if_pos stops]
    refine ⟨_, .closedString unquoted, ?_, by simpa using length⟩
    rw [← take_quote stops]
    simpa using List.take_prefix _ rest
  · rw [if_neg stops]
    exact ⟨_, .openString unquoted, by simpa using starts, by simpa using length⟩

theorem isLineEnd_directiveWords : ∀ word ∈ directiveWords, ∀ c ∈ word.toList, isLineEnd c = false := by
  have all : directiveWords.all (·.toList.all (!isLineEnd ·)) = true := by decide
  simpa using all

theorem directive_word (positive : 0 < directiveLength text) :
    HasWord .directive text (directiveLength text) := by
  unfold directiveLength at positive ⊢
  split at positive
  · rename_i rest
    cases known : directiveWords.any (·.toList.isPrefixOf rest) with
    | false => simp [known] at positive
    | true =>
        obtain ⟨word, member, fits⟩ := List.any_eq_true.mp known
        obtain ⟨others, rfl⟩ := List.isPrefixOf_iff_prefix.mp fits
        obtain ⟨starts, all, length⟩ := runLength_word (!isLineEnd ·) others
        have inLine : ∀ c ∈ word.toList, (!isLineEnd c) = true := by
          simpa using isLineEnd_directiveWords word member
        refine ⟨_, .directive member (by simpa using all), by simpa using starts, ?_⟩
        rw [if_pos rfl, runLength, List.takeWhile_append_of_pos inLine]
        simp
  · cases Nat.lt_irrefl 0 positive

theorem operator_word (positive : 0 < operatorLength text) :
    HasWord .operator text (operatorLength text) := by
  unfold operatorLength at positive ⊢
  cases found : operators.find? (·.toList.isPrefixOf text) with
  | none => simp [found] at positive
  | some mark =>
      have fits : mark.toList.isPrefixOf text = true := by simpa using List.find?_some found
      refine ⟨mark.toList, .operator (List.mem_of_find?_eq_some found),
        List.isPrefixOf_iff_prefix.mp fits, ?_⟩
      exact String.length_toList

theorem rule_word {rule : Rule} (member : rule ∈ rules) (positive : 0 < rule.length text) :
    HasWord rule.kind text (rule.length text) := by
  simp only [rules, List.mem_cons, List.not_mem_nil, or_false] at member
  rcases member with rfl | rfl | rfl | rfl | rfl | rfl | rfl | rfl
  · exact blockComment_word positive
  · exact lineComment_word positive
  · exact name_word positive
  · exact integer_word positive
  · exact string_word positive
  · exact directive_word positive
  · exact operator_word positive
  · exact whitespace_word positive

/-! No word of a language is longer than what its rule measures. -/

def HasRule (kind : TokenKind) (text : List Char) (length : Nat) : Prop :=
  ∃ rule ∈ rules, rule.kind = kind ∧ length ≤ rule.length text

theorem blockComment_rule (unclosed : ¬ ['*', '/'] <:+: body)
    (starts : '/' :: '*' :: (body ++ ['*', '/']) <+: text) :
    HasRule .comment text (body.length + 4) := by
  obtain ⟨rest, rfl⟩ := starts
  have closed : commentCloseLength (body ++ ['*', '/'] ++ rest) = some (body.length + 2) :=
    commentCloseLength_eq_some_iff.mpr ⟨body, unclosed, List.prefix_append _ _, rfl⟩
  refine ⟨⟨.comment, blockCommentLength⟩, by simp [rules], rfl, ?_⟩
  simp only [List.cons_append, blockCommentLength, closed]
  simp

theorem all_unquoted (unquoted : '"' ∉ body) : ∀ c ∈ body, (c != '"') = true := by
  intro c inside
  rw [bne_iff_ne]
  rintro rfl
  exact unquoted inside

theorem openString_rule (unquoted : '"' ∉ body) (starts : '"' :: body <+: text) :
    HasRule .string text (body.length + 1) := by
  obtain ⟨rest, rfl⟩ := starts
  have reaches := length_le_runLength (all_unquoted unquoted) (List.prefix_append _ rest)
  refine ⟨⟨.string, stringLength⟩, by simp [rules], rfl, ?_⟩
  simp only [List.cons_append, stringLength]
  split <;> omega

theorem closedString_rule (unquoted : '"' ∉ body) (starts : '"' :: (body ++ ['"']) <+: text) :
    HasRule .string text (body.length + 2) := by
  obtain ⟨rest, rfl⟩ := starts
  have inner : runLength (· != '"') (body ++ '"' :: rest) = body.length := by
    rw [runLength, List.takeWhile_append_of_pos (all_unquoted unquoted)]
    simp
  refine ⟨⟨.string, stringLength⟩, by simp [rules], rfl, ?_⟩
  simp [stringLength, inner]

theorem directive_rule {word : String} (known : word ∈ directiveWords)
    (inLine : ∀ c ∈ body, isLineEnd c = false) (starts : '#' :: (word.toList ++ body) <+: text) :
    HasRule .directive text (word.toList.length + body.length + 1) := by
  obtain ⟨rest, rfl⟩ := starts
  have fits : directiveWords.any (·.toList.isPrefixOf (word.toList ++ body ++ rest)) = true := by
    refine List.any_eq_true.mpr ⟨word, known, List.isPrefixOf_iff_prefix.mpr ?_⟩
    rw [List.append_assoc]
    exact List.prefix_append _ _
  have all : ∀ c ∈ word.toList ++ body, (!isLineEnd c) = true := by
    intro c member
    rcases List.mem_append.mp member with first | second
    · simp [isLineEnd_directiveWords word known c first]
    · simp [inLine c second]
  have reaches := length_le_runLength all (List.prefix_append _ rest)
  refine ⟨⟨.directive, directiveLength⟩, by simp [rules], rfl, ?_⟩
  simp only [List.cons_append, directiveLength, fits, if_true]
  simpa using reaches

theorem operators_ordered : operators.Pairwise fun first second => ¬ first.toList <+: second.toList := by
  decide

theorem operator_rule {mark : String} (known : mark ∈ operators) (starts : mark.toList <+: text) :
    HasRule .operator text mark.toList.length := by
  refine ⟨⟨.operator, operatorLength⟩, by simp [rules], rfl, ?_⟩
  have fits := List.isPrefixOf_iff_prefix.mpr starts
  simp only [operatorLength]
  cases found : operators.find? (·.toList.isPrefixOf text) with
  | none => simpa [fits] using List.find?_eq_none.mp found mark known
  | some first =>
      obtain ⟨firstFits, before, after, split, unfit⟩ := List.find?_eq_some_iff_append.mp found
      have ordered := operators_ordered
      rw [split] at known ordered
      have shorter : mark.toList <+: first.toList := by
        rcases List.mem_append.mp known with earlier | later
        · have misfit := unfit mark earlier
          simp [fits] at misfit
        · rcases List.mem_cons.mp later with rfl | later
          · exact List.prefix_rfl
          · have apart := (List.pairwise_cons.mp (List.pairwise_append.mp ordered).2.1).1 mark later
            have either := List.prefix_or_prefix_of_prefix starts
              (List.isPrefixOf_iff_prefix.mp firstFits)
            exact either.resolve_right apart
      simpa only [Option.map_some, Option.getD_some, ← String.length_toList] using shorter.length_le

theorem lexeme_rule {kind : TokenKind} (lexeme : Lexeme kind word) (starts : word <+: text) :
    HasRule kind text word.length := by
  cases lexeme with
  | blockComment unclosed => simpa using blockComment_rule unclosed starts
  | lineComment inLine =>
      obtain ⟨rest, rfl⟩ := starts
      have reaches := @length_le_runLength _ _ (!isLineEnd ·) (by simpa using inLine)
        (List.prefix_append _ rest)
      exact ⟨⟨.comment, lineCommentLength⟩, by simp [rules], rfl, by simpa [lineCommentLength] using reaches⟩
  | name start parts =>
      obtain ⟨rest, rfl⟩ := starts
      have reaches := length_le_runLength parts (List.prefix_append _ rest)
      exact ⟨⟨.name, nameLength⟩, by simp [rules], rfl, by simpa [nameLength, start] using reaches⟩
  | integer _ all =>
      exact ⟨⟨.integer, integerLength⟩, by simp [rules], rfl, length_le_runLength all starts⟩
  | openString unquoted => simpa using openString_rule unquoted starts
  | closedString unquoted => simpa using closedString_rule unquoted starts
  | directive known inLine => simpa using directive_rule known inLine starts
  | operator known => exact operator_rule known starts
  | whitespace _ all =>
      exact ⟨⟨.whitespace, spaceLength⟩, by simp [rules], rfl, length_le_runLength all starts⟩

/-! The kinds of words. -/

/-- The kind that a word has if it has one; its first two characters tell. -/
def leadKind : List Char → TokenKind
  | [] => .invalid
  | c :: rest =>
      if isNameStart c then .name
      else if c.isDigit then .integer
      else if c = '"' then .string
      else if c = '#' then .directive
      else if isSpace c then .whitespace
      else if c = '/' ∧ (rest.head? = some '*' ∨ rest.head? = some '/') then .comment
      else .operator

theorem leadKind_operators : ∀ mark ∈ operators, leadKind mark.toList = .operator := by
  decide

theorem Lexeme.kind_eq {kind : TokenKind} (lexeme : Lexeme kind word) : kind = leadKind word := by
  have slash : isNameStart '/' = false ∧ Char.isDigit '/' = false ∧ isSpace '/' = false := by decide
  have quote : isNameStart '"' = false ∧ Char.isDigit '"' = false := by decide
  have hash : isNameStart '#' = false ∧ Char.isDigit '#' = false := by decide
  cases lexeme with
  | blockComment | lineComment => simp [leadKind, slash]
  | name start => simp [leadKind, start]
  | integer nonempty all =>
      obtain ⟨c, digits, rfl⟩ := List.exists_cons_of_ne_nil nonempty
      have digit := all c (by simp)
      simp [leadKind, digit, isNameStart_of_isDigit digit]
  | openString | closedString => simp [leadKind, quote]
  | directive => simp [leadKind, hash]
  | operator known => exact (leadKind_operators _ known).symm
  | whitespace nonempty all =>
      obtain ⟨c, blanks, rfl⟩ := List.exists_cons_of_ne_nil nonempty
      have space := all c (by simp)
      obtain ⟨start, digit, quote, hash, _⟩ := isSpace_cases space
      simp [leadKind, start, digit, quote, hash, space]

theorem Lexeme.ne_nil {kind : TokenKind} (lexeme : Lexeme kind word) : word ≠ [] := by
  cases lexeme with
  | integer nonempty | whitespace nonempty => exact nonempty
  | operator known =>
      have marked : ∀ mark ∈ operators, mark.toList ≠ [] := by decide
      exact marked _ known
  | _ => exact List.cons_ne_nil _ _

theorem Lexeme.valid {kind : TokenKind} (lexeme : Lexeme kind word) : kind ≠ .invalid := by
  cases lexeme <;> decide

/-! The longest word. -/

/-- A piece at the start of a text is the longest word of any language there and has its kind, or it is
a single character with which no word starts. -/
structure Longest (text : List Char) (kind : TokenKind) (length : Nat) : Prop where
  word : kind ≠ .invalid → Lexeme kind (text.take length)
  longest {other : TokenKind} {word : List Char} (lexeme : Lexeme other word) (starts : word <+: text) :
    word.length ≤ length ∧ (word.length = length → other = kind)
  within : 0 < length ∧ length ≤ text.length
  single : kind = .invalid → length = 1
  invalid_iff : kind = .invalid ↔ ∀ other word, word <+: text → ¬ Lexeme other word

theorem le_longest {rules : List Rule} {rule : Rule} (member : rule ∈ rules)
    (positive : 0 < rule.length text) :
    ∃ best, longest rules text = some best ∧ rule.length text ≤ best.2 := by
  induction rules with
  | nil => cases member
  | cons first others ih =>
      simp only [longest]
      rcases List.mem_cons.mp member with rfl | member
      · cases longest others text with
        | none => exact ⟨_, if_pos positive, Nat.le_refl _⟩
        | some best =>
            by_cases longer : best.2 ≤ rule.length text
            · exact ⟨_, if_pos longer, Nat.le_refl _⟩
            · exact ⟨_, if_neg longer, by simpa using Nat.le_of_not_le longer⟩
      · obtain ⟨best, found, reaches⟩ := ih member
        rw [found]
        by_cases longer : best.2 ≤ first.length text
        · exact ⟨_, if_pos longer, reaches.trans longer⟩
        · exact ⟨_, if_neg longer, reaches⟩

theorem lexeme_longest (nonempty : text ≠ []) : Longest text (lexeme text).1 (lexeme text).2 := by
  have present := List.length_pos_iff.mpr nonempty
  unfold lexeme
  cases found : longest rules text with
  | none =>
      have unworded : ∀ other word, word <+: text → ¬ Lexeme other word := by
        intro other word starts lexeme
        obtain ⟨rule, member, _, reaches⟩ := lexeme_rule lexeme starts
        have positive := List.length_pos_iff.mpr lexeme.ne_nil
        obtain ⟨best, some, _⟩ := le_longest member (positive.trans_le reaches)
        simp [found] at some
      exact
        { word := fun valid => absurd rfl valid
          longest := fun lexeme starts => absurd lexeme (unworded _ _ starts)
          within := ⟨Nat.one_pos, present⟩
          single := fun _ => rfl
          invalid_iff := ⟨fun _ => unworded, fun _ => rfl⟩ }
  | some best =>
      obtain ⟨kind, length⟩ := best
      obtain ⟨rule, member, rfl, rfl⟩ := longest_rule found
      have positive := longest_pos found
      obtain ⟨word, lexeme, starts, length⟩ := rule_word member positive
      have taken : text.take (rule.length text) = word := by
        rw [← length]
        exact (List.prefix_iff_eq_take.mp starts).symm
      simp only [Option.getD_some]
      exact
        { word := fun _ => taken ▸ lexeme
          longest := by
            intro other longer lexeme' starts'
            obtain ⟨rule', member', _, reaches⟩ := lexeme_rule lexeme' starts'
            have positive' := List.length_pos_iff.mpr lexeme'.ne_nil
            obtain ⟨best, same, bound⟩ := le_longest member' (positive'.trans_le reaches)
            rw [found, Option.some.injEq] at same
            subst same
            refine ⟨reaches.trans bound, fun equal => ?_⟩
            have equal : longer = word := by
              rw [← taken, ← equal]
              exact List.prefix_iff_eq_take.mp starts'
            rw [lexeme'.kind_eq, lexeme.kind_eq, equal]
          within := ⟨positive, length ▸ starts.length_le⟩
          single := fun invalid => absurd invalid lexeme.valid
          invalid_iff :=
            ⟨fun invalid => absurd invalid lexeme.valid, fun none => absurd lexeme (none _ _ starts)⟩ }

end Adventure.Token
