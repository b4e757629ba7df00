import Adventure.Proofs.Boundaries

/-!
Tokens set apart by line feeds. Only block comments, strings and blanks go on past the end of a line, so a
token that is none of them, or is closed, ends before a line feed wherever it was found. The texts of such
tokens, with line feeds between them, are read as these tokens again.
-/

namespace Adventure

namespace Token

variable {word old rest more : List Char} {kind : TokenKind}

theorem lineFeed_class : isLineEnd '\n' = true ∧ isNamePart '\n' = false ∧ Char.isDigit '\n' = false ∧
    isSpace '\n' = true := by
  decide

theorem not_mem_operators_lineFeed : ∀ mark ∈ operators, '\n' ∉ mark.toList := by
  decide

theorem Lexeme.before_lineFeed (lexeme : Lexeme kind (word ++ '\n' :: more)) (nonempty : word ≠ []) :
    (∃ begun body, ¬ ['*', '/'] <:+: body ∧ word = '/' :: '*' :: begun ∧
        begun ++ '\n' :: more = body ++ ['*', '/']) ∨
      (∃ body, '"' ∉ body ∧ word = '"' :: body) ∨
      Lexeme .whitespace word := by
  obtain ⟨lineEnd, part, digit, space⟩ := lineFeed_class
  obtain ⟨c, begun, rfl⟩ := List.exists_cons_of_ne_nil nonempty
  have inside : '\n' ∈ begun ++ '\n' :: more := by simp
  generalize whole : c :: begun ++ '\n' :: more = text at lexeme
  rw [List.cons_append] at whole
  cases lexeme with
  | blockComment unclosed =>
      obtain ⟨rfl, split⟩ := List.cons.inj whole
      cases begun with
      | nil => simp at split
      | cons star begun =>
          obtain ⟨rfl, split⟩ := List.cons.inj split
          exact .inl ⟨begun, _, unclosed, rfl, (List.cons.inj split).2⟩
  | @lineComment body inLine =>
      obtain ⟨rfl, split⟩ := List.cons.inj whole
      rw [split] at inside
      have among : '\n' ∈ body := by simpa using inside
      simp [inLine _ among] at lineEnd
  | name _ parts =>
      obtain ⟨rfl, rfl⟩ := List.cons.inj whole
      simp [parts _ inside] at part
  | integer _ all =>
      subst whole
      simp [all '\n' (List.mem_cons_of_mem _ inside)] at digit
  | openString unquoted =>
      obtain ⟨rfl, rfl⟩ := List.cons.inj whole
      exact .inr (.inl ⟨begun, fun quote => unquoted (List.mem_append_left _ quote), rfl⟩)
  | @closedString body unquoted =>
      obtain ⟨rfl, split⟩ := List.cons.inj whole
      -- The quote at the end comes after the line feed.
      refine .inr (.inl ⟨begun, fun quote => unquoted ?_, rfl⟩)
      have shorter : begun.length ≤ body.length := by
        have lengths := congrArg List.length split
        simp only [List.length_append, List.length_cons, List.length_nil] at lengths
        omega
      have start : begun <+: body :=
        List.prefix_of_prefix_length_le ⟨_, split⟩ (List.prefix_append body ['"']) shorter
      exact start.subset quote
  | @directive known body member inLine =>
      obtain ⟨rfl, split⟩ := List.cons.inj whole
      rw [split] at inside
      rcases List.mem_append.mp inside with first | second
      · simp [isLineEnd_directiveWords known member _ first] at lineEnd
      · simp [inLine _ second] at lineEnd
  | @operator mark known =>
      have among : '\n' ∈ mark.toList := whole ▸ List.mem_cons_of_mem _ inside
      exact absurd among (not_mem_operators_lineFeed mark known)
  | whitespace _ all =>
      subst whole
      refine .inr (.inr (.whitespace nonempty fun d member => all d ?_))
      rw [← List.cons_append]
      exact List.mem_append_left _ member

theorem blockComment_unique {first second begun : List Char} (unclosed : ¬ ['*', '/'] <:+: first)
    (unclosed' : ¬ ['*', '/'] <:+: second) (same : first ++ ['*', '/'] ++ begun = second ++ ['*', '/']) :
    begun = [] := by
  have here := commentCloseLength_eq_some_iff.mpr ⟨first, unclosed, ⟨begun, same⟩, rfl⟩
  have there := commentCloseLength_eq_some_iff.mpr ⟨second, unclosed', List.prefix_rfl, rfl⟩
  have lengths := congrArg List.length same
  rw [here, Option.some.injEq] at there
  simp only [List.length_append] at lengths
  exact List.length_eq_zero_iff.mp (by omega)

/-- The token has an end of its own, wherever it stands. -/
structure Separable (token : Token) : Prop where
  solid : token.kind ≠ .whitespace
  closed : token.kind = .string → token.isClosedString = true

variable {token : Token}

theorem Separable.stops (separable : token.Separable) (lexeme : Lexeme token.kind token.text.toList)
    {other : TokenKind} : ¬ Lexeme other (token.text.toList ++ '\n' :: more) := by
  intro longer
  rcases longer.before_lineFeed lexeme.ne_nil with ⟨begun, body, unclosed, text, split⟩ |
    ⟨body, unquoted, text⟩ | blank
  · have kind : token.kind = .comment := by
      rw [lexeme.kind_eq, text]
      rfl
    rw [kind, text] at lexeme
    cases lexeme with
    | @blockComment body' unclosed' =>
        exact List.cons_ne_nil _ _ (blockComment_unique unclosed' unclosed split)
  · have kind : token.kind = .string := by
      rw [lexeme.kind_eq, text]
      rfl
    have closed := separable.closed kind
    simp only [isClosedString, Bool.and_eq_true, decide_eq_true_eq, beq_iff_eq, text] at closed
    cases body with
    | nil => simp at closed
    | cons c body =>
        rw [List.getLast?_cons_cons] at closed
        exact unquoted (List.mem_of_getLast? closed.2)
  · exact separable.solid (lexeme.kind_eq.trans blank.kind_eq.symm)

theorem unworded_lineFeed {c : Char} (unworded : ∀ other word, word <+: c :: old → ¬ Lexeme other word)
    {other : TokenKind} {longer : List Char} (starts : longer <+: c :: '\n' :: rest) :
    ¬ Lexeme other longer := by
  intro lexeme
  have alone (kind : TokenKind) : ¬ Lexeme kind [c] :=
    unworded kind [c] (List.prefix_append [c] old)
  obtain ⟨d, begun, rfl⟩ := List.exists_cons_of_ne_nil lexeme.ne_nil
  obtain ⟨rfl, others⟩ := List.cons_prefix_cons.mp starts
  cases begun with
  | nil => exact alone _ lexeme
  | cons e begun =>
      obtain ⟨rfl, _⟩ := List.cons_prefix_cons.mp others
      rcases @Lexeme.before_lineFeed [d] begun other lexeme (by simp) with ⟨_, _, _, text, _⟩ |
        ⟨body, unquoted, text⟩ | blank
      · simp at text
      · rw [text] at alone
        exact alone _ (.openString unquoted)
      · exact alone _ blank

/-- A token that ends by itself is read again wherever its text stands before a line feed or at the end. -/
theorem Separable.lexeme_eq (separable : token.Separable)
    (found : Longest (token.text.toList ++ old) token.kind token.text.toList.length)
    (apart : ∀ c ∈ rest.head?, c = '\n') :
    lexeme (token.text.toList ++ rest) = (token.kind, token.text.toList.length) := by
  obtain ⟨positive, _⟩ := found.within
  have nonempty : token.text.toList ++ rest ≠ [] := by
    simpa using fun none _ => by simp [none] at positive
  have here := lexeme_longest nonempty
  generalize lexeme (token.text.toList ++ rest) = best at here
  obtain ⟨kind, length⟩ := best
  simp only at here
  by_cases invalid : token.kind = .invalid
  · obtain ⟨c, single⟩ := List.length_eq_one_iff.mp (found.single invalid)
    have unworded := found.invalid_iff.mp invalid
    rw [single, List.singleton_append] at unworded here
    have none : kind = .invalid := by
      refine here.invalid_iff.mpr fun other longer starts => ?_
      cases rest with
      | nil => exact unworded other longer (starts.trans (List.prefix_append [c] old))
      | cons d rest =>
          obtain rfl := apart d rfl
          exact unworded_lineFeed unworded starts
    rw [here.single none, none, invalid, single]
    rfl
  · have lexeme := found.lexeme invalid
    obtain ⟨reaches, same⟩ := here.longest lexeme (List.prefix_append _ rest)
    rcases Nat.lt_or_eq_of_le reaches with longer | equal
    · -- A longer word would go on past the line feed.
      have valid : kind ≠ .invalid := fun none => by
        have single := here.single none
        omega
      cases rest with
      | nil =>
          have within := here.within.2
          rw [List.append_nil] at within
          omega
      | cons d rest =>
          obtain rfl := apart d rfl
          obtain ⟨more, taken⟩ := Nat.exists_eq_add_of_lt longer
          have word := here.word valid
          rw [taken, Nat.add_assoc, List.take_length_add_append, List.take_succ_cons] at word
          exact absurd word (separable.stops lexeme)
    · rw [same equal, equal]

theorem Separable.head (separable : token.Separable)
    (found : Longest (token.text.toList ++ old) token.kind token.text.toList.length) :
    ∃ c others, token.text.toList = c :: others ∧ isSpace c = false := by
  obtain ⟨c, others, text⟩ := List.exists_cons_of_length_pos found.within.1
  refine ⟨c, others, text, ?_⟩
  have last : ∀ c ∈ ([] : List Char).head?, c = '\n' := by simp
  have alone := separable.lexeme_eq found last
  rw [List.append_nil, text] at alone
  cases space : isSpace c with
  | false => rfl
  | true =>
      rw [lexeme_space space] at alone
      exact absurd (Prod.mk.inj alone).1.symm separable.solid

end Token

theorem longest_of_mem {source : String} {token : Token} (member : token ∈ tokens source) :
    ∃ old, Token.Longest (token.text.toList ++ old) token.kind token.text.toList.length := by
  obtain ⟨before, after, split⟩ := List.append_of_mem member
  exact ⟨_, (tokens_delimited split).longest⟩

namespace Cursor

open Token

variable {token : Token} {old rest : List Char}

theorem next?_separable (position : Position) (separable : token.Separable)
    (found : Longest (token.text.toList ++ old) token.kind token.text.toList.length)
    (apart : ∀ c ∈ rest.head?, c = '\n') : ∃ again stop,
      (Cursor.mk (token.text.toList ++ rest) position).next? = some (again, ⟨rest, stop⟩) ∧
        again.word = token.word := by
  obtain ⟨c, others, text, _⟩ := separable.head found
  have nonempty : (token.text.toList ++ rest).isEmpty = false := by simp [text]
  simp only [next?, nonempty, Bool.false_eq_true, if_false, separable.lexeme_eq found apart,
    List.take_left, List.drop_left, String.ofList_toList]
  exact ⟨_, _, rfl, rfl⟩

theorem next?_lineFeed (position : Position) (solid : ∀ c ∈ rest.head?, isSpace c = false) :
    ∃ gap stop, (Cursor.mk ('\n' :: rest) position).next? = some (gap, ⟨rest, stop⟩) ∧
      gap.word = ⟨.whitespace, "\n"⟩ := by
  have run : runLength isSpace rest = 0 := by
    cases rest with
    | nil => rfl
    | cons c rest => simp [runLength, solid c (by simp)]
  simp only [next?, List.isEmpty_cons, Bool.false_eq_true, if_false,
    lexeme_space lineFeed_class.2.2.2, run]
  exact ⟨_, _, rfl, rfl⟩

/-- Reading the texts of tokens between line feeds gives the tokens again, by induction on them. -/
theorem readAll_separated {list : List Token} (position : Position)
    (known : ∀ token ∈ list, ∃ source, token ∈ tokens source)
    (separable : ∀ token ∈ list, token.Separable) :
    (Cursor.mk (['\n'].intercalate (list.map (·.text.toList))) position).readAll.1.map word =
      (list.map word).intersperse ⟨.whitespace, "\n"⟩ := by
  induction list generalizing position with
  | nil => rfl
  | cons token others ih =>
      rw [List.forall_mem_cons] at known separable
      obtain ⟨_, member⟩ := known.1
      obtain ⟨old, found⟩ := longest_of_mem member
      cases others with
      | nil =>
          have last : ∀ c ∈ ([] : List Char).head?, c = '\n' := by simp
          obtain ⟨again, stop, read, same⟩ := next?_separable position separable.1 found last
          rw [List.append_nil] at read
          simp only [List.map_cons, List.map_nil, List.intercalate_singleton,
            List.intersperse_singleton]
          rw [readAll_of_next? read, readAll_nil, List.map_cons, same, List.map_nil]
      | cons second others =>
          have opens : ∀ c ∈ (['\n'].intercalate
              (second.text.toList :: others.map (·.text.toList))).head?, isSpace c = false := by
            obtain ⟨_, member⟩ := known.2 second (by simp)
            obtain ⟨old, found⟩ := longest_of_mem member
            obtain ⟨c, characters, text, apart⟩ := (separable.2 second (by simp)).head found
            cases others <;> simp [text, apart]
          simp only [List.map_cons, List.intercalate_cons_cons, List.append_assoc,
            List.singleton_append, List.intersperse_cons_cons] at ih ⊢
          generalize ['\n'].intercalate (second.text.toList :: others.map (·.text.toList)) = rest
            at opens ih ⊢
          have next : ∀ c ∈ ('\n' :: rest).head?, c = '\n' := by simp
          obtain ⟨again, stop, read, same⟩ := next?_separable position separable.1 found next
          obtain ⟨gap, stop', skipped, feed⟩ := next?_lineFeed stop opens
          rw [readAll_of_next? read, readAll_of_next? skipped, List.map_cons, List.map_cons, same, feed,
            ih stop' known.2 separable.2]

end Cursor

/-- Tokens of any sources, none of them blank and no string of them open, are read again as they are when
their texts stand between line feeds, with the line feeds between them. -/
theorem tokens_separated (list : List Token) (known : ∀ token ∈ list, ∃ source, token ∈ tokens source)
    (solid : ∀ token ∈ list, token.kind ≠ .whitespace)
    (closed : ∀ token ∈ list, token.kind = .string → token.isClosedString = true) :
    (tokens ("\n".intercalate (list.map (·.text)))).map Token.word =
      (list.map Token.word).intersperse ⟨.whitespace, "\n"⟩ := by
  have characters : ("\n".intercalate (list.map (·.text))).toList =
      ['\n'].intercalate (list.map (·.text.toList)) := by
    simp only [String.toList_intercalate, List.map_map]
    rfl
  unfold tokens Cursor.ofSource
  rw [characters]
  exact Cursor.readAll_separated {} known fun token member => ⟨solid token member, closed token member⟩

/-- A slash before a star, a sign that begins no directive before a word that would make it one, and a string
with a line feed in it. -/
theorem tokens_separated_lines :
    let list := (tokens "/ * # include \"a\nb\" //x").filter (·.kind != .whitespace)
    (∀ token ∈ list, token.kind = .string → token.isClosedString = true) ∧
      (tokens "/\n*\n#\ninclude\n\"a\nb\"\n//x").map Token.word =
        (list.map Token.word).intersperse ⟨.whitespace, "\n"⟩ := by
  intro list
  have closed : ∀ token ∈ list, token.kind = .string → token.isClosedString = true := by decide +kernel
  have known (token : Token) (member : token ∈ list) : ∃ source, token ∈ tokens source :=
    ⟨_, List.mem_of_mem_filter member⟩
  have solid (token : Token) (member : token ∈ list) : token.kind ≠ .whitespace := by
    simpa using (List.mem_filter.mp member).2
  have texts : "\n".intercalate (list.map (·.text)) = "/\n*\n#\ninclude\n\"a\nb\"\n//x" := by
    decide +kernel
  exact ⟨closed, texts ▸ tokens_separated list known solid closed⟩

end Adventure
