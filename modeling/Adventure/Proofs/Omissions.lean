import Adventure.Proofs.Programs

/-!
Omissions. Of the words of a program some `;` are left out, where a new statement, a `}` or the end of the
input comes next anyway. What is said of each is said at the word before it.
-/

namespace Adventure

open Word

namespace Word

def kept (dropped : Nat → Bool) : List Word → List Word
  | [] => []
  | word :: others =>
      if dropped others.length then kept dropped others else word :: kept dropped others

/-- A statement starts with the word, or a block ends with it. -/
def resumes (word : Word) : Bool := word.denotations.statement?.isSome || word == mark "\x7d"

/-- The words end with a `return` that is no property: it would return nothing if it ended here. -/
def Returns (words : List Word) : Prop :=
  words.getLast? = some (name "return") ∧ words.dropLast.getLast? ≠ some (mark ".")

instance (words : List Word) : Decidable (Returns words) := by
  unfold Returns
  infer_instance

/-- Between these words a `;` can be left out, if it is one. -/
def Dispensable (before : List Word) (word : Word) (after : List Word) : Prop :=
  word = mark ";" ∧ ¬Returns before ∧ ∀ next ∈ after.head?, next.resumes = true

instance (before : List Word) (word : Word) (after : List Word) :
    Decidable (Dispensable before word after) := by
  unfold Dispensable
  infer_instance

def Omits (dropped : Nat → Bool) (words : List Word) : Prop :=
  ∀ before word after, words = before ++ word :: after → dropped after.length = true →
    Dispensable before word after

theorem omits_iff {dropped : Nat → Bool} {words : List Word} : Omits dropped words ↔
    ∀ place : Fin words.length, dropped (words.drop (place + 1)).length = true →
      Dispensable (words.take place) words[place] (words.drop (place + 1)) := by
  constructor
  · intro omits place
    apply omits
    rw [Fin.getElem_fin, ← List.drop_eq_getElem_cons place.isLt, List.take_append_drop]
  · intro each before word after split
    subst split
    have found := each ⟨before.length, by simp⟩
    simpa using found

instance (dropped : Nat → Bool) (words : List Word) : Decidable (Omits dropped words) :=
  decidable_of_iff _ omits_iff.symm

/-- The reports of the words that were dropped, where the words that are left stand at the places. Each is
made at the place of the last word before. -/
def missing (dropped : Nat → Bool) : List Span → List Word → Diagnostics
  | last :: places, _ :: others =>
      if dropped others.length then
        ⟨.missingSemicolon, last, .error⟩ :: missing dropped (last :: places) others
      else missing dropped places others
  | _, _ => []

section

variable {dropped : Nat → Bool} {words others : List Word} {word : Word}

theorem Omits.suffix (omits : Omits dropped (words ++ others))
    (apart : words.getLast? ≠ some (mark ".")) : Omits dropped others := by
  intro before word after split drops
  subst split
  have found := omits (words ++ before) word after (by simp) drops
  obtain ⟨semicolon, unreturned, resumed⟩ := found
  refine ⟨semicolon, ?_, resumed⟩
  intro returns
  apply unreturned
  obtain ⟨last, free⟩ := returns
  obtain ⟨earlier, rfl⟩ := List.getLast?_eq_some_iff.mp last
  rw [List.dropLast_concat] at free
  constructor
  · rw [← List.append_assoc, List.getLast?_concat]
  · rw [← List.append_assoc, List.dropLast_concat]
    by_cases none : earlier = []
    · rw [none, List.append_nil]
      exact apart
    · rw [List.getLast?_append]
      simpa [none] using free

theorem Omits.untouched (omits : Omits dropped (words ++ others))
    (other : ∀ word ∈ words, word ≠ mark ";") : ∀ before word after,
      words = before ++ word :: after → dropped (after ++ others).length = false := by
  intro before word after split
  by_contra drops
  have found := omits before word (after ++ others) (by simp [split]) (by simpa using drops)
  exact other word (by simp [split]) found.1

theorem kept_append (untouched : ∀ before word after, words = before ++ word :: after →
    dropped (after ++ others).length = false) :
    kept dropped (words ++ others) = words ++ kept dropped others := by
  induction words with
  | nil => rfl
  | cons word words ih =>
      have stays := untouched [] word words rfl
      have rest : ∀ before next after, words = before ++ next :: after →
          dropped (after ++ others).length = false := by
        intro before next after split
        exact untouched (word :: before) next after (by rw [split, List.cons_append])
      rw [List.cons_append, kept, stays, ih rest]
      rfl

theorem missing_nil (dropped : Nat → Bool) (places : List Span) : missing dropped places [] = [] := by
  cases places <;> rfl

theorem length_missing {places : List Span} (enough : places.length = (kept dropped words).length + 1) :
    (missing dropped places words).length + (kept dropped words).length = words.length := by
  induction words generalizing places with
  | nil =>
      rw [missing_nil]
      rfl
  | cons word words ih =>
      cases places with
      | nil => simp at enough
      | cons last places =>
          rw [kept] at enough ⊢
          rw [missing]
          by_cases drops : dropped words.length = true
          · rw [if_pos drops] at enough ⊢
            have rest := ih enough
            rw [if_pos drops, List.length_cons, List.length_cons]
            omega
          · rw [if_neg drops] at enough ⊢
            rw [List.length_cons, List.length_cons] at enough
            have rest := ih (Nat.add_right_cancel enough)
            rw [if_neg drops, List.length_cons, List.length_cons]
            omega

theorem missing_append (untouched : ∀ before word after, words = before ++ word :: after →
    dropped (after ++ others).length = false) (places : List Span) :
    missing dropped places (words ++ others) = missing dropped (places.drop words.length) others := by
  induction words generalizing places with
  | nil => rfl
  | cons word words ih =>
      have stays := untouched [] word words rfl
      have rest : ∀ before next after, words = before ++ next :: after →
          dropped (after ++ others).length = false := by
        intro before next after split
        exact untouched (word :: before) next after (by rw [split, List.cons_append])
      cases places with
      | nil =>
          rw [List.drop_nil, List.cons_append]
          cases others <;> rfl
      | cons last places =>
          rw [List.cons_append, missing, stays, List.length_cons, List.drop_succ_cons, ← ih rest]
          rfl

theorem kept_sublist (dropped : Nat → Bool) (words : List Word) :
    (kept dropped words).Sublist words := by
  induction words with
  | nil => exact List.Sublist.slnil
  | cons word words ih =>
      rw [kept]
      by_cases drops : dropped words.length = true
      · rw [if_pos drops]
        exact ih.cons word
      · rw [if_neg drops]
        exact ih.cons_cons word

theorem Omits.kept_cons (omits : Omits dropped (word :: others)) (other : word ≠ mark ";") :
    kept dropped (word :: others) = word :: kept dropped others := by
  apply @kept_append dropped [word] others
  apply Omits.untouched omits
  simpa using other

end

/-! ## Words without a `;` -/

/-- No `;` is among the words, and no property comes right after them. -/
def Tidy (words : List Word) : Prop :=
  (∀ word ∈ words, word ≠ mark ";") ∧ words.getLast? ≠ some (mark ".")

def isTidy (word : Word) : Bool := word != mark ";" && word != mark "."

section

variable {words others : List Word} {word : Word}

theorem tidy_nil : Tidy [] := by
  constructor
  · simp
  · simp

theorem tidy_append (first : Tidy words) (second : Tidy others) : Tidy (words ++ others) := by
  constructor
  · rw [List.forall_mem_append]
    exact ⟨first.1, second.1⟩
  · by_cases none : others = []
    · rw [none, List.append_nil]
      exact first.2
    · rw [List.getLast?_append]
      simpa [none] using second.2

theorem ne_of_isTidy (tidy : word.isTidy = true) : word ≠ mark ";" := by
  simp only [isTidy, Bool.and_eq_true, bne_iff_ne] at tidy
  exact tidy.1

theorem tidy_singleton (tidy : word.isTidy = true) : Tidy [word] := by
  simp only [isTidy, Bool.and_eq_true, bne_iff_ne] at tidy
  constructor
  · simpa using tidy.1
  · simpa using tidy.2

theorem tidy_cons (tidy : word.isTidy = true) (rest : Tidy others) : Tidy (word :: others) :=
  tidy_append (tidy_singleton tidy) rest

theorem tidy_of_cons (tidy : Tidy (word :: others)) : Tidy others := by
  obtain ⟨plain, apart⟩ := tidy
  rw [List.forall_mem_cons] at plain
  refine ⟨plain.2, ?_⟩
  by_cases none : others = []
  · simp [none]
  · rw [List.getLast?_cons_of_ne_nil none] at apart
    exact apart

theorem isTidy_name (text : String) : (name text).isTidy = true := by
  simp [isTidy, name, mark]

theorem isTidy_mark {text : String} {does : Denotations → Prop}
    (acts : does (Grammar.standard.denotations text))
    (others : ∀ other ∈ [";", "."], ¬does (Grammar.standard.denotations other)) :
    (mark text).isTidy = true := by
  have semicolon : text ≠ ";" := by
    rintro rfl
    exact others ";" (by simp) acts
  have member : text ≠ "." := by
    rintro rfl
    exact others "." (by simp) acts
  simp [isTidy, mark, semicolon, member]

theorem tidy_brackets {opening closing : String} (opens : (mark opening).isTidy = true)
    (closes : (mark closing).isTidy = true) (inside : Tidy words) :
    Tidy (brackets opening closing words) :=
  tidy_cons opens (tidy_append inside (tidy_singleton closes))

theorem isTidy_literal {kind : TokenKind} (literal : kind = .integer ∨ kind = .string) (text : String) :
    isTidy ⟨kind, text⟩ = true := by
  rcases literal with rfl | rfl
  · simp [isTidy, mark]
  · simp [isTidy, mark]

end

end Word

section

variable {room : Nat} {words : List Word}

theorem Atom.Spelled.tidy {leaf : Atom} {word : Word} (spelled : leaf.Spelled word) :
    word.isTidy = true := by
  cases spelled with
  | literal _ _ literal => exact isTidy_literal literal _
  | _ => exact isTidy_name _

theorem Spelled.tidy {phrase : Phrase} (spelled : Spelled room phrase words) : Tidy words := by
  have round : (mark "(").isTidy = true ∧ (mark ")").isTidy = true := by decide
  have square : (mark "[").isTidy = true ∧ (mark "]").isTidy = true := by decide
  induction spelled with
  | atom spelled => exact tidy_singleton spelled.tidy
  | group _ ih => exact tidy_brackets round.1 round.2 ih
  | unary _ acts _ ih =>
      have apart : ∀ other ∈ [";", "."],
          ¬(Grammar.standard.denotations other).operand? = some .unaryOperator := by decide
      exact tidy_cons (@isTidy_mark _ (·.operand? = some .unaryOperator) acts apart) ih
  | step _ acts _ ih =>
      have apart : ∀ other ∈ [";", "."],
          ¬(Grammar.standard.denotations other).operator? = some .step := by decide
      exact tidy_append ih (tidy_singleton (@isTidy_mark _ (·.operator? = some .step) acts apart))
  | @binary _ _ text _ _ _ _ _ _ acts between _ _ firstIH secondIH =>
      have apart : ∀ other ∈ [";", "."],
          ¬(Grammar.standard.denotations other).operator?.any OperatorForm.isInfix = true := by decide
      have infixes : (Grammar.standard.denotations text).operator?.any OperatorForm.isInfix = true := by
        rw [acts]
        exact between
      have tidy := @isTidy_mark text (·.operator?.any OperatorForm.isInfix = true) infixes apart
      exact tidy_append firstIH (tidy_cons tidy secondIH)
  | ternary _ _ _ _ firstIH secondIH thirdIH =>
      refine tidy_append firstIH (tidy_cons (by decide) ?_)
      exact tidy_append secondIH (tidy_cons (by decide) thirdIH)
  | @member _ _ property _ words _ _ _ ih =>
      constructor
      · rw [List.forall_mem_append]
        refine ⟨ih.1, ?_⟩
        simp [mark, name]
      · simp [mark, name]
  | index _ _ _ leftIH insideIH => exact tidy_append leftIH (tidy_brackets square.1 square.2 insideIH)
  | call _ _ _ leftIH insideIH => exact tidy_append leftIH (tidy_brackets round.1 round.2 insideIH)
  | methodCall _ _ _ _ leftIH insideIH =>
      exact tidy_append leftIH (tidy_brackets round.1 round.2 insideIH)
  | none => exact tidy_nil
  | one _ ih => exact ih
  | more _ _ beforeIH lastIH => exact tidy_append beforeIH (tidy_cons (by decide) lastIH)

theorem Optional.tidy {value? : Option Expr} (optional : Optional room value? words) : Tidy words := by
  cases optional with
  | none => exact tidy_nil
  | some spelled => exact spelled.tidy

theorem Separated.tidy {α : Type} {item : α → List Word → Prop} {items : List α}
    (separated : Separated item items words) (each : ∀ next words, item next words → Tidy words) :
    Tidy words := by
  induction separated with
  | one only => exact each _ _ only
  | more _ last ih => exact tidy_append ih (tidy_cons (by decide) (each _ _ last))

theorem Declarator.Spelled.tidy {declarator : Declarator}
    (spelled : declarator.Spelled room words) : Tidy words := by
  cases spelled with
  | mk _ size initial =>
      refine tidy_cons (isTidy_name _) (tidy_append ?_ ?_)
      · cases size with
        | none => exact tidy_nil
        | brackets size => exact tidy_brackets (by decide) (by decide) size.tidy
      · cases initial with
        | none => exact tidy_nil
        | expression spelled => exact tidy_cons (by decide) spelled.tidy
        | list spelled =>
            exact tidy_cons (by decide) (tidy_brackets (by decide) (by decide) spelled.tidy)

theorem Parameters.tidy {parameters : List Parameter} (written : Parameters parameters words) :
    Tidy words := by
  cases written with
  | none => exact tidy_nil
  | some separated =>
      apply separated.tidy
      intro next words spelled
      cases spelled
      exact tidy_cons (isTidy_name _) (tidy_singleton (isTidy_name _))

theorem Superclass.tidy {superclass? : Option Atom} (written : Superclass superclass? words) :
    Tidy words := by
  cases written with
  | none => exact tidy_nil
  | some => exact tidy_cons (by decide) (tidy_singleton (isTidy_name _))

theorem Atom.Taken.tidy {leaf : Atom} (taken : leaf.Taken words) (operand : leaf.isOperand = true) :
    Tidy words := by
  cases taken with
  | name => exact tidy_singleton (isTidy_name _)
  | literal _ _ literal => exact tidy_singleton (isTidy_literal literal _)
  | mark | closer => simp [isOperand] at operand

end

end Adventure
