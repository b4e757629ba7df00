import Adventure.Proofs.Precedence

/-!
What well-formed expressions are spelled with. Their parts are well-formed too, also the access in a
method call, and all their words are words.
-/

namespace Adventure

open Word

theorem Expr.parenthesized_parenthesize (value : Expr) :
    value.parenthesize.head.parenthesized = true := by
  cases value <;> rfl

theorem Expr.acts_dot : Grammar.standard.denotations "." =
    { power := Power.member, operator? := some .member } := by
  decide

theorem Expr.acts_bracket : Grammar.standard.denotations "[" =
    { power := Power.member, operator? := some .index } := by
  decide

theorem Spelled.access {room : Nat} {access : Head} {object member : Expr} {words : List Word}
    (spelled : Spelled room (.value (.binary access object member)) words)
    (accesses : access.Spells "." ∨ access.Spells "[") :
    (access.Spells "." ∧ ∃ property, member = .atom ⟨.literal, property⟩ ∧ property.Names) ∨
      (access.Spells "[" ∧ ∃ others, Spelled (room - 1) (.value member) others) := by
  have inversion {phrase : Phrase} (spelled : Spelled room phrase words)
      (same : phrase = .value (.binary access object member)) :
      (access.Spells "." ∧ ∃ property, member = .atom ⟨.literal, property⟩ ∧ property.Names) ∨
        (access.Spells "[" ∧ ∃ others, Spelled (room - 1) (.value member) others) := by
    cases spelled with
    | @group _ value =>
        have marked := value.parenthesized_parenthesize
        rw [Phrase.value.inj same] at marked
        rcases accesses with spells | spells
        · exact absurd marked (by simp [Expr.head, spells.plain])
        · exact absurd marked (by simp [Expr.head, spells.plain])
    | binary spells acts between =>
        cases same
        rcases accesses with spells' | spells'
        · rw [← spells.id, spells'.id, Expr.acts_dot, Option.some.injEq] at acts
          simp [← acts, OperatorForm.isInfix] at between
        · rw [← spells.id, spells'.id, Expr.acts_bracket, Option.some.injEq] at acts
          simp [← acts, OperatorForm.isInfix] at between
    | member spells names =>
        cases same
        exact .inl ⟨spells, _, rfl, names⟩
    | index spells _ inside =>
        cases same
        exact .inr ⟨spells, _, inside⟩
    | _ => cases same
  exact inversion spelled rfl

theorem id_name_literal {text : String} (literal : (Word.name text).id = "(literal)") :
    text = "(literal)" := by
  rw [id_name] at literal
  split at literal
  · simp at literal
  · exact literal

theorem isProperty_of_names {head : Head} (names : head.Names)
    (formed : Atom.wellFormed ⟨.literal, head⟩ = true) :
    Expr.isProperty (.atom ⟨.literal, head⟩) = true := by
  simp only [Atom.wellFormed, Head.isMark, Bool.or_eq_true, Bool.and_eq_true, beq_iff_eq] at formed
  have text : isNameText head.text = true := by
    rcases formed with ⟨_, text⟩ | ⟨id, other⟩
    · rw [text]
      decide
    · have number : ¬(isIntegerText "(literal)" = true ∨ isStringText "(literal)" = true) := by
        decide
      rw [id_name_literal (names.id.symm.trans id)] at other
      exact absurd other number
  simp [Expr.isProperty, names.id, names.plain, text]

/-- A property that is spelled as an expression of its own is the constant `NULL`. -/
theorem Spelled.wellFormed_of_property {room : Nat} {member : Expr} {words : List Word}
    (spelled : Spelled room (.value member) words) (property : member.isProperty = true) :
    member.wellFormed = true := by
  obtain ⟨head, atom, names, _⟩ := Expr.property_words property
  have inversion {phrase : Phrase} (spelled : Spelled room phrase words)
      (same : phrase = .value member) : member.wellFormed = true := by
    rw [atom] at same
    cases spelled with
    | atom leaf =>
        cases same
        cases leaf with
        | literal id =>
            have number : isNameText "(literal)" = false := by decide
            simp only [atom, Expr.isProperty, Bool.and_eq_true] at property
            rw [id_name_literal (names.id.symm.trans id), number] at property
            simp at property
        | constant spells =>
            simp [atom, Expr.wellFormed, Atom.wellFormed, Head.isMark, spells.id, spells.text]
    | @group _ value =>
        have marked := value.parenthesized_parenthesize
        rw [Phrase.value.inj same] at marked
        exact absurd marked (by simp [Expr.head, names.plain])
    | _ => cases same
  exact inversion spelled rfl

theorem Spelled.wellFormed_access {room : Nat} {head access : Head} {object member : Expr}
    {arguments : List Expr} {words : List Word}
    (spelled : Spelled room (.value (.binary access object member)) words)
    (accesses : access.Spells "." ∨ access.Spells "[")
    (formed : Expr.wellFormed (.methodCall head object member arguments) = true) :
    Expr.wellFormed (.binary access object member) = true := by
  simp only [Expr.wellFormed, Bool.and_eq_true, Bool.or_eq_true] at formed
  obtain ⟨⟨⟨⟨_, objectFormed⟩, objectTight⟩, memberFormed⟩, _⟩ := formed
  rcases spelled.access accesses with ⟨dot, property, rfl, names⟩ | ⟨bracket, others, inside⟩
  · have isProperty : Expr.isProperty (.atom ⟨.literal, property⟩) = true :=
      memberFormed.elim id fun formed => isProperty_of_names names formed
    simp [Expr.wellFormed, dot.id, dot.text, objectFormed, Expr.acts_dot, objectTight, isProperty]
  · have single : member.wellFormed = true := memberFormed.elim inside.wellFormed_of_property id
    simp [Expr.wellFormed, bracket.id, bracket.text, objectFormed, Expr.acts_bracket, objectTight,
      single]

def Phrase.wellFormed : Phrase → Bool
  | .value single => single.wellFormed
  | .values several => Expr.wellFormedAll several

theorem Expr.wellFormed_parenthesize (value : Expr) :
    value.parenthesize.wellFormed = value.wellFormed := by
  cases value with
  | atom leaf =>
      obtain ⟨kind, head⟩ := leaf
      cases kind <;> rfl
  | _ => simp only [parenthesize, wellFormed, Head.isMark]

theorem Expr.wellFormedAll_append (first second : List Expr) :
    wellFormedAll (first ++ second) = (wellFormedAll first && wellFormedAll second) := by
  induction first with
  | nil => simp [wellFormedAll]
  | cons value others ih => simp [wellFormedAll, ih, Bool.and_assoc]

theorem Word.isSolid_of_operator? {text : String} {form : OperatorForm}
    (acts : (Grammar.standard.denotations text).operator? = some form) :
    (mark text).isSolid = true := by
  have known := @Grammar.denotations_induction Grammar.standard
    (fun id denotations => denotations.operator?.isSome = true → id ∈ Token.operators)
    (fun _ => by simp) (by decide) text
  simpa [isSolid, mark] using known (by simp [acts])

theorem Word.isSolid_of_unary {text : String}
    (acts : (Grammar.standard.denotations text).operand? = some .unaryOperator) :
    (mark text).isSolid = true := by
  have known := @Grammar.denotations_induction Grammar.standard
    (fun id denotations => denotations.operand? = some .unaryOperator → id ∈ Token.operators)
    (fun _ => by simp) (by decide) text
  simpa [isSolid, mark] using known acts

def Word.punctuation : List String :=
  ["(", ")", "[", "]", "\x7b", "\x7d", ",", ";", ":", "?", ".", "="]

theorem Word.isSolid_punctuation {text : String} (member : text ∈ punctuation) :
    (mark text).isSolid = true := by
  have all : ∀ text ∈ punctuation, (mark text).isSolid = true := by decide
  exact all text member

namespace Word

def AllSolid (words : List Word) : Prop := ∀ word ∈ words, word.isSolid = true

variable {word : Word} {words others : List Word}

theorem allSolid_nil : AllSolid [] := by
  intro word member
  cases member

theorem solid_cons (first : word.isSolid = true) (rest : AllSolid others) :
    AllSolid (word :: others) :=
  List.forall_mem_cons.mpr ⟨first, rest⟩

theorem solid_append (first : AllSolid words) (rest : AllSolid others) :
    AllSolid (words ++ others) :=
  List.forall_mem_append.mpr ⟨first, rest⟩

theorem solid_brackets {opening closing : String} (opens : opening ∈ punctuation)
    (closes : closing ∈ punctuation) (inside : AllSolid words) :
    AllSolid (brackets opening closing words) :=
  solid_cons (isSolid_punctuation opens)
    (solid_append inside (solid_cons (isSolid_punctuation closes) allSolid_nil))

end Word

theorem Atom.Spelled.solid {leaf : Atom} {word : Word} (spelled : leaf.Spelled word)
    (formed : leaf.wellFormed = true) : word.isSolid = true := by
  cases spelled with
  | name =>
      simp only [wellFormed, Bool.and_eq_true] at formed
      exact formed.1.2
  | literal _ _ _ solid => exact solid
  | constant | thisObject | superObject => decide

theorem Spelled.solid {room : Nat} {phrase : Phrase} {words : List Word}
    (spelled : Spelled room phrase words) (formed : phrase.wellFormed = true) :
    AllSolid words := by
  induction spelled with
  | atom leaf =>
      simp only [Phrase.wellFormed, Expr.wellFormed] at formed
      exact solid_cons (leaf.solid formed) allSolid_nil
  | @group _ value _ _ ih =>
      simp only [Phrase.wellFormed, value.wellFormed_parenthesize] at formed
      exact solid_brackets (by decide) (by decide) (ih formed)
  | unary _ acts _ ih =>
      simp only [Phrase.wellFormed, Expr.wellFormed, Bool.and_eq_true] at formed
      exact solid_cons (isSolid_of_unary acts) (ih formed.1.2)
  | step _ acts _ ih =>
      simp only [Phrase.wellFormed, Expr.wellFormed, Bool.and_eq_true] at formed
      exact solid_append (ih formed.1.2) (solid_cons (isSolid_of_operator? acts) allSolid_nil)
  | binary spells acts between _ _ firstIH secondIH =>
      obtain rfl := spells.id
      have sides := Expr.sides spells.plain acts between formed
      refine solid_append (firstIH sides.leftFormed) ?_
      exact solid_cons (isSolid_of_operator? acts) (secondIH sides.rightFormed)
  | ternary _ _ _ _ firstIH secondIH thirdIH =>
      simp only [Phrase.wellFormed, Expr.wellFormed, Bool.and_eq_true] at formed
      obtain ⟨⟨⟨⟨_, first⟩, _⟩, second⟩, third⟩ := formed
      refine solid_append (firstIH first) (solid_cons (isSolid_punctuation (by decide)) ?_)
      refine solid_append (secondIH second) (solid_cons (isSolid_punctuation (by decide)) ?_)
      exact thirdIH third
  | member spells _ _ ih =>
      simp only [Phrase.wellFormed, Expr.wellFormed, spells.id, Expr.acts_dot, Bool.and_eq_true,
        Expr.isProperty] at formed
      refine solid_append (ih formed.1.2) (solid_cons (isSolid_punctuation (by decide)) ?_)
      exact solid_cons formed.2.2.2 allSolid_nil
  | index spells _ _ leftIH insideIH =>
      simp only [Phrase.wellFormed, Expr.wellFormed, spells.id, Expr.acts_bracket,
        Bool.and_eq_true] at formed
      refine solid_append (leftIH formed.1.2) ?_
      exact solid_brackets (by decide) (by decide) (insideIH formed.2.2)
  | call _ _ _ leftIH insideIH =>
      simp only [Phrase.wellFormed, Expr.wellFormed, Bool.and_eq_true] at formed
      refine solid_append (leftIH formed.1.1.1.2) ?_
      exact solid_brackets (by decide) (by decide) (insideIH formed.2)
  | methodCall _ accesses left _ leftIH insideIH =>
      have access := left.wellFormed_access accesses formed
      simp only [Phrase.wellFormed, Expr.wellFormed, Bool.and_eq_true] at formed
      refine solid_append (leftIH access) ?_
      exact solid_brackets (by decide) (by decide) (insideIH formed.2)
  | none => exact allSolid_nil
  | one _ ih =>
      simp only [Phrase.wellFormed, Expr.wellFormedAll, Bool.and_true] at formed
      exact ih formed
  | @more _ _ value _ _ _ _ _ beforeIH lastIH =>
      rw [Phrase.wellFormed, Expr.wellFormedAll_append, Bool.and_eq_true] at formed
      have last : value.wellFormed = true := by
        simpa only [Expr.wellFormedAll, Bool.and_true] using formed.2
      refine solid_append (beforeIH formed.1) ?_
      exact solid_cons (isSolid_punctuation (by decide)) (lastIH last)

def Word.opens (word : Word) : Bool := word.denotations.operand?.isSome

def Phrase.isEmpty : Phrase → Bool
  | .values [] => true
  | _ => false

theorem Atom.Spelled.opens {leaf : Atom} {word : Word} (spelled : leaf.Spelled word)
    (formed : leaf.wellFormed = true) : word.opens = true := by
  cases spelled with
  | @name head =>
      simp only [wellFormed, Bool.and_eq_true] at formed
      have free : (Word.name head.text).isFree = true := by
        simp [Word.isFree, Word.name, Option.isNone_iff_eq_none.mp formed.2]
      rw [Word.opens, Word.denotations_name, free]
      rfl
  | literal _ _ literal =>
      have opens : (Grammar.standard.denotations "(literal)").operand?.isSome = true := by
        decide
      rcases literal with rfl | rfl <;> exact opens
  | constant | thisObject | superObject => decide

theorem Spelled.opens {room : Nat} {phrase : Phrase} {words : List Word}
    (spelled : Spelled room phrase words) (formed : phrase.wellFormed = true)
    (some : phrase.isEmpty = false) :
    ∃ word others, words = word :: others ∧ word.opens = true := by
  induction spelled with
  | @atom _ _ word leaf =>
      simp only [Phrase.wellFormed, Expr.wellFormed] at formed
      exact ⟨word, [], rfl, leaf.opens formed⟩
  | group => exact ⟨_, _, rfl, by decide⟩
  | @unary _ _ text _ _ _ acts =>
      refine ⟨_, _, rfl, ?_⟩
      rw [Word.opens, Word.denotations_mark, acts]
      rfl
  | step _ _ _ ih =>
      simp only [Phrase.wellFormed, Expr.wellFormed, Bool.and_eq_true] at formed
      obtain ⟨word, others, rfl, opens⟩ := ih formed.1.2 rfl
      exact ⟨word, _, rfl, opens⟩
  | binary _ _ _ _ _ firstIH | index _ _ _ firstIH | member _ _ _ firstIH =>
      simp only [Phrase.wellFormed, Expr.wellFormed, Bool.and_eq_true] at formed
      obtain ⟨word, others, rfl, opens⟩ := firstIH formed.1.2 rfl
      exact ⟨word, _, rfl, opens⟩
  | ternary _ _ _ _ firstIH =>
      simp only [Phrase.wellFormed, Expr.wellFormed, Bool.and_eq_true] at formed
      obtain ⟨word, others, rfl, opens⟩ := firstIH formed.1.1.1.2 rfl
      exact ⟨word, _, rfl, opens⟩
  | call _ _ _ leftIH =>
      simp only [Phrase.wellFormed, Expr.wellFormed, Bool.and_eq_true] at formed
      obtain ⟨word, others, rfl, opens⟩ := leftIH formed.1.1.1.2 rfl
      exact ⟨word, _, rfl, opens⟩
  | methodCall _ accesses left _ leftIH =>
      obtain ⟨word, others, rfl, opens⟩ := leftIH (left.wellFormed_access accesses formed) rfl
      exact ⟨word, _, rfl, opens⟩
  | none => simp [Phrase.isEmpty] at some
  | one _ ih =>
      simp only [Phrase.wellFormed, Expr.wellFormedAll, Bool.and_true] at formed
      exact ih formed rfl
  | more _ _ beforeIH =>
      rw [Phrase.wellFormed, Expr.wellFormedAll_append, Bool.and_eq_true] at formed
      obtain ⟨word, others, rfl, opens⟩ := beforeIH formed.1 rfl
      exact ⟨word, _, rfl, opens⟩

namespace Word

theorem denotations_of_id {word : Word} {id : String} (same : word.id = id)
    (named : id ≠ "(name)") (literal : id ≠ "(literal)") :
    word.denotations = Grammar.standard.denotations id := by
  obtain ⟨kind, text⟩ := word
  subst same
  cases kind with
  | integer | string => exact absurd rfl literal
  | name =>
      cases free : isFree ⟨.name, text⟩ with
      | true => exact absurd (by simp [Word.id, free]) named
      | false => simp [Word.id, Word.denotations, free]
  | _ => rfl

def starts (word : Word) : Bool := word.denotations.statement?.isSome || word.opens

theorem id_ne_of_starts {word : Word} {closing : String} (starts : word.starts = true)
    (closes : closing ∈ "else" :: closers) : word.id ≠ closing := by
  have idle : ∀ closing ∈ "else" :: closers,
      (Grammar.standard.denotations closing).operand? = none ∧
        (Grammar.standard.denotations closing).statement? = none ∧ closing ≠ "(name)" ∧
          closing ≠ "(literal)" := by decide
  obtain ⟨noOperand, noStatement, named, literal⟩ := idle closing closes
  intro same
  rw [Word.starts, Word.opens, denotations_of_id same named literal, noOperand, noStatement] at starts
  simp at starts

theorem starts_of_opens {word : Word} (opens : word.opens = true) : word.starts = true := by
  rw [starts, opens, Bool.or_true]

theorem starts_of_statement? {word : Word} {form : StatementForm}
    (acts : word.denotations.statement? = some form) : word.starts = true := by
  rw [starts, acts]
  rfl

theorem id_ne_of_opens {word : Word} {closing : String} (opens : word.opens = true)
    (closes : closing ∈ closers) : word.id ≠ closing :=
  id_ne_of_starts (starts_of_opens opens) (List.mem_cons_of_mem "else" closes)

end Word

end Adventure
