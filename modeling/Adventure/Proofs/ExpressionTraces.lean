import Adventure.Proofs.Origins

/-!
Expressions, traced back to their words. Without an error, the words that an expression was read from are
a spelling of it: every one of them is in the tree, in its place.
-/

namespace Adventure

open Word

theorem Separated.ne_nil {α : Type} {item : α → List Word → Prop} {items : List α} {words : List Word}
    (separated : Separated item items words) : items ≠ [] := by
  cases separated <;> simp

theorem Separated.spelled {room : Nat} {values : List Expr} {words : List Word}
    (separated : Separated (fun value => Spelled room (.value value)) values words) :
    Spelled room (.values values) words := by
  induction separated with
  | one only => exact .one only
  | more before last ih =>
      obtain ⟨first, values, rfl⟩ := List.exists_cons_of_ne_nil before.ne_nil
      exact .more ih last

theorem Spelled.binary_spells {room : Nat} {phrase : Phrase} {words : List Word}
    (spelled : Spelled room phrase words) {head : Head} {left right : Expr}
    (same : phrase = .value (.binary head left right)) (bare : head.parenthesized = false) :
    ∃ text, head.Spells text := by
  cases spelled with
  | binary spells | member spells | index spells =>
      simp only [Phrase.value.injEq, Expr.binary.injEq] at same
      exact ⟨_, same.1 ▸ spells⟩
  | @group _ value =>
      simp only [Phrase.value.injEq] at same
      cases value with
      | binary =>
          simp only [Expr.parenthesize, Expr.binary.injEq] at same
          simp [← same.1] at bare
      | _ => simp [Expr.parenthesize] at same
  | _ => simp at same

/-- A call is spelled by what is called and its arguments, whichever node it becomes. -/
theorem Spelled.calling {room : Nat} {head : Head} {callee : Expr} {arguments : List Expr}
    {words others : List Word} (spells : head.Spells "(")
    (left : Spelled (room + 1) (.value callee) words) (inside : Spelled room (.values arguments) others) :
    Spelled (room + 1) (.value (callee.calling head arguments)) (words ++ brackets "(" ")" others) := by
  cases callee with
  | binary access object member =>
      simp only [Expr.calling]
      split
      · rename_i direct
        simp only [Bool.and_eq_true, Bool.not_eq_true', Expr.accessIds, List.contains_eq_mem,
          List.mem_cons, List.not_mem_nil, or_false, decide_eq_true_eq] at direct
        obtain ⟨text, accesses⟩ := left.binary_spells rfl direct.2
        refine .methodCall spells ?_ left inside
        rcases direct.1 with dot | bracket
        · obtain rfl := accesses.id.symm.trans dot
          exact .inl accesses
        · obtain rfl := accesses.id.symm.trans bracket
          exact .inr accesses
      · exact .call spells left inside
  | _ => exact .call spells left inside

namespace ParseM

variable {α : Type} {context : Context} {tokens : List Token} {seen : Option Terminal} {room : Nat}

section Items

variable (grammar : context.grammar = Grammar.standard) (lexical : ∀ token ∈ tokens, token.Lexical)
  (legible : ∀ token ∈ tokens, token.complaints Grammar.standard = [])

include grammar lexical legible

theorem Traces.expect_mark {text : String} (operator : text ∈ Token.operators) :
    Traces context tokens seen (ParseM.expect text) fun _ words => words = [mark text] := by
  refine (Traces.expect grammar lexical legible text).imp ?_
  rintro terminal words ⟨known, _, id, rfl⟩
  exact ((known.source grammar lexical legible).mark_of_id id operator).2

theorem Traces.expect_name {text : String} (name : isNameText text = true) :
    Traces context tokens seen (ParseM.expect text) fun _ words => words = [Word.name text] := by
  refine (Traces.expect grammar lexical legible text).imp ?_
  rintro terminal words ⟨known, _, id, rfl⟩
  exact ((known.source grammar lexical legible).name_of_id id name).2

theorem Traces.afterCommas {item : ParseM α} {spells : α → List Word → Prop}
    (traces : Traces context tokens none item spells) {first : α} :
    Traces context tokens seen (ParseM.afterCommas item first) fun items rest =>
      ∀ words, Separated spells [first] words → Separated spells items (words ++ rest) := by
  refine .whileToken (fun items => ?_) [first]
  refine .bind (expect_mark grammar lexical legible (by decide)) fun _ => traces.map ?_
  rintro next others spelled _ rfl words separated
  exact .more separated spelled

theorem Traces.commaList {item : ParseM α} {spells : α → List Word → Prop}
    (traces : Traces context tokens none item spells) (closing : String) :
    Traces context tokens seen (ParseM.commaList closing item) fun items words =>
      items = [] ∧ words = [] ∨ Separated spells items words := by
  refine .look fun token _ _ => .ite (fun _ => .value (.inl ⟨rfl, rfl⟩)) fun _ => ?_
  refine .bind traces.weaken fun first => (Traces.afterCommas grammar lexical legible traces).imp ?_
  intro items rest separated words spelled
  exact .inr (separated words (.one spelled))

end Items

section Expressions

variable (grammar : context.grammar = Grammar.standard) (lexical : ∀ token ∈ tokens, token.Lexical)
  (legible : ∀ token ∈ tokens, token.complaints Grammar.standard = [])
  (inner : ∀ power, Traces context tokens none (expression room power) fun value words =>
    Spelled room (.value value) words)

include grammar lexical legible

theorem property_traces : Traces context tokens seen property fun value words =>
    ∃ property : Head, value = .atom ⟨.literal, property⟩ ∧ property.Names ∧
      words = [Word.name property.text] := by
  refine .look fun token known _ => .ite (fun named => ?_) fun _ => ?_
  · obtain ⟨names, words⟩ := (known.source grammar lexical legible).names named
    refine Traces.take grammar lexical legible fun name _ same => ?_
    obtain rfl := same token rfl
    exact .value ⟨name.head, rfl, names, by rw [words]; rfl⟩
  · exact .after_error grammar lexical (.error rfl _)
      (fun _ => .advanceUnlessCloser fun _ _ => .value _) 0

include inner

theorem arguments_traces : Traces context tokens seen (arguments (expression room))
    fun values words => ∃ inside, Spelled room (.values values) inside ∧ words = inside ++ [mark ")"] := by
  refine .bind (.commaList grammar lexical legible (inner _) ")") fun values => ?_
  refine (Traces.expect_mark grammar lexical legible (by decide)).map ?_
  rintro _ _ rfl words listed
  refine ⟨words, ?_, rfl⟩
  rcases listed with ⟨rfl, rfl⟩ | separated
  · exact .none
  · exact separated.spelled

omit inner in
theorem keyword_traces {terminal : Terminal} (known : Known context tokens terminal) {text : String}
    {kind : AtomKind} (id : terminal.id = text) (name : isNameText text = true)
    (spelled : terminal.head.Spells text → (terminal.atom kind).Spelled (Word.name text)) :
    Traces context tokens none (reserve terminal >>= fun _ => pure (Expr.atom (terminal.atom kind)))
      fun value rest => Spelled (room + 1) (.value value) (terminal.words ++ rest) := by
  obtain ⟨spells, words⟩ := (known.source grammar lexical legible).name_of_id id name
  refine (Traces.reserve grammar lexical known).map ?_
  rintro _ _ rfl
  rw [words]
  exact .atom (spelled spells)

theorem operandForm_traces {terminal : Terminal} (known : Known context tokens terminal)
    {form : OperandForm} (acts : terminal.denotations.operand? = some form) :
    Traces context tokens none (operandForm (expression room) terminal form) fun value rest =>
      Spelled (room + 1) (.value value) (terminal.words ++ rest) := by
  have source := known.source grammar lexical legible
  cases form with
  | itself =>
      obtain ⟨names, words⟩ := source.names (source.isName_of_operand (.inl acts))
      refine .value ?_
      rw [words]
      exact .atom (.name names)
  | undefinedName =>
      obtain ⟨names, words⟩ := source.names (source.isName_of_operand (.inr acts))
      refine (Traces.noteOccurrence terminal).map ?_
      rintro _ _ rfl
      rw [words]
      exact .atom (.name names)
  | literal =>
      obtain ⟨word, words, spelled⟩ := source.literal_of_operand acts
      refine .value ?_
      rw [words]
      exact .atom spelled
  | constant =>
      obtain ⟨starts, _⟩ := source.operand acts (by decide) (by decide) (by decide)
      exact keyword_traces grammar lexical legible known (eq_of_beq starts) (by decide) .constant
  | thisObject =>
      obtain ⟨starts, _⟩ := source.operand acts (by decide) (by decide) (by decide)
      exact keyword_traces grammar lexical legible known (eq_of_beq starts) (by decide) .thisObject
  | superObject =>
      obtain ⟨starts, _⟩ := source.operand acts (by decide) (by decide) (by decide)
      exact keyword_traces grammar lexical legible known (eq_of_beq starts) (by decide) .superObject
  | unaryOperator =>
      obtain ⟨starts, acts⟩ := source.operand acts (by decide) (by decide) (by decide)
      obtain ⟨spells, words⟩ := source.mark_of_id rfl (by simpa [OperandForm.startsWith] using starts)
      refine .bind (.reserve grammar lexical known) fun _ => (inner _).map ?_
      rintro operand rest inside _ rfl
      rw [words]
      exact .unary spells acts inside
  | group =>
      obtain ⟨starts, _⟩ := source.operand acts (by decide) (by decide) (by decide)
      obtain ⟨_, words⟩ := source.mark_of_id (eq_of_beq starts) (by decide)
      refine .bind (inner _) fun value => (Traces.expect_mark grammar lexical legible (by decide)).map ?_
      rintro _ _ rfl inside spelled
      rw [words]
      exact .group spelled

theorem operand_traces : Traces context tokens seen (operand (expression room)) fun value words =>
    Spelled (room + 1) (.value value) words := by
  refine .look fun token known _ => ?_
  cases acts : token.denotations.operand? with
  | some form =>
      refine Traces.take grammar lexical legible fun terminal known' same => ?_
      obtain rfl := same token rfl
      exact operandForm_traces grammar lexical legible inner known acts
  | none =>
      exact .after_error grammar lexical (.error rfl _)
        (fun _ => .advanceUnlessCloser fun _ _ => .value _) 0

theorem callOf_traces {terminal : Terminal} (callee : Expr) (spells : terminal.head.Spells "(") :
    Traces context tokens none (callOf (expression room) terminal callee) fun value rest =>
      ∀ words, Spelled (room + 1) (.value callee) words →
        Spelled (room + 1) (.value value) (words ++ mark "(" :: rest) := by
  refine .bind (arguments_traces grammar lexical legible inner) fun values => ?_
  refine (Traces.checkCallee _ callee).map ?_
  rintro _ _ rfl _ ⟨inside, spelled, rfl⟩ words left
  simpa [brackets] using Spelled.calling spells left spelled

theorem operatorForm_traces {terminal : Terminal} (known : Known context tokens terminal)
    {form : OperatorForm} (acts : terminal.denotations.operator? = some form) (left : Expr) :
    Traces context tokens none (operatorForm (expression room) terminal left form) fun value rest =>
      ∀ words, Spelled (room + 1) (.value left) words →
        Spelled (room + 1) (.value value) (words ++ (terminal.words ++ rest)) := by
  have source := known.source grammar lexical legible
  obtain ⟨starts, acts⟩ := source.operator acts
  obtain ⟨spells, own⟩ := source.mark_of_id rfl (OperatorForm.startsWith_operators starts)
  rw [own]
  cases form with
  | leftAssociative | rightAssociative =>
      refine (inner _).map ?_
      exact fun right rest second words first => .binary spells acts rfl first second
  | assignment =>
      refine .bind (Traces.errorUnless _ rfl _) fun _ => (inner _).map ?_
      rintro right rest second _ ⟨rfl, _⟩ words first
      exact .binary spells acts rfl first second
  | step =>
      refine (Traces.errorUnless _ rfl _).map ?_
      rintro _ _ ⟨rfl, _⟩ words left
      exact .step spells acts left
  | ternary =>
      rw [eq_of_beq starts] at spells ⊢
      refine .bind (inner _) fun thenValue => ?_
      refine .bind (Traces.expect_mark grammar lexical legible (by decide)) fun _ => (inner _).map ?_
      rintro elseValue elseWords third _ rfl thenWords second words first
      exact .ternary spells first second third
  | member =>
      rw [eq_of_beq starts] at spells ⊢
      refine (property_traces grammar lexical legible).map ?_
      rintro _ _ ⟨property, rfl, names, rfl⟩ words left
      exact .member spells names left
  | index =>
      rw [eq_of_beq starts] at spells ⊢
      refine .bind (inner _) fun index =>
        (Traces.expect_mark grammar lexical legible (by decide)).map ?_
      rintro _ _ rfl others inside words left
      exact .index spells left inside
  | call =>
      rw [eq_of_beq starts] at spells ⊢
      exact callOf_traces grammar lexical legible inner left spells

theorem fold_traces (left : Expr) : Traces context tokens seen (fold (expression room) left)
    fun value rest => ∀ words, Spelled (room + 1) (.value left) words →
      Spelled (room + 1) (.value value) (words ++ rest) := by
  refine Traces.take grammar lexical legible fun terminal known _ => ?_
  cases acts : terminal.denotations.operator? with
  | some form => exact operatorForm_traces grammar lexical legible inner known acts left
  | none => exact .after_error grammar lexical (.error rfl _) (fun _ => .value _) 0

omit inner in
/-- Without an error, an expression was read from the words that spell it, and from no others. -/
theorem expression_traces (room power : Nat) :
    Traces context tokens none (expression room power) fun value words =>
      Spelled room (.value value) words := by
  induction room generalizing power with
  | zero => exact .after_error grammar lexical (.refuse grammar lexical) (fun _ => .value _) 0
  | succ room ih =>
      refine .bind .enter fun _ => .bind (operand_traces grammar lexical legible ih) fun left => ?_
      refine .bind (.whileToken (fold_traces grammar lexical legible ih) left) fun value => ?_
      refine Traces.leave.map ?_
      rintro _ _ rfl rest others words spelled _ rfl
      simpa using others words spelled

end Expressions

end ParseM

end Adventure
