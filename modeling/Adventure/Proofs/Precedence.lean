import Adventure.Proofs.Printing

/-!
What the binding powers decide. An expression is read whole where what stands before it binds weaker
than its operator, and ends where it should if what comes after does too.
-/

namespace Adventure

def OperatorForm.powers : OperatorForm → Nat × Nat
  | .leftAssociative => (Power.bitwiseOr, Power.multiplicative)
  | .rightAssociative => (Power.logical, Power.logical)
  | .assignment | .step => (Power.assignment, Power.assignment)
  | .ternary => (Power.ternary, Power.ternary)
  | .member | .index | .call => (Power.member, Power.member)

theorem operator_powers {id : String} {form : OperatorForm}
    (acts : (Grammar.standard.denotations id).operator? = some form) :
    form.powers.1 ≤ (Grammar.standard.denotations id).power ∧
      (Grammar.standard.denotations id).power ≤ form.powers.2 := by
  have bounds := @Grammar.denotations_induction Grammar.standard
    (fun _ denotations => denotations.operator?.all fun form =>
      form.powers.1 ≤ denotations.power && denotations.power ≤ form.powers.2)
    (fun _ => rfl) (by decide) id
  simpa [acts] using bounds

namespace Expr

/-- Whether reading at `power` takes in the expression with its operator. -/
def admits (power : Nat) (value : Expr) : Bool :=
  value.head.parenthesized ||
    match value with
    | .unary head _ =>
        !stepIds.contains head.id || power < (Grammar.standard.denotations head.id).power
    | value => value.power?.all (power < ·)

/-- Whether an operator of power `limit` after the expression is left to what stands around it. -/
def yields (limit : Nat) (value : Expr) : Bool :=
  value.head.parenthesized ||
    match value with
    | .unary head _ => stepIds.contains head.id || limit ≤ Power.unary
    | .binary head _ _ =>
        match (Grammar.standard.denotations head.id).operator? with
        | some .leftAssociative => limit ≤ (Grammar.standard.denotations head.id).power
        | some .rightAssociative =>
            limit ≤ Power.weaker (Grammar.standard.denotations head.id).power
        | some .assignment => limit == 0
        | _ => true
    | .ternary .. => limit == 0
    | _ => true

theorem admits_of_fits {power : Nat} {value : Expr} (tight : value.fits (power + 1) = true) :
    value.admits power = true := by
  simp only [fits, Bool.or_eq_true] at tight
  simp only [admits, Bool.or_eq_true]
  refine tight.imp id fun binds => ?_
  cases value with
  | unary head _ =>
      simp only [power?, Option.all_some, decide_eq_true_eq] at binds
      cases step : stepIds.contains head.id with
      | true =>
          simp only [step, if_true] at binds
          simp only [step, Bool.not_true, Bool.false_or, decide_eq_true_eq]
          omega
      | false => simp only [step, Bool.not_false, Bool.true_or]
  | atom => rfl
  | binary | ternary | call | methodCall =>
      simp only [power?, Option.all_some, decide_eq_true_eq] at binds ⊢
      omega

theorem fits_mono {least less : Nat} {value : Expr} (tight : value.fits least = true)
    (fewer : less ≤ least) : value.fits less = true := by
  simp only [fits, Bool.or_eq_true] at tight ⊢
  refine tight.imp id fun binds => ?_
  cases known : value.power? with
  | none => rfl
  | some power =>
      simp only [known, Option.all_some, decide_eq_true_eq] at binds ⊢
      omega

theorem wellFormed_operator {head : Head} {left right : Expr}
    (formed : wellFormed (.binary head left right) = true) :
    ∃ form, (Grammar.standard.denotations head.id).operator? = some form ∧
      (form.isInfix = true ∨ form = .member ∨ form = .index) := by
  simp only [wellFormed, Bool.and_eq_true] at formed
  cases acts : (Grammar.standard.denotations head.id).operator? with
  | none => simp [acts] at formed
  | some form =>
      refine ⟨form, rfl, ?_⟩
      cases form with
      | leftAssociative | rightAssociative | assignment => exact .inl rfl
      | member => exact .inr (.inl rfl)
      | index => exact .inr (.inr rfl)
      | step | ternary | call => simp [acts] at formed

theorem fits_of_wellFormed {value : Expr} (formed : value.wellFormed = true) :
    value.fits Power.assignment = true := by
  simp only [fits, Bool.or_eq_true]
  right
  cases value with
  | atom => rfl
  | unary head operand =>
      cases step : stepIds.contains head.id with
      | true =>
          have powers := operator_powers (stepIds_step step)
          simp only [power?, step, if_true, Option.all_some, decide_eq_true_eq]
          exact powers.1
      | false =>
          simp only [power?, step, Bool.false_eq_true, if_false]
          decide
  | binary head left right =>
      obtain ⟨form, acts, _⟩ := wellFormed_operator formed
      have powers := operator_powers acts
      simp only [power?, Option.all_some, decide_eq_true_eq]
      have least : Power.assignment ≤ form.powers.1 := by cases form <;> decide
      omega
  | ternary head =>
      simp only [wellFormed, Head.isMark, Bool.and_eq_true, beq_iff_eq] at formed
      simp only [power?, formed.1.1.1.1.1]
      decide
  | call head =>
      simp only [wellFormed, Head.isMark, Bool.and_eq_true, beq_iff_eq] at formed
      simp only [power?, formed.1.1.1.1.1]
      decide
  | methodCall head =>
      simp only [wellFormed, Head.isMark, Bool.and_eq_true, beq_iff_eq] at formed
      simp only [power?, formed.1.1.1.1.1]
      decide

theorem operator?_assignment (id : String) :
    (Grammar.standard.denotations id).operator? = some .assignment → id ∈ assignmentIds :=
  @Grammar.denotations_induction Grammar.standard
    (fun id denotations => denotations.operator? = some .assignment → id ∈ assignmentIds)
    (fun _ => by simp) (by decide) id

theorem operator?_step (id : String) :
    (Grammar.standard.denotations id).operator? = some .step → stepIds.contains id = true :=
  @Grammar.denotations_induction Grammar.standard
    (fun id denotations => denotations.operator? = some .step → stepIds.contains id = true)
    (fun _ => by simp) (by decide) id

theorem assignmentIds_iff {id : String} {form : OperatorForm}
    (acts : (Grammar.standard.denotations id).operator? = some form) :
    assignmentIds.contains id = true ↔ form = .assignment := by
  have assigns : ∀ id ∈ assignmentIds,
      (Grammar.standard.denotations id).operator? = some .assignment := by decide
  rw [List.contains_eq_mem, decide_eq_true_eq]
  refine ⟨fun member => ?_, fun same => ?_⟩
  · rw [assigns id member, Option.some.injEq] at acts
    exact acts.symm
  · rw [same] at acts
    exact operator?_assignment id acts

theorem yields_right {least limit : Nat} {value : Expr} (formed : value.wellFormed = true)
    (tight : value.fits least = true) (above : Power.ternary < least) (weak : limit < least) :
    value.yields limit = true := by
  simp only [fits, Bool.or_eq_true] at tight
  simp only [yields, Bool.or_eq_true]
  refine tight.imp id fun binds => ?_
  cases value with
  | atom | call | methodCall => rfl
  | unary head operand =>
      cases step : stepIds.contains head.id with
      | true => simp only [step, Bool.true_or]
      | false =>
          simp only [power?, step, Bool.false_eq_true, if_false, Option.all_some,
            decide_eq_true_eq] at binds
          simp only [step, Bool.false_or, decide_eq_true_eq]
          omega
  | binary head left right =>
      obtain ⟨form, acts, _⟩ := wellFormed_operator formed
      have powers := operator_powers acts
      simp only [power?, Option.all_some, decide_eq_true_eq] at binds
      simp only [acts]
      cases form with
      | leftAssociative =>
          simp only [decide_eq_true_eq]
          omega
      | rightAssociative =>
          rw [decide_eq_true_eq, Power.weaker]
          omega
      | assignment =>
          simp only [OperatorForm.powers, Power.assignment, Power.ternary] at powers above
          omega
      | _ => rfl
  | ternary head condition thenValue elseValue =>
      simp only [wellFormed, Head.isMark, Bool.and_eq_true, beq_iff_eq] at formed
      have power : (Grammar.standard.denotations "?").power = Power.ternary := by decide
      simp only [power?, formed.1.1.1.1.1, power, Option.all_some, decide_eq_true_eq] at binds
      omega

/-- An operator after its left operand is not taken over by the operand. Only an operator that
associates to the right could do so, at its own power. -/
theorem yields_left {least limit : Nat} {value : Expr} (formed : value.wellFormed = true)
    (tight : value.fitsLeft least = true) (weak : limit ≤ least)
    (apart : limit < least ∨ limit ≠ Power.logical) : value.yields limit = true := by
  simp only [fitsLeft, fits, Bool.and_eq_true, Bool.or_eq_true, Bool.not_eq_true',
    Bool.or_eq_false_iff] at tight
  simp only [yields, Bool.or_eq_true]
  obtain ⟨marked | binds, marked | ⟨noChoice, noAssignment⟩⟩ := tight
  · exact .inl marked
  · exact .inl marked
  · exact .inl marked
  right
  cases value with
  | atom | call | methodCall => rfl
  | unary head operand =>
      cases step : stepIds.contains head.id with
      | true => simp only [step, Bool.true_or]
      | false =>
          simp only [power?, step, Bool.false_eq_true, if_false, Option.all_some,
            decide_eq_true_eq] at binds
          simp only [step, Bool.false_or, decide_eq_true_eq]
          omega
  | binary head left right =>
      obtain ⟨form, acts, _⟩ := wellFormed_operator formed
      have powers := operator_powers acts
      simp only [power?, Option.all_some, decide_eq_true_eq] at binds
      simp only [acts]
      cases form with
      | leftAssociative =>
          simp only [decide_eq_true_eq]
          omega
      | rightAssociative =>
          simp only [OperatorForm.powers] at powers
          rw [decide_eq_true_eq, Power.weaker]
          omega
      | assignment => simp [isAssigning, operator?_assignment _ acts] at noAssignment
      | _ => rfl
  | ternary => simp [isTernary] at noChoice

/-- What a unary operator is in front of is a unary operator again, or binds as a member does. -/
theorem unary_operand {value : Expr} (formed : value.wellFormed = true)
    (tight : value.fits Power.unary = true) :
    value.admits Power.unary = true ∧ value.yields Power.unary = true := by
  simp only [fits, Bool.or_eq_true] at tight
  simp only [admits, yields, Bool.or_eq_true]
  rcases tight with marked | binds
  · exact ⟨.inl marked, .inl marked⟩
  have call : Power.unary < (Grammar.standard.denotations "(").power := by decide
  have choice : (Grammar.standard.denotations "?").power < Power.unary := by decide
  cases value with
  | atom => exact ⟨.inr rfl, .inr rfl⟩
  | unary head operand =>
      cases step : stepIds.contains head.id with
      | true =>
          have powers := operator_powers (stepIds_step step)
          simp only [power?, step, if_true, Option.all_some, decide_eq_true_eq] at binds
          simp only [OperatorForm.powers, Power.assignment, Power.unary] at powers binds
          omega
      | false => exact ⟨.inr (by simp only [step, Bool.not_false, Bool.true_or]), .inr (by simp)⟩
  | binary head left right =>
      obtain ⟨form, acts, two⟩ := wellFormed_operator formed
      have powers := operator_powers acts
      simp only [power?, Option.all_some, decide_eq_true_eq] at binds ⊢
      simp only [acts]
      have access : form = .member ∨ form = .index := by
        refine two.resolve_left fun between => ?_
        have weak : form.powers.2 < Power.unary := by
          cases form <;> simp_all [OperatorForm.isInfix] <;> decide
        omega
      rcases access with rfl | rfl
      · have tighter : Power.unary < OperatorForm.member.powers.1 := by decide
        exact ⟨.inr (by omega), .inr rfl⟩
      · have tighter : Power.unary < OperatorForm.index.powers.1 := by decide
        exact ⟨.inr (by omega), .inr rfl⟩
  | ternary head condition thenValue elseValue =>
      simp only [wellFormed, Head.isMark, Bool.and_eq_true, beq_iff_eq] at formed
      simp only [power?, formed.1.1.1.1.1, Option.all_some, decide_eq_true_eq] at binds
      omega
  | call head =>
      simp only [wellFormed, Head.isMark, Bool.and_eq_true, beq_iff_eq] at formed
      simp only [power?, formed.1.1.1.1.1, Option.all_some, decide_eq_true_eq]
      exact ⟨.inr call, .inr trivial⟩
  | methodCall head =>
      simp only [wellFormed, Head.isMark, Bool.and_eq_true, beq_iff_eq] at formed
      simp only [power?, formed.1.1.1.1.1, Option.all_some, decide_eq_true_eq]
      exact ⟨.inr call, .inr trivial⟩

theorem yields_mono {limit less : Nat} {value : Expr} (yielded : value.yields limit = true)
    (weaker : less ≤ limit) : value.yields less = true := by
  simp only [yields, Bool.or_eq_true] at yielded ⊢
  refine yielded.imp id fun apart => ?_
  cases value with
  | atom | call | methodCall => rfl
  | unary =>
      simp only [Bool.or_eq_true, decide_eq_true_eq] at apart ⊢
      exact apart.imp id fun least => Nat.le_trans weaker least
  | binary head =>
      cases acts : (Grammar.standard.denotations head.id).operator? with
      | none => simp only [acts]
      | some form =>
          simp only [acts] at apart ⊢
          cases form with
          | leftAssociative | rightAssociative =>
              simp only [decide_eq_true_eq] at apart ⊢
              exact Nat.le_trans weaker apart
          | assignment =>
              simp only [beq_iff_eq] at apart ⊢
              omega
          | _ => rfl
  | ternary =>
      simp only [beq_iff_eq] at apart ⊢
      omega

theorem yields_zero (value : Expr) : value.yields 0 = true := by
  simp only [yields, Bool.or_eq_true]
  right
  cases value with
  | unary => simp
  | binary head =>
      cases acts : (Grammar.standard.denotations head.id).operator? with
      | none => simp [acts]
      | some form => cases form <;> simp [acts]
  | _ => rfl

theorem admits_zero {value : Expr} (formed : value.wellFormed = true) : value.admits 0 = true :=
  admits_of_fits (fits_mono (fits_of_wellFormed formed) (by decide))

theorem admits_left {power least : Nat} {value : Expr} (tight : value.fitsLeft least = true)
    (weaker : power < least) : value.admits power = true := by
  simp only [fitsLeft, Bool.and_eq_true] at tight
  exact admits_of_fits (fits_mono tight.1 weaker)

end Expr

def OperatorForm.inside (form : OperatorForm) (power : Nat) : Nat :=
  match form with
  | .rightAssociative => Power.weaker power
  | .assignment => Power.weaker Power.assignment
  | _ => power

namespace Expr

/-- What holds of the two sides of an operator in a well-formed expression: the left one is taken in
where the whole is and leaves the operator alone, and the right one is taken in where the operator
reads it and leaves alone what the whole leaves alone. -/
structure Sides (head : Head) (left right : Expr) (form : OperatorForm) : Prop where
  leftFormed : left.wellFormed = true
  rightFormed : right.wellFormed = true
  admitsLeft {power : Nat} : (binary head left right).admits power = true →
    left.admits power = true
  yieldsLeft : left.yields (Grammar.standard.denotations head.id).power = true
  admitsRight : right.admits (form.inside (Grammar.standard.denotations head.id).power) = true
  yieldsRight {limit : Nat} : (binary head left right).yields limit = true →
    limit ≤ form.inside (Grammar.standard.denotations head.id).power ∧ right.yields limit = true

theorem admits_binary {head : Head} {left right : Expr} {power : Nat}
    (plain : head.parenthesized = false) :
    (binary head left right).admits power = true ↔
      power < (Grammar.standard.denotations head.id).power := by
  simp [admits, Expr.head, plain, power?]

theorem sides {head : Head} {left right : Expr} {form : OperatorForm}
    (plain : head.parenthesized = false)
    (acts : (Grammar.standard.denotations head.id).operator? = some form)
    (between : form.isInfix = true) (formed : wellFormed (.binary head left right) = true) :
    Sides head left right form := by
  have powers := operator_powers acts
  simp only [wellFormed, Bool.and_eq_true] at formed
  obtain ⟨⟨_, leftFormed⟩, position⟩ := formed
  -- The forms differ in how tightly each side has to bind: as tightly as the operator, or more.
  cases form with
  | leftAssociative =>
      simp only [acts, Bool.and_eq_true] at position
      obtain ⟨⟨leftTight, rightTight⟩, rightFormed⟩ := position
      simp only [OperatorForm.powers, Power.bitwiseOr] at powers
      refine ⟨leftFormed, rightFormed, fun admitted => ?_, ?_, admits_of_fits rightTight,
        fun yielded => ?_⟩
      · exact admits_left leftTight ((admits_binary plain).mp admitted)
      · have other : (Grammar.standard.denotations head.id).power ≠ Power.logical := by
          simp only [Power.logical]
          omega
        exact yields_left leftFormed leftTight (Nat.le_refl _) (.inr other)
      · simp only [yields, Expr.head, plain, acts, Bool.false_or, decide_eq_true_eq] at yielded
        have above : Power.ternary < (Grammar.standard.denotations head.id).power + 1 := by
          simp only [Power.ternary]
          omega
        exact ⟨yielded, yields_right rightFormed rightTight above (Nat.lt_succ_of_le yielded)⟩
  | rightAssociative =>
      simp only [acts, Bool.and_eq_true] at position
      obtain ⟨⟨leftTight, rightTight⟩, rightFormed⟩ := position
      simp only [OperatorForm.powers, Power.logical] at powers
      refine ⟨leftFormed, rightFormed, fun admitted => ?_, ?_, ?_, fun yielded => ?_⟩
      · have weaker := (admits_binary plain).mp admitted
        exact admits_left leftTight (Nat.lt_succ_of_lt weaker)
      · exact yields_left leftFormed leftTight (Nat.le_succ _) (.inl (Nat.lt_succ_self _))
      · have less : OperatorForm.inside .rightAssociative
            (Grammar.standard.denotations head.id).power + 1 ≤
              (Grammar.standard.denotations head.id).power := by
          simp only [OperatorForm.inside, Power.weaker]
          omega
        exact admits_of_fits (fits_mono rightTight less)
      · simp only [yields, Expr.head, plain, acts, Bool.false_or, decide_eq_true_eq] at yielded
        have above : Power.ternary < (Grammar.standard.denotations head.id).power := by
          simp only [Power.ternary]
          omega
        have below : Power.weaker (Grammar.standard.denotations head.id).power <
            (Grammar.standard.denotations head.id).power := by
          simp only [Power.weaker]
          omega
        exact ⟨yielded,
          yields_right rightFormed rightTight above (Nat.lt_of_le_of_lt yielded below)⟩
  | assignment =>
      simp only [acts, Bool.and_eq_true] at position
      obtain ⟨leftTight, rightFormed⟩ := position
      simp only [OperatorForm.powers, Power.assignment] at powers
      refine ⟨leftFormed, rightFormed, fun admitted => ?_, ?_, ?_, fun yielded => ?_⟩
      · have weaker := (admits_binary plain).mp admitted
        exact admits_left leftTight (Nat.lt_succ_of_lt weaker)
      · exact yields_left leftFormed leftTight (Nat.le_succ _) (.inl (Nat.lt_succ_self _))
      · exact admits_of_fits (fits_of_wellFormed rightFormed)
      · simp only [yields, Expr.head, plain, acts, Bool.false_or, beq_iff_eq] at yielded
        subst yielded
        exact ⟨Nat.zero_le _, yields_zero right⟩
  | _ => simp [OperatorForm.isInfix] at between

end Expr

end Adventure
