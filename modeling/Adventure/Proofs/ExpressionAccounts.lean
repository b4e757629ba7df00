import Adventure.Proofs.Accounts
import Adventure.Proofs.Values

/-!
Expressions, accounted for. What an operator is made on is checked when the operator is consumed, and the
operator's node shows what was found; neither parentheses nor further operators change that.
-/

namespace Adventure

theorem Expr.calling_cases (head : Head) (callee : Expr) (arguments : List Expr) :
    callee.calling head arguments = .call head callee arguments ∨
      ∃ object member, callee.calling head arguments = .methodCall head object member arguments := by
  cases callee with
  | binary access object member =>
      simp only [calling]
      split
      · exact .inr ⟨object, member, rfl⟩
      · exact .inl rfl
  | _ => exact .inl rfl

namespace ParseM.Accounts

variable {context : Context} {tokens : List Token} {fault : Diagnostic} {seen : Option Terminal} {room : Nat}

theorem property : Accounts context tokens fault seen property fun value count =>
    Tally fault value.walk [] count :=
  look fun _ _ => ite (fun _ => after Faultless.advance fun _ _ => value (Tally.atom _)) fun _ =>
    after (Faultless.error rfl _) fun _ _ => after Faultless.advanceUnlessCloser fun _ _ =>
      value (Tally.atom _)

theorem checkCallee (head : Head) (callee : Expr) (arguments : List Expr) :
    Accounts context tokens fault seen (checkCallee (callee.calling head arguments) callee)
      fun _ count => count = (Node.expression (callee.calling head arguments)).faults.count fault := by
  rcases callee.calling_cases head arguments with plain | ⟨object, member, method⟩
  · rw [plain, Node.faults_call]
    exact errorUnless _ _ _
  · rw [method]
    exact value rfl

section

variable (inside : ∀ power, Accounts context tokens fault none (expression room power) fun value count =>
  Tally fault value.walk [] count)

include inside

theorem operandForm {terminal : Terminal} (known : Known context tokens terminal) {form : OperandForm}
    (acts : terminal.denotations.operand? = some form) :
    Accounts context tokens fault seen (operandForm (expression room) terminal form) fun value count =>
      Tally fault value.walk [] count := by
  cases form with
  | itself | literal => exact value (Tally.atom _)
  | undefinedName => exact after (Faultless.noteOccurrence terminal) fun _ _ => value (Tally.atom _)
  | constant | thisObject | superObject =>
      exact after (Faultless.reserve known) fun _ _ => value (Tally.atom _)
  | unaryOperator =>
      refine given fun audit => after (Faultless.reserve known) fun _ _ =>
        bind (inside _) fun operand count tally => value (tally.sound rfl ?_)
      have ids : Expr.stepIds.contains terminal.head.id = false := known.unary_ids audit.grammar acts
      rw [Node.faults_unary, ids]
      rfl
  | group =>
      exact bind (inside _).weaken fun grouped count tally => after (Faultless.expect ")") fun _ _ =>
        value tally.parenthesize

theorem operand : Accounts context tokens fault seen (operand (expression room)) fun value count =>
    Tally fault value.walk [] count := by
  refine look fun token _ => ?_
  cases acts : token.denotations.operand? with
  | some form => exact take fun terminal known same => operandForm inside known (same token rfl ▸ acts)
  | none =>
      exact after (Faultless.error rfl _) fun _ _ => after Faultless.advanceUnlessCloser fun _ _ =>
        value (Tally.atom _)

theorem arguments : Accounts context tokens fault seen (arguments (expression room)) fun values count =>
    Tally fault (Expr.walkAll values) [] count := by
  refine bind (commaList ")" (inside _) (fun values count next more all tally => ?_) Tally.nil)
    fun values count all => after (Faultless.expect ")") fun _ _ => value all
  have one : Expr.walkAll [next] = next.walk := List.append_nil _
  rw [Expr.walkAll_append, one]
  exact all.append tally

theorem operatorForm {terminal : Terminal} (known : Known context tokens terminal) {left : Expr}
    {before : Nat} (tally : Tally fault left.walk [] before) {form : OperatorForm}
    (acts : terminal.denotations.operator? = some form) :
    Accounts context tokens fault seen (operatorForm (expression room) terminal left form)
      fun value count => Tally fault value.walk [] (before + count) := by
  refine given fun audit => ?_
  -- The node that is made has the operator's id, so it shows whether its left side was checked.
  obtain ⟨assigns, steps⟩ : Expr.assignmentIds.contains terminal.head.id = (form == .assignment) ∧
      Expr.stepIds.contains terminal.head.id = (form == .step) := known.operator_ids audit.grammar acts
  have binary (other : form ≠ .assignment) {right : Expr} {count : Nat}
      (tallyRight : Tally fault right.walk [] count) :
      Tally fault (Expr.binary terminal.head left right).walk [] (before + count) := by
    refine (tally.append tallyRight).sound rfl ?_
    rw [Node.faults_binary, assigns, beq_eq_false_iff_ne.mpr other]
    rfl
  cases form with
  | leftAssociative | rightAssociative =>
      exact bind (inside _).weaken fun right count other => value (binary (by decide) other)
  | assignment =>
      refine bind (errorUnless _ _ _) fun _ checked counted => bind (inside _) fun right count other =>
        value ((tally.binary other).of_eq ?_)
      have faults : (Node.expression (.binary terminal.head left right)).faults =
          if left.isLeftValue then [] else [⟨.badLeftValue, left.head.span, .error⟩] := by
        rw [Node.faults_binary, assigns]
        cases left.isLeftValue <;> rfl
      rw [faults, ← counted]
      omega
  | step =>
      refine bind (errorUnless _ _ _) fun _ checked counted => value (tally.unary.of_eq ?_)
      have faults : (Node.expression (.unary terminal.head left)).faults =
          if left.isLeftValue then [] else [⟨.badLeftValue, left.head.span, .error⟩] := by
        rw [Node.faults_unary, steps]
        cases left.isLeftValue <;> rfl
      rw [faults, ← counted]
      omega
  | ternary =>
      refine bind (inside _).weaken fun thenValue count tallyThen => after (Faultless.expect ":") fun _ _ =>
        bind (inside _) fun elseValue more tallyElse => value ?_
      exact (((tally.append tallyThen).append tallyElse).sound rfl rfl).of_eq (Nat.add_assoc _ _ _)
  | member => exact bind property fun right count other => value (binary (by decide) other)
  | index =>
      exact bind (inside _).weaken fun right count other => after (Faultless.expect "]") fun _ _ =>
        value (binary (by decide) other)
  | call =>
      refine bind (arguments inside) fun values count all => bind (checkCallee _ _ _) fun _ checked counted =>
        value ((tally.calling all).of_eq ?_)
      rw [← counted]
      omega

theorem fold {left : Expr} {before : Nat} (tally : Tally fault left.walk [] before) :
    Accounts context tokens fault seen (fold (expression room) left) fun value count =>
      Tally fault value.walk [] (before + count) := by
  refine take fun terminal known _ => ?_
  cases acts : terminal.denotations.operator? with
  | some form => exact operatorForm inside known tally acts
  | none => exact after (Faultless.error rfl _) fun _ _ => value tally

end

/-- An expression is accounted for, by induction on the room for what is inside it. -/
theorem expression (room power : Nat) :
    Accounts context tokens fault seen (expression room power) fun value count =>
      Tally fault value.walk [] count := by
  induction room generalizing power seen with
  | zero => exact after Faultless.refuse fun _ _ => value (Tally.atom _)
  | succ room ih =>
      refine after Faultless.enter fun _ _ => bind (operand fun _ => ih _) fun left before tally =>
        bind (whileToken (fun made count tally => ?_) tally) fun made count final =>
          after Faultless.leave fun _ _ => value final
      exact (fold (fun _ => ih _) tally).imp fun _ more folded => folded.of_eq (Nat.add_assoc _ _ _)

end ParseM.Accounts

end Adventure
