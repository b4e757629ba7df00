import Adventure.Proofs.Progress

/-!
The terminal consumed last is looked at only where a `;` is missing. Something has been consumed by then,
so it makes no difference what span a document is said to follow.
-/

namespace Adventure.ParseM

variable {α β : Type} {context : Context} {state : ParseState}

def KeepsPrevious (context : Context) (action : ParseM α) (state : ParseState) : Prop :=
  ∀ span, action.run context { state with previousSpan := span } =
    ((action.run context state).1, { (action.run context state).2 with previousSpan := span })

/-- The action does not look at what came before `state`, and puts another span in its place. -/
def Forgets (context : Context) (action : ParseM α) (state : ParseState) : Prop :=
  ∀ span, action.run context { state with previousSpan := span } = action.run context state

/-! What the lookahead is filled with depends neither on what it was nor on what came before. -/

theorem absorb_refill (token : Token) (state : ParseState) (old : Terminal) (span : Span) :
    (absorb token).run context { state with token := old, previousSpan := span } =
      (((absorb token).run context state).1,
        { ((absorb token).run context state).2 with token := old, previousSpan := span }) := by
  simp only [absorb, run_read_bind]
  cases token.kind with
  | directive =>
      unfold noteInclude
      cases token.includeTarget <;> rfl
  | operator => cases context.grammar.get? token.text <;> rfl
  | string => cases token.isClosedString <;> rfl
  | _ => rfl

theorem terminalFrom_refill (tokens : List Token) (state : ParseState) (old : Terminal) (span : Span) :
    (terminalFrom tokens).run context { state with token := old, previousSpan := span } =
      (((terminalFrom tokens).run context state).1,
        { ((terminalFrom tokens).run context state).2 with token := old, previousSpan := span }) := by
  induction tokens generalizing state with
  | nil => rfl
  | cons token others ih =>
      let logged := { state with events := (state.events.push (.lexed token)).push (.advanced token) }
      have absorbed := @absorb_refill context token logged old span
      simp only [terminalFrom, run_bind, run_log]
      rw [absorbed]
      cases ((absorb token).run context logged).1 with
      | none => exact ih _
      | some terminal => rfl

theorem reportDepth_keepsPrevious : KeepsPrevious context reportDepth state := by
  intro span
  simp only [reportDepth, run_read_bind, run_get_bind, run_ite]
  split <;> rfl

namespace Forgets

theorem bind {first : ParseM α} {next : α → ParseM β} (forgets : Forgets context first state) :
    Forgets context (first >>= next) state := by
  intro span
  rw [run_bind, run_bind, forgets span]

theorem after {first : ParseM α} {next : α → ParseM β} (keeps : KeepsPrevious context first state)
    (forgets : Forgets context (next (first.run context state).1) (first.run context state).2) :
    Forgets context (first >>= next) state := by
  intro span
  rw [run_bind, run_bind, keeps span]
  exact forgets span

theorem advance : Forgets context advance state := by
  intro span
  have moved (before : ParseState) : ParseM.advance.run context before =
      (before.token, { ((terminalFrom before.pending).run context before).2 with
        token := ((terminalFrom before.pending).run context before).1
        previousSpan := before.token.span }) := rfl
  rw [moved, moved state, terminalFrom_refill _ state state.token span]

theorem look {next : Terminal → ParseM α} (forgets : Forgets context (next state.token) state) :
    Forgets context (current >>= next) state :=
  after (fun _ => rfl) forgets

theorem skip : Forgets context skip state := bind advance

theorem refuse (present : state.token.isEnd = false) : Forgets context refuse state := by
  refine after reportDepth_keepsPrevious (look ?_)
  simp only [reportDepth_token, present, Bool.false_eq_true, if_false]
  exact bind advance

theorem whileToken {again : Terminal → Bool} {body : α → ParseM α} {value : α}
    (advances : Advances context again body) (present : state.token.isEnd = false)
    (holds : again state.token = true) (forgets : Forgets context (body value) state) :
    Forgets context (whileToken again body value) state := by
  intro span
  have moved : ({ state with previousSpan := span }).token.isEnd = false := present
  rw [whileToken_round advances value present holds, whileToken_round advances value moved holds]
  exact bind forgets span

theorem operand (room : Nat) {form : OperandForm}
    (starts : state.token.denotations.operand? = some form) :
    Forgets context (operand (expression room)) state := by
  refine look ?_
  rw [starts]
  exact bind advance

theorem expression (room power : Nat) {form : OperandForm} (present : state.token.isEnd = false)
    (starts : state.token.denotations.operand? = some form) :
    Forgets context (expression room power) state := by
  cases room with
  | zero => exact bind (refuse present)
  | succ room => exact after (fun _ => rfl) (bind (operand room starts))

theorem skipStatement (present : state.token.isEnd = false) (opened : state.token.id ≠ "\x7d")
    (unstarted : state.token.denotations.statement? = none) :
    Forgets context skipStatement state := by
  let skipped := fun token : Terminal =>
    !token.startsStatement && token.id != ";" && token.id != "\x7d"
  let reported := ((error (.unexpectedToken state.token.text) state.token.span).run context state).2
  by_cases semicolon : state.token.id = ";"
  · have stays (before : ParseState) (same : before.token = state.token) :
        (recover skipped).run context before =
          ((), ((error (.unexpectedToken before.token.text) before.token.span).run context before).2) :=
      whileToken_stop () (by simp [skipped, same, semicolon])
    refine after (fun span => ?_) ?_
    · rw [stays state rfl]
      exact stays { state with previousSpan := span } rfl
    · rw [stays state rfl]
      refine look ?_
      have atSemicolon : reported.token.id = ";" := semicolon
      rw [if_pos atSemicolon]
      exact skip
  · have holds : skipped reported.token = true := by
      simp [skipped, reported, Terminal.startsStatement, unstarted, semicolon, opened]
    exact bind (look (after (fun _ => rfl) (whileToken skip_advances present holds skip)))

theorem statementBody (room : Nat) (present : state.token.isEnd = false)
    (opened : state.token.id ≠ "\x7d") :
    Forgets context (statementBody (ParseM.expression room) (statement room)) state := by
  refine look ?_
  cases starts : state.token.denotations.statement? with
  | some form => exact bind (bind advance)
  | none =>
      cases operand : state.token.denotations.operand? with
      | some form => exact bind (bind (expression room _ present operand))
      | none => exact bind (skipStatement present opened starts)

theorem statement (room : Nat) (present : state.token.isEnd = false)
    (opened : state.token.id ≠ "\x7d") : Forgets context (statement room) state := by
  cases room with
  | zero => exact bind (refuse present)
  | succ room => exact after (fun _ => rfl) (bind (statementBody room present opened))

theorem statements (room : Nat) (present : state.token.isEnd = false) :
    Forgets context (statements (ParseM.statement room)) state := by
  by_cases closing : state.token.id = "\x7d"
  · have stays (before : ParseState) (same : before.token = state.token) :
        (statementsUntilBrace (ParseM.statement room)).run context before = ([], before) :=
      whileToken_stop [] (by simp [same, closing])
    refine after (fun span => ?_) ?_
    · rw [stays state rfl]
      exact stays { state with previousSpan := span } rfl
    · rw [stays state rfl]
      refine whileToken (afterStrayBrace_advances room) present rfl ?_
      refine bind (look (after (fun _ => rfl) ?_))
      exact whileToken skip_advances present (beq_iff_eq.mpr closing) skip
  · refine bind (whileToken (anotherStatement_advances room) present (bne_iff_ne.mpr closing) ?_)
    exact bind (statement room present closing)

end Forgets

end Adventure.ParseM
