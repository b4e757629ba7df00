import Adventure.Proofs.Lookahead
import Adventure.Proofs.Transitions

/-!
Progress. Reading never goes back: what is ahead afterwards is the end of what was ahead before. A
loop whose rounds each consume a token stops by its own condition, so the bound on its rounds can
be forgotten.
-/

namespace Adventure.ParseM

variable {α : Type} {context : Context} {again : Terminal → Bool} {body : α → ParseM α}

def Onward (before after : ParseState) : Prop := after.ahead <:+ before.ahead

/-- The lookahead of `before` is no longer ahead in `after`. -/
def Consumes (before after : ParseState) : Prop :=
  ∃ token others, before.ahead = token :: others ∧ after.ahead <:+ others

theorem onward_of_eq {before after : ParseState} (same : after.ahead = before.ahead) :
    Onward before after := by
  unfold Onward
  simp [same]

theorem Consumes.onward {before after : ParseState} (consumes : Consumes before after) :
    Onward before after := by
  obtain ⟨token, others, split, suffix⟩ := consumes
  unfold Onward
  rw [split]
  exact suffix.trans (List.suffix_cons token others)

theorem Consumes.trans {before middle after : ParseState} (consumes : Consumes before middle)
    (onward : Onward middle after) : Consumes before after := by
  obtain ⟨token, others, split, suffix⟩ := consumes
  exact ⟨token, others, split, onward.trans suffix⟩

theorem Onward.consumes {before middle after : ParseState} (onward : Onward before middle)
    (consumes : Consumes middle after) : Consumes before after := by
  obtain ⟨passed, split⟩ := onward
  obtain ⟨token, others, split', suffix⟩ := consumes
  rw [split'] at split
  cases passed with
  | nil => exact ⟨token, others, split.symm, suffix⟩
  | cons first passed =>
      refine ⟨first, passed ++ token :: others, split.symm, ?_⟩
      exact suffix.trans ((List.suffix_cons token others).trans (List.suffix_append _ _))

theorem Consumes.remaining_lt {before after : ParseState} (consumes : Consumes before after) :
    after.remaining < before.remaining := by
  obtain ⟨token, others, split, suffix⟩ := consumes
  have bound := suffix.length_le
  simp only [ParseState.remaining, split, List.length_cons]
  omega

theorem ahead_of_isEnd_false {state : ParseState} (present : state.token.isEnd = false) :
    ∃ token, state.token.token? = some token ∧ state.ahead = token :: state.pending := by
  unfold Terminal.isEnd at present
  cases origin : state.token.origin with
  | none => simp [origin] at present
  | some kind => simp [ParseState.ahead, Terminal.token?, origin]

theorem Arrival.token?_suffix {state : ParseState} {passed pending : List Token}
    {terminal : Terminal} (arrival : Arrival context state passed pending terminal) :
    terminal.token?.toList ++ pending <:+ passed ++ pending := by
  cases arrival with
  | finish => exact List.nil_suffix
  | terminal _ meant =>
      rw [Token.meaning?_token? meant, List.append_assoc]
      exact List.suffix_append _ _

theorem advance_ahead (state : ParseState) :
    (advance.run context state).2.ahead <:+ state.pending := by
  obtain ⟨terminal, passed, pending, events, ran, split, arrival⟩ :=
    @advance_run context state
  rw [ran, split]
  exact arrival.token?_suffix

theorem advance_consumes {state : ParseState} (present : state.token.isEnd = false) :
    Consumes state (advance.run context state).2 := by
  obtain ⟨token, _, ahead⟩ := ahead_of_isEnd_false present
  exact ⟨token, state.pending, ahead, advance_ahead state⟩

theorem adopt_ahead (outcome : ScopeTree × Option Diagnostic) (state : ParseState) :
    ((adopt outcome).run context state).2.ahead = state.ahead := by
  obtain ⟨tree, diagnostic?⟩ := outcome
  cases diagnostic? <;> rfl

theorem popScope_ahead (state : ParseState) :
    (popScope.run context state).2.ahead = state.ahead := by
  simp only [popScope, run_bind, run_get]
  cases state.scopes.pop state.scope <;> rfl

theorem onward_stable : Stable context Onward where
  refl state := List.suffix_refl state.ahead
  trans first second := second.trans first
  step elementary state := by
    cases elementary with
    | advance => exact (advance_ahead state).trans (List.suffix_append _ _)
    | define | reserve => exact onward_of_eq (adopt_ahead _ state)
    | _ => exact onward_of_eq rfl
  scope onward := (onward_of_eq (popScope_ahead _)).trans onward

theorem onward_graded : Graded context fun _ => Onward :=
  onward_stable.graded fun onward => onward

/-- The unbounded loop: rounds of `body`, each of which consumes something, for as long as the
lookahead satisfies `again`. -/
inductive Loops (context : Context) (again : Terminal → Bool) (body : α → ParseM α) :
    α → ParseState → α × ParseState → Prop
  | stop {value : α} {state : ParseState} (past : again state.token = false) :
      Loops context again body value state (value, state)
  | round {value : α} {state : ParseState} {last : α × ParseState}
      (holds : again state.token = true)
      (consumes : Consumes state ((body value).run context state).2)
      (others : Loops context again body ((body value).run context state).1
        ((body value).run context state).2 last) :
      Loops context again body value state last

theorem Loops.stopped {value : α} {state : ParseState} {last : α × ParseState}
    (loops : Loops context again body value state last) : again last.2.token = false := by
  induction loops with
  | stop past => exact past
  | round _ _ _ ih => exact ih

theorem Loops.onward {value : α} {state : ParseState} {last : α × ParseState}
    (loops : Loops context again body value state last) : Onward state last.2 := by
  induction loops with
  | stop => exact onward_of_eq rfl
  | round _ consumes _ ih => exact ih.trans consumes.onward

theorem Loops.unique {value : α} {state : ParseState} {first second : α × ParseState}
    (loops : Loops context again body value state first)
    (others : Loops context again body value state second) : first = second := by
  induction loops with
  | stop past =>
      cases others with
      | stop => rfl
      | round holds => simp [past] at holds
  | round holds _ _ ih =>
      cases others with
      | stop past => simp [past] at holds
      | round _ _ others => exact ih others

theorem Loops.congr {again' : Terminal → Bool} {kept : ParseState → Prop} {value : α}
    {state : ParseState} {last : α × ParseState}
    (same : ∀ state, kept state → again' state.token = again state.token)
    (keeps : ∀ value state, kept state → kept ((body value).run context state).2)
    (loops : Loops context again body value state last) (holds : kept state) :
    Loops context again' body value state last := by
  induction loops with
  | stop past => exact .stop (by rw [same _ holds]; exact past)
  | round again consumes _ ih =>
      exact .round (by rw [same _ holds]; exact again) consumes (ih (keeps _ _ holds))

def Advances (context : Context) (again : Terminal → Bool) (body : α → ParseM α) : Prop :=
  ∀ value state, state.token.isEnd = false → again state.token = true →
    Consumes state ((body value).run context state).2

theorem remaining_eq_zero {state : ParseState} (nothing : state.remaining = 0) :
    state.token.isEnd = true := by
  cases ended : state.token.isEnd with
  | true => rfl
  | false =>
      obtain ⟨token, _, ahead⟩ := ahead_of_isEnd_false ended
      simp [ParseState.remaining, ahead] at nothing

/-- A bound that allows a round for each token ahead never stops a loop that advances. -/
theorem rounds_loops (advances : Advances context again body) (count : Nat) (value : α)
    (state : ParseState) (enough : state.remaining ≤ count) :
    Loops context (fun token => !token.isEnd && again token) body value state
      ((rounds again body count value).run context state) := by
  induction count generalizing value state with
  | zero =>
      have ended := remaining_eq_zero (Nat.le_zero.mp enough)
      exact .stop (by simp [ended])
  | succ count ih =>
      simp only [rounds, run_current_bind, run_ite]
      by_cases condition : (!state.token.isEnd && again state.token) = true
      · have met : state.token.isEnd = false ∧ again state.token = true := by
          simpa using condition
        have consumes := advances value state met.1 met.2
        have fewer := consumes.remaining_lt
        rw [if_pos condition]
        exact .round condition consumes (ih _ _ (by omega))
      · rw [if_neg condition]
        exact .stop (by simpa using condition)

theorem whileToken_loops (advances : Advances context again body) (value : α)
    (state : ParseState) :
    Loops context (fun token => !token.isEnd && again token) body value state
      ((whileToken again body value).run context state) :=
  rounds_loops advances state.remaining value state (Nat.le_refl _)

theorem whileToken_stop (value : α) {state : ParseState}
    (past : (!state.token.isEnd && again state.token) = false) :
    (whileToken again body value).run context state = (value, state) := by
  simp only [whileToken, run_get_bind]
  cases state.remaining with
  | zero => rfl
  | succ count =>
      simp only [rounds, run_current_bind, past, Bool.false_eq_true, if_false, run_pure]

theorem whileToken_round (advances : Advances context again body) (value : α)
    {state : ParseState} (present : state.token.isEnd = false) (holds : again state.token = true) :
    (whileToken again body value).run context state =
      (body value >>= whileToken again body).run context state := by
  have round : Loops context (fun token => !token.isEnd && again token) body value state
      ((body value >>= whileToken again body).run context state) :=
    .round (by simp [present, holds]) (advances value state present holds)
      (whileToken_loops advances _ _)
  exact (whileToken_loops advances value state).unique round

theorem whileToken_consumes (advances : Advances context again body) (value : α)
    {state : ParseState} (present : state.token.isEnd = false) (holds : again state.token = true) :
    Consumes state ((whileToken again body value).run context state).2 := by
  have first := advances value state present holds
  rw [whileToken_round advances value present holds]
  exact first.trans (whileToken_loops advances _ _).onward

theorem whileToken_stopped (advances : Advances context again body) (value : α)
    (state : ParseState) :
    let last := ((whileToken again body value).run context state).2
    last.token.isEnd = true ∨ again last.token = false := by
  have past := (whileToken_loops advances value state).stopped
  simp only [Bool.and_eq_false_iff, Bool.not_eq_false'] at past
  exact past

/-! The rounds of every loop consume something. -/

theorem bind_consumes {β : Type} {first : ParseM β} {next : β → Open α} {state : ParseState}
    (consumes : Consumes state (first.run context state).2) (built : ∀ value, Built (next value))
    (room : Nat) :
    Consumes state
      ((first >>= fun value => next value (expression room) (statement room)).run context state).2 :=
  consumes.trans (onward_graded.reader (built _) room _)

theorem skip_advances : Advances context again fun _ => skip := by
  intro _ state present _
  exact advance_consumes present

theorem expect_consumes (id : String) {state : ParseState} (present : state.token.isEnd = false) :
    Consumes state ((expect id).run context state).2 := by
  simp only [expect, run_current_bind]
  rw [run_bind_of_eq (errorUnless_run _ _ _ state)]
  refine Onward.consumes (onward_of_eq ?_) (advance_consumes ?_)
  · rfl
  · exact present

theorem fold_advances (room : Nat) : Advances context again (fold (expression room)) := by
  intro left state present _
  have first : Consumes state (advance.run context state).2 := advance_consumes present
  unfold fold
  rw [run_bind]
  refine first.trans ?_
  generalize (advance.run context state).1 = terminal
  cases terminal.denotations.operator? with
  | some form => exact onward_graded.reader (.of_composed (.operatorForm terminal left form)) room _
  | none => exact onward_of_eq rfl

theorem afterComma_advances {item : Open α} (built : Built item) (room : Nat) :
    Advances context again (afterComma (item (expression room) (statement room))) := by
  intro items state present _
  exact bind_consumes (expect_consumes _ present)
    (fun _ => .bind built fun next => .value (items ++ [next])) room

theorem reportDepth_token (state : ParseState) :
    (reportDepth.run context state).2.token = state.token := by
  simp only [reportDepth, run_read_bind, run_get_bind, run_ite]
  split <;> rfl

theorem refuse_consumes {state : ParseState} (present : state.token.isEnd = false) :
    Consumes state (refuse.run context state).2 := by
  have kept := @reportDepth_token context state
  have onward : Onward state (reportDepth.run context state).2 := by
    simp only [reportDepth, run_read_bind, run_get_bind, run_ite]
    split <;> exact onward_of_eq rfl
  simp only [refuse, run_bind, run_current, kept, present]
  refine onward.consumes (advance_consumes ?_)
  rw [kept]
  exact present

theorem operand_consumes (room : Nat) {state : ParseState} {form : OperandForm}
    (present : state.token.isEnd = false) (starts : state.token.denotations.operand? = some form) :
    Consumes state ((operand (expression room)).run context state).2 := by
  simp only [operand, run_current_bind, starts]
  exact bind_consumes (advance_consumes present) (fun terminal => .operandForm terminal form) room

theorem expression_consumes (room power : Nat) {state : ParseState} {form : OperandForm}
    (present : state.token.isEnd = false) (starts : state.token.denotations.operand? = some form) :
    Consumes state ((expression room power).run context state).2 := by
  cases room with
  | zero => exact refuse_consumes present
  | succ room =>
      let entered := (enter.run context state).2
      have started : Consumes entered ((operand (expression room)).run context entered).2 :=
        operand_consumes room present starts
      exact bind_consumes started
        (fun left => .whileToken _ (fun left => .of_composed (.fold left)) left) room

theorem skipStatement_consumes {state : ParseState} (present : state.token.isEnd = false)
    (opened : state.token.id ≠ "\x7d") (unstarted : state.token.denotations.statement? = none) :
    Consumes state (skipStatement.run context state).2 := by
  let skipped := fun token : Terminal =>
    !token.startsStatement && token.id != ";" && token.id != "\x7d"
  let reported := ((error (.unexpectedToken state.token.text) state.token.span).run context state).2
  have onward : Onward state reported := onward_of_eq rfl
  have recovers : (recover skipped).run context state =
      (whileToken skipped (fun _ => skip) ()).run context reported := rfl
  by_cases semicolon : state.token.id = ";"
  -- A `;` stops the recovery at once and is skipped by itself.
  · have stays : (recover skipped).run context state = ((), reported) := by
      rw [recovers]
      refine whileToken_stop () ?_
      simp [skipped, reported, semicolon]
    have skips : Consumes reported (skip.run context reported).2 := advance_consumes present
    unfold skipStatement
    rw [run_bind_of_eq stays]
    have atSemicolon : reported.token.id = ";" := semicolon
    simp only [run_current_bind, atSemicolon, if_true]
    exact onward.consumes skips
  · have holds : skipped reported.token = true := by
      simp [skipped, reported, Terminal.startsStatement, unstarted, semicolon, opened]
    have consumes : Consumes state ((recover skipped).run context state).2 := by
      rw [recovers]
      exact onward.consumes (whileToken_consumes skip_advances () present holds)
    exact bind_consumes consumes (fun _ => .bind .current fun _ => .ite (.of_composed .skip) (.value ())) 0

theorem formedStatement_consumes (room : Nat) {state : ParseState} (form : StatementForm)
    (present : state.token.isEnd = false) :
    Consumes state
      ((formedStatement (expression room) (statement room) form).run context state).2 :=
  bind_consumes (advance_consumes present)
    (fun terminal => .bind (.step (.log (.statement terminal.id terminal.span.start))) fun _ =>
      .bind (.step (.reserve terminal)) fun _ => .of_composed (.statementForm terminal form)) room

theorem expressionStatement_consumes (room : Nat) {state : ParseState} {form : OperandForm}
    (present : state.token.isEnd = false) (starts : state.token.denotations.operand? = some form) :
    Consumes state ((expressionStatement (expression room)).run context state).2 :=
  bind_consumes (expression_consumes room Power.none present starts)
    (fun value => .of_composed <| .bind (.warningUnless
      (value.isAssignment || value.isCall || value.isInvalid) rfl value.head.span) fun _ =>
        .bind .expectSemicolon fun _ => .value (Stmt.expression value)) room

theorem statementBody_consumes (room : Nat) {state : ParseState}
    (present : state.token.isEnd = false) (opened : state.token.id ≠ "\x7d") :
    Consumes state
      ((statementBody (expression room) (statement room)).run context state).2 := by
  simp only [statementBody, run_current_bind]
  cases starts : state.token.denotations.statement? with
  | some form =>
      exact bind_consumes (formedStatement_consumes room form present)
        (fun result => .value (some result)) room
  | none =>
      cases operand : state.token.denotations.operand? with
      | some form =>
          exact bind_consumes (expressionStatement_consumes room present operand)
            (fun result => .value (some result)) room
      | none =>
          exact bind_consumes (skipStatement_consumes present opened starts)
            (fun _ => .value (none : Option Stmt)) room

theorem statement_consumes (room : Nat) {state : ParseState}
    (present : state.token.isEnd = false) (opened : state.token.id ≠ "\x7d") :
    Consumes state ((statement room).run context state).2 := by
  cases room with
  | zero => exact refuse_consumes present
  | succ room =>
      let entered := (enter.run context state).2
      have body : Consumes entered
          ((statementBody (expression room) (statement room)).run context entered).2 :=
        statementBody_consumes room present opened
      exact body

theorem anotherStatement_advances (room : Nat) :
    Advances context (·.id != "\x7d") (anotherStatement (statement room)) := by
  intro statements state present goesOn
  have opened : state.token.id ≠ "\x7d" := by simpa using goesOn
  exact bind_consumes (statement_consumes room present opened)
    (fun next => .value (statements ++ next.toList)) room

theorem afterStrayBrace_advances (room : Nat) :
    Advances context again (afterStrayBrace (statement room)) := by
  intro statements state present _
  let reported := ((error (.unexpectedToken state.token.text) state.token.span).run context state).2
  have onward : Onward state reported := onward_of_eq rfl
  have unchanged : reported.token = state.token := rfl
  have recovers : (recover (·.id == "\x7d")).run context state =
      (whileToken (·.id == "\x7d") (fun _ => skip) ()).run context reported := rfl
  by_cases closing : state.token.id = "\x7d"
  · have skipped : Consumes state ((recover (·.id == "\x7d")).run context state).2 := by
      rw [recovers]
      exact onward.consumes (whileToken_consumes skip_advances () present
        (by simpa [unchanged] using closing))
    exact bind_consumes skipped
      (fun _ => .bind (.of_composed .statementsUntilBrace) fun more => .value (statements ++ more)) room
  · have stays : (recover (·.id == "\x7d")).run context state = ((), reported) := by
      rw [recovers]
      exact whileToken_stop () (by simp [unchanged, closing])
    have read : Consumes reported ((statementsUntilBrace (statement room)).run context reported).2 :=
      whileToken_consumes (anotherStatement_advances room) [] present
        (by simpa [unchanged] using closing)
    unfold afterStrayBrace
    rw [run_bind_of_eq stays]
    exact onward.consumes (bind_consumes read (fun more => .value (statements ++ more)) room)

end Adventure.ParseM
