import Adventure.Proofs.Nesting

/-!
Invariants. What holds of the state is checked on the steps that readers are composed of; it holds
then wherever reading comes to. A step may rely on what is known of the lookahead, and closing a scope
on what a scope ends with.
-/

namespace Adventure.ParseM

variable {α : Type} {context : Context} {known : Terminal → Prop} {holds : ParseState → Prop}

theorem whileToken_invariant {again : Terminal → Bool} {body : α → ParseM α}
    {invariant : α → ParseState → Prop}
    (round : ∀ value state, invariant value state →
      invariant ((body value).run context state).1 ((body value).run context state).2)
    (value : α) (state : ParseState) (start : invariant value state) :
    let last := (whileToken again body value).run context state
    invariant last.1 last.2 := by
  have bounded (count : Nat) : ∀ value state, invariant value state →
      invariant ((rounds again body count value).run context state).1
        ((rounds again body count value).run context state).2 := by
    induction count with
    | zero => exact fun _ _ start => start
    | succ count ih =>
        intro value state start
        simp only [rounds, run_current_bind, run_ite]
        split
        · exact ih _ _ (round value state start)
        · exact start
  exact bounded state.remaining value state start

/-- A scope ends at a closing brace or at the end of the input, unless it lacks its opening brace. -/
def Closing (state : ParseState) : Prop :=
  state.token.isEnd = true ∨ state.token.id = "\x7d" ∨
    ∃ diagnostic ∈ state.diagnostics, diagnostic.problem = .expected "\x7b"

def takeNoted : ParseM Terminal := do
  let terminal ← advance
  noteOccurrence terminal
  return terminal

@[simp] theorem advance_value (state : ParseState) : (advance.run context state).1 = state.token := by
  obtain ⟨terminal, passed, pending, events, ran, _⟩ := @advance_run context state
  rw [ran]

@[simp] theorem advance_scopes (state : ParseState) :
    (advance.run context state).2.scopes = state.scopes := by
  obtain ⟨terminal, passed, pending, events, ran, _⟩ := @advance_run context state
  rw [ran]

theorem takeAtom_run (state : ParseState) :
    (takeAtom.run context state).2 =
      if state.token.isCloser then state else (advance.run context state).2 := by
  simp only [takeAtom, run_current_bind, run_ite]
  split <;> rfl

theorem refuse_run (state : ParseState) :
    (refuse.run context state).2 =
      let reported := (reportDepth.run context state).2
      if reported.token.isEnd then reported else (advance.run context reported).2 := by
  unfold refuse
  rw [run_bind, run_current_bind, run_ite]
  split
  · rename_i ended
    exact (if_pos ended).symm
  · rename_i present
    exact (if_neg present).symm

theorem statementsUntilBrace_closing (room : Nat) (state : ParseState) :
    Closing ((statementsUntilBrace (statement room)).run context state).2 := by
  unfold statementsUntilBrace
  rcases whileToken_stopped (@anotherStatement_advances context room) [] state with ended | brace
  · exact .inl ended
  · exact .inr (.inl (by simpa using brace))

theorem Closable.closing {body : Open α} (closable : Closable body) (room : Nat) (state : ParseState) :
    Closing ((body (expression room) (statement room)).run context state).2 := by
  cases closable with
  | statements => exact statementsUntilBrace_closing room state
  | function =>
      simp only [functionScope, run_bind]
      generalize ((expect ")").run context _).2 = before
      simp only [atBrace, run_bind, run_current, errorUnless_run, run_pure, run_ite]
      by_cases opened : (before.token.id == "\x7b") = true
      · rw [if_pos opened]
        exact statementsUntilBrace_closing room _
      · refine .inr (.inr ⟨⟨.expected "\x7b", before.token.span, .error⟩, ?_, rfl⟩)
        simp [opened]

theorem Plain.mono {others : Terminal → Prop} {action : ParseM α} (plain : Plain known action)
    (less : ∀ terminal, known terminal → others terminal) : Plain others action := by
  cases plain with
  | lastSpan => exact .lastSpan
  | remaining => exact .remaining
  | lookup name => exact .lookup name
  | log other => exact .log other
  | report ordinary => exact .report ordinary
  | define holds arity valueType? => exact .define (less _ holds) arity valueType?
  | reserve holds => exact .reserve (less _ holds)

/-- What the steps keep that readers are composed of. -/
structure Keeps (context : Context) (known : Terminal → Prop) (holds : ParseState → Prop) : Prop where
  lookahead {state : ParseState} : holds state → known state.token
  plain {α : Type} {action : ParseM α} {state : ParseState} (plain : Plain known action) :
    holds state → holds (action.run context state).2
  take {state : ParseState} : holds state → holds (advance.run context state).2
  takeNoted {state : ParseState}
    (named : state.token.isName = true ∨ state.token.denotations.operand? = some .undefinedName) :
    holds state → holds (takeNoted.run context state).2
  takeAction {state : ParseState} : holds state → holds (takeAction.run context state).2
  push {state : ParseState} : holds state → holds (pushScope.run context state).2
  pop {state : ParseState} (closing : Closing state) :
    holds state → holds (popScope.run context state).2
  enter {state : ParseState} : holds state → holds (enter.run context state).2
  leave {state : ParseState} : holds state → holds (leave.run context state).2
  refuse {state : ParseState} : holds state → holds (refuse.run context state).2

theorem Composed.keeps (keeps : Keeps context known holds) {seen : Option Terminal} {reader : Open α}
    (composed : Composed known seen reader) {room : Nat}
    (innerKeeps : ∀ power state, holds state → holds ((expression room power).run context state).2)
    (nestedKeeps : ∀ state, holds state → holds ((statement room).run context state).2)
    {state : ParseState} (same : ∀ token ∈ seen, state.token = token) (before : holds state) :
    holds ((reader (expression room) (statement room)).run context state).2 := by
  induction composed generalizing state with
  | value value => exact before
  | bind _ _ firstIH nextIH => exact nextIH _ (by simp) (firstIH same before)
  | look _ ih => exact ih _ (keeps.lookahead before) (by simp) before
  | take _ ih =>
      have value := @advance_value context state
      exact ih _ (value ▸ keeps.lookahead before) (by simp) (keeps.take before)
  | takeNoted named _ ih =>
      have value := @advance_value context state
      rw [← same _ rfl] at named
      exact ih _ (value ▸ keeps.lookahead before) (by simp) (keeps.takeNoted named before)
  | takeAction => exact keeps.takeAction before
  | step plain => exact keeps.plain plain before
  | inner power => exact innerKeeps power state before
  | nested => exact nestedKeeps state before
  | inScope closable _ ih =>
      exact keeps.pop (closable.closing room _) (ih (by simp) (keeps.push before))

namespace Keeps

theorem levels (keeps : Keeps context known holds) (room : Nat) :
    (∀ power state, holds state → holds ((expression room power).run context state).2) ∧
      ∀ state, holds state → holds ((statement room).run context state).2 := by
  induction room with
  | zero => exact ⟨fun _ _ before => keeps.refuse before, fun _ before => keeps.refuse before⟩
  | succ room ih =>
      obtain ⟨inside, nested⟩ := ih
      constructor
      · intro power state before
        have composed := @Composed.expressionBody known none power
        exact keeps.leave (composed.keeps keeps inside nested (by simp) (keeps.enter before))
      · intro state before
        have composed := @Composed.statementBody known none
        exact keeps.leave (composed.keeps keeps inside nested (by simp) (keeps.enter before))

/-- Whatever is composed keeps them, with expressions and statements in it. -/
theorem reader (keeps : Keeps context known holds) {reader : Open α}
    (composed : Composed known none reader) (room : Nat) {state : ParseState} (before : holds state) :
    holds ((reader (ParseM.expression room) (ParseM.statement room)).run context state).2 :=
  composed.keeps keeps (keeps.levels room).1 (keeps.levels room).2 (by simp) before

theorem and {others : ParseState → Prop} (keeps : Keeps context known holds)
    (keepsOthers : Keeps context (fun _ => True) others) :
    Keeps context known fun state => holds state ∧ others state where
  lookahead before := keeps.lookahead before.1
  plain plain before :=
    ⟨keeps.plain plain before.1, keepsOthers.plain (plain.mono fun _ _ => trivial) before.2⟩
  take before := ⟨keeps.take before.1, keepsOthers.take before.2⟩
  takeNoted named before :=
    ⟨keeps.takeNoted named before.1, keepsOthers.takeNoted named before.2⟩
  takeAction before := ⟨keeps.takeAction before.1, keepsOthers.takeAction before.2⟩
  push before := ⟨keeps.push before.1, keepsOthers.push before.2⟩
  pop closing before := ⟨keeps.pop closing before.1, keepsOthers.pop closing before.2⟩
  enter before := ⟨keeps.enter before.1, keepsOthers.enter before.2⟩
  leave before := ⟨keeps.leave before.1, keepsOthers.leave before.2⟩
  refuse before := ⟨keeps.refuse before.1, keepsOthers.refuse before.2⟩

end Keeps

structure Alike (before after : ParseState) : Prop where
  token : after.token = before.token
  pending : after.pending = before.pending
  scopes : after.scopes = before.scopes
  scope : after.scope = before.scope

theorem checkAction_alike (state : ParseState) : Alike state (checkAction.run context state).2 := by
  simp only [checkAction, run_current_bind, run_ite]
  split
  · rw [noteIfUndefined_run]
    split <;> exact ⟨rfl, rfl, rfl, rfl⟩
  · exact ⟨rfl, rfl, rfl, rfl⟩

theorem reportDepth_alike (state : ParseState) : Alike state (reportDepth.run context state).2 := by
  simp only [reportDepth, run_read_bind, run_get_bind, run_ite]
  split <;> exact ⟨rfl, rfl, rfl, rfl⟩

theorem Keeps.of_alike
    (alike : ∀ {before after : ParseState}, Alike before after → holds before → holds after)
    (lookahead : ∀ {state : ParseState}, holds state → known state.token)
    (take : ∀ {state : ParseState}, holds state → holds (advance.run context state).2)
    (bind : ∀ {terminal : Terminal} {arity : Arity} {valueType? : Option ValueType}
      {state : ParseState}, known terminal → holds state →
        holds ((define terminal arity valueType?).run context state).2)
    (reserve : ∀ {terminal : Terminal} {state : ParseState}, known terminal → holds state →
      holds ((reserve terminal).run context state).2)
    (push : ∀ {state : ParseState}, holds state → holds (pushScope.run context state).2)
    (pop : ∀ {state : ParseState}, Closing state → holds state →
      holds (popScope.run context state).2) :
    Keeps context known holds where
  lookahead := lookahead
  plain plain before := by
    cases plain with
    | define holds => exact bind holds before
    | reserve holds => exact reserve holds before
    | _ =>
        refine alike ?_ before
        exact ⟨rfl, rfl, rfl, rfl⟩
  take := take
  takeNoted _ before := by
    refine alike ?_ (take before)
    exact ⟨rfl, rfl, rfl, rfl⟩
  takeAction {state} before := by
    have checked := alike (@checkAction_alike context state) before
    unfold ParseM.takeAction
    rw [run_bind, takeAtom_run]
    split
    · exact checked
    · exact take checked
  push := push
  pop := pop
  enter before := by
    refine alike ?_ before
    exact ⟨rfl, rfl, rfl, rfl⟩
  leave before := by
    refine alike ?_ before
    exact ⟨rfl, rfl, rfl, rfl⟩
  refuse {state} before := by
    have reported := alike (@reportDepth_alike context state) before
    rw [refuse_run]
    dsimp only
    split
    · exact reported
    · exact take reported

end Adventure.ParseM
