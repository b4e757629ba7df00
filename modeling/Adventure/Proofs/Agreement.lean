import Adventure.Proofs.Invariants

/-!
Two readings side by side. They agree as long as the first has not lost the other, and what is lost
stays lost. That is checked on the steps that readers are composed of, and on what stands in for the
expressions and the statements inside.
-/

namespace Adventure.ParseM

variable {α β : Type} {first second : Context} {known : Terminal → Prop}
  {holds lost : ParseState → Prop} {related : ParseState → ParseState → Prop}

/-- The first reading is lost, or both return the same and leave related states. -/
def Agrees (lost : ParseState → Prop) (related : ParseState → ParseState → Prop)
    (outcome other : α × ParseState) : Prop :=
  lost outcome.2 ∨ outcome.1 = other.1 ∧ related outcome.2 other.2

theorem Agrees.bind {action action' : ParseM β} {next next' : β → ParseM α} {here there : ParseState}
    (agrees : Agrees lost related (action.run first here) (action'.run second there))
    (lasting : lost (action.run first here).2 → lost ((action >>= next).run first here).2)
    (others : related (action.run first here).2 (action'.run second there).2 →
      Agrees lost related ((action >>= next).run first here)
        ((next' (action.run first here).1).run second (action'.run second there).2)) :
    Agrees lost related ((action >>= next).run first here) ((action' >>= next').run second there) := by
  rcases agrees with gone | ⟨same, related⟩
  · exact .inl (lasting gone)
  · rw [run_bind action', ← same]
    exact others related

/-- What two readings keep up in the steps that readers are composed of. -/
structure Simulates (first second : Context) (known : Terminal → Prop) (holds lost : ParseState → Prop)
    (related : ParseState → ParseState → Prop) : Prop where
  keeps : Keeps first known holds
  lasting : Keeps first known fun state => holds state ∧ lost state
  lookahead {here there : ParseState} : related here there → there.token = here.token
  plain {α : Type} {action : ParseM α} {here there : ParseState} (plain : Plain known action) :
    holds here → related here there →
      Agrees lost related (action.run first here) (action.run second there)
  take {here there : ParseState} : holds here → related here there →
    Agrees lost related (advance.run first here) (advance.run second there)
  takeNoted {here there : ParseState}
    (named : here.token.isName = true ∨ here.token.denotations.operand? = some .undefinedName) :
    holds here → related here there →
      Agrees lost related (takeNoted.run first here) (takeNoted.run second there)
  takeAction {here there : ParseState} : holds here → related here there →
    Agrees lost related (takeAction.run first here) (takeAction.run second there)
  push {here there : ParseState} : holds here → related here there →
    Agrees lost related (pushScope.run first here) (pushScope.run second there)
  pop {here there : ParseState} (closing : Closing here) : holds here → related here there →
    Agrees lost related (popScope.run first here) (popScope.run second there)

theorem Simulates.lasts (simulates : Simulates first second known holds lost related)
    {seen : Option Terminal} {reader : Open α} (composed : Composed known seen reader) (room : Nat)
    {here : ParseState} (same : ∀ token ∈ seen, here.token = token) (before : holds here)
    (gone : lost here) :
    lost ((reader (expression room) (statement room)).run first here).2 := by
  obtain ⟨inside, nested⟩ := simulates.lasting.levels room
  exact (composed.keeps simulates.lasting inside nested same ⟨before, gone⟩).2

/-- What reads the same inside agrees as a whole. -/
theorem Composed.agrees (simulates : Simulates first second known holds lost related)
    {seen : Option Terminal} {reader : Open α} (composed : Composed known seen reader) {room : Nat}
    {inner : Nat → ParseM Expr} {nested : ParseM (Option Stmt)}
    (innerAgrees : ∀ power here there, holds here → related here there →
      Agrees lost related ((expression room power).run first here) ((inner power).run second there))
    (nestedAgrees : ∀ here there, holds here → related here there →
      Agrees lost related ((statement room).run first here) (nested.run second there))
    {here there : ParseState} (same : ∀ token ∈ seen, here.token = token) (before : holds here)
    (start : related here there) :
    Agrees lost related ((reader (expression room) (statement room)).run first here)
      ((reader inner nested).run second there) := by
  obtain ⟨inside, outside⟩ := simulates.keeps.levels room
  -- On how the reader is composed. What was lost in a first part stays lost in what comes after it.
  induction composed generalizing here there with
  | value value => exact .inr ⟨rfl, start⟩
  | bind composed composedNext firstIH nextIH =>
      have after := composed.keeps simulates.keeps inside outside same before
      refine (firstIH same before start).bind (fun gone => ?_) fun start => ?_
      · exact simulates.lasts (composedNext _) room (by simp) after gone
      · exact nextIH _ (by simp) after start
  | look _ ih =>
      simp only [run_current_bind, simulates.lookahead start]
      exact ih _ (simulates.keeps.lookahead before) (by simp) before start
  | take composedNext ih =>
      have after := simulates.keeps.take before
      have value := simulates.keeps.lookahead before
      rw [← @advance_value first here] at value
      refine (simulates.take before start).bind (fun gone => ?_) fun start => ?_
      · exact simulates.lasts (composedNext _ value) room (by simp) after gone
      · exact ih _ value (by simp) after start
  | @takeNoted _ _ next named composedNext ih =>
      rw [← same _ rfl] at named
      have after := simulates.keeps.takeNoted named before
      have value : known (ParseM.takeNoted.run first here).1 := by
        change known (ParseM.advance.run first here).1
        rw [advance_value]
        exact simulates.keeps.lookahead before
      have agrees := simulates.takeNoted named before start
      have bound := @Agrees.bind _ _ first second lost related _ _
        (fun terminal => next terminal (expression room) (statement room))
        (fun terminal => next terminal inner nested) here there agrees
      refine bound (fun gone => ?_) fun start => ?_
      · exact simulates.lasts (composedNext _ value) room (by simp) after gone
      · exact ih _ value (by simp) after start
  | takeAction => exact simulates.takeAction before start
  | step plain => exact simulates.plain plain before start
  | inner power => exact innerAgrees power here there before start
  | nested => exact nestedAgrees here there before start
  | @inScope _ _ body closable composed ih =>
      have opened := simulates.keeps.push before
      have after := composed.keeps simulates.keeps inside outside (by simp) opened
      have closing := @Closable.closing _ first _ closable room (pushScope.run first here).2
      rcases simulates.push before start with gone | ⟨_, start⟩
      · have lasting := simulates.lasts composed room (by simp) opened gone
        exact .inl (simulates.lasting.pop closing ⟨after, lasting⟩).2
      · rcases ih (by simp) opened start with gone | ⟨value, start⟩
        · exact .inl (simulates.lasting.pop closing ⟨after, gone⟩).2
        · rcases simulates.pop closing after start with gone | ⟨_, start⟩
          · exact .inl gone
          · exact .inr ⟨value, start⟩

theorem Simulates.reader (simulates : Simulates first second known holds lost related)
    {reader : Open α} (composed : Composed known none reader) {room : Nat}
    {inner : Nat → ParseM Expr} {nested : ParseM (Option Stmt)}
    (innerAgrees : ∀ power here there, holds here → related here there →
      Agrees lost related ((expression room power).run first here) ((inner power).run second there))
    (nestedAgrees : ∀ here there, holds here → related here there →
      Agrees lost related ((statement room).run first here) (nested.run second there))
    {here there : ParseState} (before : holds here) (start : related here there) :
    Agrees lost related ((reader (expression room) (statement room)).run first here)
      ((reader inner nested).run second there) :=
  composed.agrees simulates innerAgrees nestedAgrees (by simp) before start

end Adventure.ParseM
