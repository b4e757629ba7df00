import Adventure.Proofs.Standing

/-!
Isolation. Whatever is read writes to the current scope and to scopes that it opens, so a construct in a
scope of its own leaves every scope as it was that was there before.
-/

namespace Adventure.ParseM

variable {α : Type} {context : Context}

/-- Reading came back to its scope, and every other scope that was there is as it was. -/
structure Confined (before after : ParseState) : Prop where
  resumes : Resumes before after
  others : ∀ number < before.scopes.size, number ≠ before.scope →
    after.scopes.get? number = before.scopes.get? number

theorem bound_others {tree after : ScopeTree} {scope number : Nat}
    (bound : ScopeTree.Bound tree scope after) (other : number ≠ scope) :
    after.get? number = tree.get? number := by
  cases bound with
  | same => rfl
  | insert definition => rw [ScopeTree.get?_modify, if_neg (Ne.symm other)]

theorem Confined.scope {before after : ParseState} (grounded : Grounded before)
    (inside : Confined (pushScope.run context before).2 after) :
    ∀ number < before.scopes.size,
      (popScope.run context after).2.scopes.get? number = before.scopes.get? number := by
  intro number older
  have opened : (pushScope.run context before).2.scope = before.scopes.size := rfl
  have pushed : (pushScope.run context before).2.scopes = before.scopes.push before.scope := rfl
  have positive := grounded.rooted.nonempty
  have inner : after.scope ≠ 0 := by
    rw [inside.resumes.scope, opened]
    omega
  have kept := inside.others number (by rw [pushed, ScopeTree.size_push]; omega) (by rw [opened]; omega)
  obtain ⟨events, ran⟩ := @popScope_run context after inner
  rw [ran]
  change after.scopes.get? number = _
  rw [kept, pushed, ScopeTree.get?_push, if_neg (by omega)]

theorem confined_graded : Graded context fun _ before after =>
    Grounded before → Confined before after := by
  have resumes := @resumes_graded context
  refine Stable.graded ⟨?_, ?_, ?_, ?_⟩ ?_
  · exact fun state grounded => ⟨(resumes.stable 0).refl state grounded, fun _ _ _ => rfl⟩
  · intro first second third begins goes grounded
    have middle := begins grounded
    have last := goes middle.resumes.grounded
    have scope := middle.resumes.scope
    refine ⟨⟨last.resumes.grounded, last.resumes.scope.trans scope,
      middle.resumes.extended.trans last.resumes.extended⟩, fun number older other => ?_⟩
    have present : number < second.scopes.size :=
      Nat.lt_of_lt_of_le older middle.resumes.extended.size_le
    rw [last.others number present (scope ▸ other), middle.others number older other]
  · intro β action elementary state grounded
    obtain ⟨_, bound, _⟩ := @elementary_scopes β context action elementary state
    exact ⟨(resumes.stable 0).step elementary state grounded, fun _ _ other => bound_others bound other⟩
  · intro before after inside grounded
    have confined := inside grounded.push
    refine ⟨(resumes.stable 0).scope (fun _ => confined.resumes) grounded, fun number older _ => ?_⟩
    exact confined.scope grounded number older
  · exact fun {before after} inside grounded => by
      obtain ⟨⟨⟨rooted, current⟩, scope, extended⟩, others⟩ :=
        inside ⟨grounded.rooted, grounded.current⟩
      exact ⟨⟨⟨rooted, current⟩, scope, extended⟩, others⟩

theorem inScope_unchanged {reader : Open α} (built : Built reader) (room : Nat) {state : ParseState}
    (grounded : Grounded state) : ∀ number < state.scopes.size,
      ((inScope (reader (expression room) (statement room))).run context state).2.scopes.get? number =
        state.scopes.get? number :=
  (confined_graded.reader built room (pushScope.run context state).2 grounded.push).scope grounded

end Adventure.ParseM
