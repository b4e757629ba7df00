import Adventure.Proofs.Isolation
import Adventure.Proofs.Lookups

/-!
Courses. What reading comes to from a state on, step by step. A scope that is not open any more is not
opened again, and nothing that reading does later writes to it.
-/

namespace Adventure

namespace ScopeTree

variable {tree : ScopeTree} {scope : Nat} {outer : List Nat}

theorem Path.lt (path : Path tree scope outer) (rooted : Rooted tree) :
    ∀ number ∈ outer, number < scope := by
  induction path with
  | root => simp
  | @inside scope parent outer found present below _ ih =>
      have lower := rooted.parent_lt present below
      simp only [List.forall_mem_cons]
      exact ⟨lower, fun number around => Nat.lt_trans (ih number around) lower⟩

theorem Path.eq_zero (path : Path tree scope []) : scope = 0 := by
  cases path
  rfl

end ScopeTree

namespace ParseM

variable {α : Type} {context : Context} {tokens : List Token} {allowed : Nat → String → Prop}
  {first state later : ParseState} {number : Nat}

/-- The states that reading may pass through from `first` on. Names are declared where `allowed` holds of
the scope and the name. -/
inductive Course (context : Context) (allowed : Nat → String → Prop) (first : ParseState) :
    ParseState → Prop
  | start : Course context allowed first first
  | still {before after : ParseState} (alike : Alike before after)
      (course : Course context allowed first before) : Course context allowed first after
  | advance {state : ParseState} (course : Course context allowed first state) :
      Course context allowed first (advance.run context state).2
  | reserve {state : ParseState} (terminal : Terminal) (course : Course context allowed first state) :
      Course context allowed first ((reserve terminal).run context state).2
  | declare {state : ParseState} {terminal : Terminal} (arity : Arity) (valueType? : Option ValueType)
      (permitted : allowed state.scope terminal.text) (course : Course context allowed first state) :
      Course context allowed first ((define terminal arity valueType?).run context state).2
  | push {state : ParseState} (course : Course context allowed first state) :
      Course context allowed first (pushScope.run context state).2
  | pop {state : ParseState} (course : Course context allowed first state) :
      Course context allowed first (popScope.run context state).2

theorem Course.trans (begins : Course context allowed first state)
    (goes : Course context allowed state later) : Course context allowed first later := by
  induction goes with
  | start => exact begins
  | still alike _ ih => exact .still alike ih
  | advance _ ih => exact .advance ih
  | reserve terminal _ ih => exact .reserve terminal ih
  | declare arity valueType? permitted _ ih => exact .declare arity valueType? permitted ih
  | push _ ih => exact .push ih
  | pop _ ih => exact .pop ih

abbrev anywhere : Nat → String → Prop := fun _ _ => True

/-- Whatever is read is read along a course. -/
theorem course_graded : Graded context fun _ => Course context anywhere := by
  refine Stable.graded ⟨fun _ => .start, fun begins goes => begins.trans goes, ?_, ?_⟩ ?_
  · intro β action elementary state
    cases elementary with
    | advance => exact .advance .start
    | define terminal arity valueType? => exact .declare arity valueType? trivial .start
    | reserve terminal => exact .reserve terminal .start
    | _ => exact .still (@Alike.mk state _ rfl rfl rfl rfl) .start
  · exact fun inside => .pop (Course.trans (.push .start) inside)
  · intro before after inside
    have entered : Course context anywhere before (enter.run context before).2 :=
      .still (@Alike.mk before _ rfl rfl rfl rfl) .start
    exact .still (@Alike.mk after _ rfl rfl rfl rfl) (entered.trans inside)

theorem Grounded.elementary {action : ParseM α} (grounded : Grounded state) (elementary : Elementary action) :
    Grounded (action.run context state).2 := by
  obtain ⟨scope, bound, _⟩ := @elementary_scopes α context action elementary state
  exact grounded.bound scope bound

theorem Course.grounded (course : Course context allowed first state) (grounded : Grounded first) :
    Grounded state := by
  induction course with
  | start => exact grounded
  | still alike _ ih => exact ih.bound alike.scope (alike.scopes ▸ .same)
  | advance _ ih => exact ih.elementary .advance
  | reserve terminal _ ih => exact ih.elementary (.reserve terminal)
  | declare arity valueType? _ _ ih => exact ih.elementary (.define _ arity valueType?)
  | push _ ih => exact ih.push
  | pop _ ih => exact ih.pop

/-- The scope was opened, and is neither the current one nor around it. -/
structure Closed (number : Nat) (state : ParseState) : Prop where
  grounded : Grounded state
  opened : number < state.scopes.size
  apart : ∃ outer, state.scopes.Path state.scope outer ∧ number ∉ state.scope :: outer

structure Untouched (number : Nat) (before after : ParseState) : Prop where
  closed : Closed number after
  same : after.scopes.get? number = before.scopes.get? number

theorem Closed.bound {before after : ParseState} (closed : Closed number before)
    (scope : after.scope = before.scope)
    (bound : ScopeTree.Bound before.scopes before.scope after.scopes) : Untouched number before after := by
  obtain ⟨outer, path, apart⟩ := closed.apart
  have other : number ≠ before.scope := fun current => apart (by simp [current])
  refine ⟨⟨closed.grounded.bound scope bound, ?_, outer, ?_, scope ▸ apart⟩, bound_others bound other⟩
  · rw [bound.size]
    exact closed.opened
  · rw [scope]
    exact path.mono bound.extended

theorem Closed.push (closed : Closed number state) :
    Untouched number state (pushScope.run context state).2 := by
  obtain ⟨outer, path, apart⟩ := closed.apart
  have opened := closed.opened
  obtain ⟨events, ran⟩ := @pushScope_run context state
  have grounded := @Grounded.push context state closed.grounded
  rw [ran] at grounded ⊢
  refine ⟨⟨grounded, ?_, state.scope :: outer, path.push, ?_⟩, ?_⟩
  · rw [ScopeTree.size_push]
    exact Nat.lt_succ_of_lt opened
  · exact List.not_mem_cons_of_ne_of_not_mem (Nat.ne_of_lt opened) apart
  · rw [ScopeTree.get?_push, if_neg (Nat.ne_of_lt opened)]

theorem Closed.pop (closed : Closed number state) :
    Untouched number state (popScope.run context state).2 := by
  obtain ⟨outer, path, apart⟩ := closed.apart
  have grounded := @Grounded.pop context state closed.grounded
  cases outer with
  | nil =>
      have root := path.eq_zero
      simp only [popScope, run_get_bind, ScopeTree.pop, root, if_true] at grounded ⊢
      exact ⟨⟨grounded, closed.opened, [], path, apart⟩, rfl⟩
  | cons parent outer =>
      obtain ⟨events, ran⟩ := @popScope_run context state (path.ne_zero closed.grounded.rooted)
      obtain ⟨parentOf, outside⟩ := path.parentOf
      rw [ran] at grounded ⊢
      refine ⟨⟨grounded, closed.opened, outer, ?_, ?_⟩, rfl⟩
      · simp only [parentOf]
        exact outside.mono (ScopeTree.Extends.refl state.scopes)
      · simp only [parentOf]
        exact List.not_mem_of_not_mem_cons apart

/-- What is closed stays closed, and as it is, along every course. -/
theorem Course.untouched (course : Course context allowed first state) (closed : Closed number first) :
    Untouched number first state := by
  -- A step leaves alone what is closed before it; chained, that reaches back to `first`.
  have follows {before after : ParseState} (earlier : Untouched number first before)
      (goes : Closed number before → Untouched number before after) : Untouched number first after :=
    ⟨(goes earlier.closed).closed, (goes earlier.closed).same.trans earlier.same⟩
  have elementary {β : Type} {action : ParseM β} (step : Elementary action) {before : ParseState}
      (earlier : Untouched number first before) :
      Untouched number first (action.run context before).2 := by
    obtain ⟨scope, bound, _⟩ := @elementary_scopes β context action step before
    exact follows earlier fun closed => closed.bound scope bound
  induction course with
  | start => exact ⟨closed, rfl⟩
  | still alike _ ih => exact follows ih fun closed => closed.bound alike.scope (alike.scopes ▸ .same)
  | advance _ ih => exact elementary .advance ih
  | reserve terminal _ ih => exact elementary (.reserve terminal) ih
  | declare arity valueType? _ _ ih => exact elementary (.define _ arity valueType?) ih
  | push _ ih => exact follows ih (·.push)
  | pop _ ih => exact follows ih (·.pop)

theorem Poised.grounded {outer : List Nat} {entered : Nat} (poised : Poised context outer entered state) :
    Grounded state :=
  ⟨poised.rooted, poised.path.lt_size poised.rooted⟩

theorem Poised.closed {parent : Nat} {outer : List Nat} {entered : Nat}
    (poised : Poised context (parent :: outer) entered state) :
    Closed state.scope (popScope.run context state).2 := by
  have after := @Poised.pop context outer entered state parent poised
  have current := poised.path.lt_size poised.rooted
  have lower := poised.path.lt poised.rooted
  obtain ⟨parentOf, _⟩ := poised.path.parentOf
  obtain ⟨events, ran⟩ := @popScope_run context state (poised.path.ne_zero poised.rooted)
  have leads : (popScope.run context state).2.scope = parent := by
    rw [ran]
    exact parentOf
  have kept : (popScope.run context state).2.scopes.size = state.scopes.size := by
    rw [ran]
    rfl
  refine ⟨after.grounded, kept ▸ current, outer, after.path, fun around => ?_⟩
  rw [leads] at around
  exact Nat.lt_irrefl _ (lower _ around)

end ParseM

end Adventure
