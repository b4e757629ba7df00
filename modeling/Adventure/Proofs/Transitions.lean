import Adventure.Proofs.Readers

/-!
What reading does to the state. A relation between the state before and the state after holds of
every reader if it holds of the elementary ones, composes, and passes over the opening and closing
of a scope; it holds of expressions and statements if it also passes over one level of nesting.
-/

namespace Adventure.ParseM

variable {α : Type} {context : Context} {related : ParseState → ParseState → Prop}

/-- A relation that all readers keep to which do not read expressions or statements. -/
structure Stable (context : Context) (related : ParseState → ParseState → Prop) : Prop where
  refl (state : ParseState) : related state state
  trans {first second third : ParseState} :
    related first second → related second third → related first third
  step {α : Type} {action : ParseM α} (elementary : Elementary action) (state : ParseState) :
    related state (action.run context state).2
  scope {before after : ParseState} :
    related (pushScope.run context before).2 after → related before (popScope.run context after).2

theorem Built.respects (stable : Stable context related) {reader : Open α} (built : Built reader)
    {inner : Nat → ParseM Expr} {nested : ParseM (Option Stmt)}
    (innerRelated : ∀ power state, related state ((inner power).run context state).2)
    (nestedRelated : ∀ state, related state (nested.run context state).2) (state : ParseState) :
    related state ((reader inner nested).run context state).2 := by
  induction built generalizing state with
  | value value => exact stable.refl state
  | bind _ _ firstRelated nextRelated =>
      exact stable.trans (firstRelated state) (nextRelated _ _)
  | inner power => exact innerRelated power state
  | nested => exact nestedRelated state
  | step elementary => exact stable.step elementary state
  | inScope _ bodyRelated => exact stable.scope (bodyRelated _)

theorem Stable.reader (stable : Stable context related) {action : ParseM α}
    (built : Built fun _ _ => action) (state : ParseState) :
    related state (action.run context state).2 :=
  @Built.respects α context related stable (fun _ _ => action) built (fun _ => return default)
    (return none) (fun _ state => stable.refl state) stable.refl state

/-- A relation for each amount of room, which a construct keeps to if what it reads inside keeps to
the one for less room. -/
structure Graded (context : Context) (related : Nat → ParseState → ParseState → Prop) : Prop where
  stable (room : Nat) : Stable context (related room)
  nest {room : Nat} {before after : ParseState} :
    related room (enter.run context before).2 after →
      related (room + 1) before (leave.run context after).2

namespace Graded

variable {related : Nat → ParseState → ParseState → Prop}

theorem expression (graded : Graded context related) (room power : Nat) (state : ParseState) :
    related room state ((expression room power).run context state).2 := by
  induction room generalizing power state with
  | zero => exact (graded.stable 0).reader Built.refuse state
  | succ room ih =>
      have body := @Built.respects Expr context (related room) (graded.stable room) _
        (Built.expressionBody power) (ParseM.expression room) (return none) ih
        (graded.stable room).refl (enter.run context state).2
      exact graded.nest body

theorem statement (graded : Graded context related) (room : Nat) (state : ParseState) :
    related room state ((statement room).run context state).2 := by
  induction room generalizing state with
  | zero => exact graded.expression 0 0 state
  | succ room ih =>
      have body := Built.statementBody.respects (graded.stable room) (graded.expression room) ih
        (enter.run context state).2
      exact graded.nest body

/-- Whatever is built keeps to the relation, with expressions and statements in it. -/
theorem reader (graded : Graded context related) {reader : Open α} (built : Built reader)
    (room : Nat) (state : ParseState) :
    related room state
      ((reader (ParseM.expression room) (ParseM.statement room)).run context state).2 :=
  built.respects (graded.stable room) (graded.expression room) (graded.statement room) state

end Graded

theorem Stable.graded (stable : Stable context related)
    (nest : ∀ {before after : ParseState}, related (enter.run context before).2 after →
      related before (leave.run context after).2) :
    Graded context fun _ => related :=
  ⟨fun _ => stable, nest⟩

end Adventure.ParseM
