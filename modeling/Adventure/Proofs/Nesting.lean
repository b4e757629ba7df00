import Adventure.Document
import Adventure.Proofs.Progress

/-!
Nesting. The room that is passed down while reading is what the depth of the state leaves of the
limit, so reading does what it would do if it compared the depth with the limit before each
statement and each expression; and no call goes deeper than one below the limit.
-/

namespace Adventure.ParseM

variable {α : Type} {context : Context}

theorem adopt_depth (outcome : ScopeTree × Option Diagnostic) (state : ParseState) :
    ((adopt outcome).run context state).2.depth = state.depth := by
  obtain ⟨tree, diagnostic?⟩ := outcome
  cases diagnostic? <;> rfl

theorem elementary_depth {action : ParseM α} (elementary : Elementary action)
    (state : ParseState) : (action.run context state).2.depth = state.depth := by
  cases elementary with
  | advance =>
      obtain ⟨terminal, passed, pending, events, ran, _⟩ := @advance_run context state
      rw [ran]
  | define | reserve => exact adopt_depth _ state
  | _ => rfl

theorem popScope_depth (state : ParseState) :
    (popScope.run context state).2.depth = state.depth := by
  simp only [popScope, run_get_bind]
  cases state.scopes.pop state.scope <;> rfl

theorem depth_graded : Graded context fun _ before after => after.depth = before.depth :=
  Stable.graded
    { refl := fun _ => rfl
      trans := fun first second => second.trans first
      step := fun elementary state => elementary_depth elementary state
      scope := fun {_ after} kept => (popScope_depth after).trans kept }
    fun {before after} kept => by
      have left : after.depth = before.depth + 1 := kept
      change after.depth - 1 = before.depth
      omega

/-- The states that reading passes through, and others that its elementary steps could reach: a
construct is entered only if the limit allows it. -/
inductive Reached (context : Context) (tokens : List Token) : ParseState → Prop
  | start : Reached context tokens (ParseState.start context tokens)
  | step {α : Type} {action : ParseM α} {state : ParseState} (elementary : Elementary action) :
      Reached context tokens state → Reached context tokens (action.run context state).2
  | push {state : ParseState} :
      Reached context tokens state → Reached context tokens (pushScope.run context state).2
  | pop {state : ParseState} :
      Reached context tokens state → Reached context tokens (popScope.run context state).2
  | enter {state : ParseState} (allowed : state.depth < context.options.maxDepth) :
      Reached context tokens state → Reached context tokens (enter.run context state).2
  | leave {state : ParseState} :
      Reached context tokens state → Reached context tokens (leave.run context state).2

variable {tokens : List Token}

theorem start_depth : (ParseState.start context tokens).depth = 0 := by
  unfold ParseState.start
  obtain ⟨terminal, passed, pending, events, ran, _⟩ := @terminalFrom_run context tokens
    { token := { id := "(end)", text := "", span := {}, origin := none }, pending := [] }
  simp [ran]

theorem Reached.depth_le {state : ParseState} (reached : Reached context tokens state) :
    state.depth ≤ context.options.maxDepth := by
  induction reached with
  | start =>
      rw [start_depth]
      exact Nat.zero_le _
  | step elementary _ ih =>
      rw [elementary_depth elementary]
      exact ih
  | push _ ih => exact ih
  | pop _ ih =>
      rw [popScope_depth]
      exact ih
  | enter allowed _ _ => exact allowed
  | leave _ ih => exact Nat.le_trans (Nat.sub_le _ 1) ih

theorem reached_graded : Graded context fun room before after =>
    Reached context tokens before → before.depth + room ≤ context.options.maxDepth →
      Reached context tokens after ∧ after.depth = before.depth where
  stable room :=
    { refl := fun _ reached _ => ⟨reached, rfl⟩
      trans := fun {first second third} before after reached allowed => by
        obtain ⟨middle, kept⟩ := before reached allowed
        obtain ⟨final, kept'⟩ := after middle (by omega)
        exact ⟨final, kept'.trans kept⟩
      step := fun elementary state reached _ =>
        ⟨.step elementary reached, elementary_depth elementary state⟩
      scope := fun {_ after} body reached allowed => by
        obtain ⟨closed, kept⟩ := body (.push reached) allowed
        exact ⟨.pop closed, (popScope_depth after).trans kept⟩ }
  nest {room before after} body reached allowed := by
    have entered : (enter.run context before).2.depth = before.depth + 1 := rfl
    obtain ⟨left, kept⟩ := body (.enter (by omega) reached) (by omega)
    refine ⟨.leave left, ?_⟩
    change after.depth - 1 = before.depth
    omega

/-! Reading that compares the depth with the limit. -/

def entering (body : ParseM α) : ParseM α := do
  enter
  let value ← body
  leave
  return value

def withinLimit (accepted refused : ParseM α) : ParseM α := do
  let context ← read
  let state ← get
  if state.depth < context.options.maxDepth then entering accepted else refused

theorem entering_run (body : ParseM α) (state : ParseState) :
    (entering body).run context state =
      ((body.run context (enter.run context state).2).1,
        (leave.run context (body.run context (enter.run context state).2).2).2) := rfl

theorem inScope_run (body : ParseM α) (state : ParseState) :
    (inScope body).run context state =
      ((body.run context (pushScope.run context state).2).1,
        (popScope.run context (body.run context (pushScope.run context state).2).2).2) := rfl

theorem withinLimit_run (accepted refused : ParseM α) {state : ParseState}
    (allowed : state.depth < context.options.maxDepth) :
    (withinLimit accepted refused).run context state = (entering accepted).run context state := by
  simp only [withinLimit, run_read_bind, run_get_bind, allowed, if_true]

theorem withinLimit_run_refused (accepted refused : ParseM α) {state : ParseState}
    (full : context.options.maxDepth ≤ state.depth) :
    (withinLimit accepted refused).run context state = refused.run context state := by
  simp only [withinLimit, run_read_bind, run_get_bind, Nat.not_lt.mpr full, if_false]

/-- Expressions with `levels` calls inside each other; what is deeper is left to `deeper`. -/
def limitedExpression (deeper : Nat → ParseM Expr) : Nat → Nat → ParseM Expr
  | 0, power => deeper power
  | levels + 1, power =>
      withinLimit
        (do
          let left ← operand (limitedExpression deeper levels)
          whileToken (power < ·.denotations.power) (fold (limitedExpression deeper levels)) left)
        (do
          let placeholder ← refuse
          return .atom placeholder)

def limitedStatement (deeper : Nat → ParseM Expr) (deeperStatement : ParseM (Option Stmt)) :
    Nat → ParseM (Option Stmt)
  | 0 => deeperStatement
  | levels + 1 =>
      withinLimit
        (statementBody (limitedExpression deeper levels)
          (limitedStatement deeper deeperStatement levels))
        (do
          let _ ← refuse
          return none)

def SameAt (context : Context) (depth : Nat) (first second : ParseM α) : Prop :=
  ∀ state, state.depth = depth →
    second.run context state = first.run context state ∧
      (first.run context state).2.depth = depth

theorem sameAt_of_keeps {depth : Nat} {action : ParseM α}
    (keeps : ∀ state, (action.run context state).2.depth = state.depth) :
    SameAt context depth action action :=
  fun state same => ⟨rfl, (keeps state).trans same⟩

/-- Readers call what they are given at their own depth only. -/
theorem Built.sameAt {depth : Nat} {reader : Open α} (built : Built reader)
    {inner inner' : Nat → ParseM Expr} {nested nested' : ParseM (Option Stmt)}
    (innerSame : ∀ power, SameAt context depth (inner power) (inner' power))
    (nestedSame : SameAt context depth nested nested') :
    SameAt context depth (reader inner nested) (reader inner' nested') := by
  induction built with
  | value value => exact sameAt_of_keeps fun _ => rfl
  | bind _ _ firstSame nextSame =>
      intro state here
      obtain ⟨ran, kept⟩ := firstSame state here
      simp only [run_bind, ran]
      exact nextSame _ _ kept
  | inner power => exact innerSame power
  | nested => exact nestedSame
  | step elementary => exact sameAt_of_keeps (elementary_depth elementary)
  | inScope _ bodySame =>
      intro state here
      obtain ⟨ran, kept⟩ := bodySame (pushScope.run context state).2 here
      rw [inScope_run, inScope_run, ran]
      exact ⟨rfl, (popScope_depth _).trans kept⟩

theorem withinLimit_sameAt {room depth : Nat} {body body' refused : ParseM α}
    (limit : depth + room + 1 = context.options.maxDepth)
    (bodySame : SameAt context (depth + 1) body body') :
    SameAt context depth (entering body) (withinLimit body' refused) := by
  intro state here
  obtain ⟨ran, kept⟩ := bodySame (enter.run context state).2 (congrArg (· + 1) here)
  have allowed : state.depth < context.options.maxDepth := by omega
  rw [withinLimit_run _ _ allowed, entering_run, entering_run, ran]
  refine ⟨rfl, ?_⟩
  change (body.run context (enter.run context state).2).2.depth - 1 = depth
  rw [kept]
  rfl

theorem refused_sameAt {depth : Nat} {refused body : ParseM α}
    (limit : context.options.maxDepth = depth)
    (keeps : ∀ state, (refused.run context state).2.depth = state.depth) :
    SameAt context depth refused (withinLimit body refused) := by
  intro state here
  rw [withinLimit_run_refused body refused (by omega)]
  exact ⟨rfl, (keeps state).trans here⟩

theorem limitedExpression_sameAt (deeper : Nat → ParseM Expr) (levels room depth power : Nat)
    (limit : depth + room = context.options.maxDepth) (enough : room < levels) :
    SameAt context depth (expression room power) (limitedExpression deeper levels power) := by
  induction levels generalizing room depth power with
  | zero => omega
  | succ levels ih =>
      cases room with
      | zero => exact refused_sameAt limit.symm (depth_graded.expression 0 power)
      | succ room =>
          have inside (power : Nat) := ih room (depth + 1) power (by omega) (by omega)
          have body := (Built.expressionBody power).sameAt inside
            (sameAt_of_keeps (depth_graded.statement 0))
          exact withinLimit_sameAt limit body

theorem limitedStatement_sameAt (deeper : Nat → ParseM Expr)
    (deeperStatement : ParseM (Option Stmt)) (levels room depth : Nat)
    (limit : depth + room = context.options.maxDepth) (enough : room < levels) :
    SameAt context depth (statement room) (limitedStatement deeper deeperStatement levels) := by
  induction levels generalizing room depth with
  | zero => omega
  | succ levels ih =>
      cases room with
      | zero => exact refused_sameAt limit.symm (depth_graded.statement 0)
      | succ room =>
          have inside : ∀ power, SameAt context (depth + 1) (expression room power)
              (limitedExpression deeper levels power) := fun power =>
            limitedExpression_sameAt deeper levels room (depth + 1) power (by omega) (by omega)
          have body := Built.statementBody.sameAt inside (ih room (depth + 1) (by omega) (by omega))
          exact withinLimit_sameAt limit body

end Adventure.ParseM
