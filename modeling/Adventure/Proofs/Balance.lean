import Adventure.Proofs.Scopes
import Adventure.Proofs.Termination

/-!
Balance. Scopes close in the order opposite to that of their opening and constructs are left as often
as they are entered, whatever is read. So every reader returns in the scope and at the depth that it
was called in.
-/

namespace Adventure

namespace ScopeTree

inductive Path (tree : ScopeTree) : Nat → List Nat → Prop
  | root : Path tree 0 []
  | inside {scope parent : Nat} {outer : List Nat} {found : Scope}
      (present : tree.get? scope = some found) (below : found.parent? = some parent)
      (path : Path tree parent outer) : Path tree scope (parent :: outer)

variable {tree before after : ScopeTree} {scope : Nat} {outer : List Nat}

theorem Path.mono (path : Path before scope outer) (extended : Extends before after) :
    Path after scope outer := by
  induction path with
  | root => exact .root
  | inside present below _ ih =>
      obtain ⟨later, there, parent, _⟩ := extended _ _ present
      exact .inside there (parent.trans below) ih

theorem Path.lt_size (path : Path tree scope outer) (rooted : Rooted tree) : scope < tree.size := by
  cases path with
  | root => exact rooted.nonempty
  | inside present => exact get?_eq_some_lt present

theorem Path.push (path : Path tree scope outer) : Path (tree.push scope) tree.size (scope :: outer) := by
  have last : (tree.push scope).get? tree.size = some { parent? := some scope } := by
    rw [get?_push, if_pos rfl]
  exact .inside last rfl (path.mono (extends_push tree scope))

theorem Path.ne_zero {parent : Nat} (path : Path tree scope (parent :: outer)) (rooted : Rooted tree) :
    scope ≠ 0 := by
  cases path with
  | inside present below =>
      intro root
      have none := (rooted.parent?_eq_none_iff present).mpr root
      rw [below] at none
      cases none

theorem Path.parentOf {parent : Nat} (path : Path tree scope (parent :: outer)) :
    tree.parentOf scope = parent ∧ Path tree parent outer := by
  cases path with
  | inside present below path =>
      refine ⟨?_, path⟩
      simp [ScopeTree.parentOf, present, below]

end ScopeTree

namespace ParseM

variable {α : Type} {context : Context} {tokens : List Token}

theorem pushScope_run (state : ParseState) : ∃ events,
    pushScope.run context state =
      ((), { state with
        scopes := state.scopes.push state.scope
        scope := state.scopes.size
        events }) :=
  ⟨_, rfl⟩

theorem popScope_run {state : ParseState} (inner : state.scope ≠ 0) : ∃ events,
    popScope.run context state =
      ((), { state with
        scopes := { state.scopes with pops := state.scopes.pops + 1 }
        scope := state.scopes.parentOf state.scope
        events }) := by
  simp only [popScope, run_get_bind, ScopeTree.pop_of_ne inner]
  exact ⟨_, rfl⟩

theorem adopt_scopes (outcome : ScopeTree × Option Diagnostic) (state : ParseState) :
    let after := ((adopt outcome).run context state).2
    after.scope = state.scope ∧ after.scopes = outcome.1 ∧ after.rootPopped = state.rootPopped := by
  rw [adopt_run]
  exact ⟨rfl, rfl, rfl⟩

theorem elementary_scopes {action : ParseM α} (elementary : Elementary action) (state : ParseState) :
    let after := (action.run context state).2
    after.scope = state.scope ∧ ScopeTree.Bound state.scopes state.scope after.scopes ∧
      after.rootPopped = state.rootPopped := by
  cases elementary with
  | advance =>
      obtain ⟨terminal, passed, pending, events, ran, _⟩ := @advance_run context state
      rw [ran]
      exact ⟨rfl, .same, rfl⟩
  | define terminal arity valueType? =>
      obtain ⟨scope, scopes, popped⟩ := @adopt_scopes context (state.scopes.define state.scope
        (declared terminal arity valueType? state.scope)) state
      refine ⟨scope, ?_, popped⟩
      exact scopes ▸ ScopeTree.bound_define _ _ _
  | reserve terminal =>
      obtain ⟨scope, scopes, popped⟩ :=
        @adopt_scopes context (state.scopes.reserve state.scope terminal) state
      refine ⟨scope, ?_, popped⟩
      exact scopes ▸ ScopeTree.bound_reserve _ _ _
  | _ => exact ⟨rfl, .same, rfl⟩

/-- The states that reading passes through, with the scopes that are open around the current one,
innermost first, and the number of constructs that have been entered. Only what is open closes, and
only what was entered is left. -/
inductive Bracketed (context : Context) (tokens : List Token) : List Nat → Nat → ParseState → Prop
  | start : Bracketed context tokens [] 0 (ParseState.start context tokens)
  | step {α : Type} {action : ParseM α} {outer : List Nat} {entered : Nat} {state : ParseState}
      (elementary : Elementary action) (bracketed : Bracketed context tokens outer entered state) :
      Bracketed context tokens outer entered (action.run context state).2
  | push {outer : List Nat} {entered : Nat} {state : ParseState}
      (bracketed : Bracketed context tokens outer entered state) :
      Bracketed context tokens (state.scope :: outer) entered (pushScope.run context state).2
  | pop {parent : Nat} {outer : List Nat} {entered : Nat} {state : ParseState}
      (bracketed : Bracketed context tokens (parent :: outer) entered state) :
      Bracketed context tokens outer entered (popScope.run context state).2
  | enter {outer : List Nat} {entered : Nat} {state : ParseState}
      (allowed : entered < context.options.maxDepth)
      (bracketed : Bracketed context tokens outer entered state) :
      Bracketed context tokens outer (entered + 1) (enter.run context state).2
  | leave {outer : List Nat} {entered : Nat} {state : ParseState}
      (bracketed : Bracketed context tokens outer (entered + 1) state) :
      Bracketed context tokens outer entered (leave.run context state).2

structure Poised (context : Context) (outer : List Nat) (entered : Nat) (state : ParseState) : Prop where
  rooted : state.scopes.Rooted
  path : state.scopes.Path state.scope outer
  depth : state.depth = entered
  entered_le : entered ≤ context.options.maxDepth
  pushes : state.scopes.pushes = state.scopes.pops + outer.length
  size : state.scopes.size = state.scopes.pushes + 1
  rootPopped : state.rootPopped = false

variable {outer : List Nat} {entered : Nat} {state : ParseState}

theorem poised_start : Poised context [] 0 (ParseState.start context tokens) := by
  obtain ⟨terminal, passed, pending, events, start, _⟩ := @start_eq context tokens
  rw [start]
  exact ⟨ScopeTree.rooted_start, .root, rfl, Nat.zero_le _, rfl, rfl, rfl⟩

theorem Poised.step {action : ParseM α} (poised : Poised context outer entered state)
    (elementary : Elementary action) : Poised context outer entered (action.run context state).2 := by
  obtain ⟨scope, bound, popped⟩ := @elementary_scopes α context _ elementary state
  constructor
  · exact bound.rooted poised.rooted
  · rw [scope]
    exact poised.path.mono bound.extended
  · rw [elementary_depth elementary]
    exact poised.depth
  · exact poised.entered_le
  · rw [bound.pushes, bound.pops]
    exact poised.pushes
  · rw [bound.size, bound.pushes]
    exact poised.size
  · rw [popped]
    exact poised.rootPopped

theorem Poised.push (poised : Poised context outer entered state) :
    Poised context (state.scope :: outer) entered (pushScope.run context state).2 := by
  obtain ⟨events, ran⟩ := @pushScope_run context state
  rw [ran]
  constructor
  · exact poised.rooted.push (poised.path.lt_size poised.rooted)
  · exact poised.path.push
  · exact poised.depth
  · exact poised.entered_le
  · change state.scopes.pushes + 1 = state.scopes.pops + (outer.length + 1)
    rw [poised.pushes]
    omega
  · rw [ScopeTree.size_push, poised.size]
    rfl
  · exact poised.rootPopped

theorem Poised.pop {parent : Nat} (poised : Poised context (parent :: outer) entered state) :
    Poised context outer entered (popScope.run context state).2 := by
  obtain ⟨events, ran⟩ := @popScope_run context state (poised.path.ne_zero poised.rooted)
  obtain ⟨parentOf, path⟩ := poised.path.parentOf
  rw [ran]
  constructor
  · exact ⟨poised.rooted.nonempty, poised.rooted.parent?_eq_none_iff, poised.rooted.parent_lt⟩
  · simp only [parentOf]
    exact path.mono (ScopeTree.Extends.refl state.scopes)
  · exact poised.depth
  · exact poised.entered_le
  · have pushes := poised.pushes
    rw [List.length_cons] at pushes
    change state.scopes.pushes = state.scopes.pops + 1 + outer.length
    omega
  · exact poised.size
  · exact poised.rootPopped

theorem Bracketed.poised (bracketed : Bracketed context tokens outer entered state) :
    Poised context outer entered state := by
  induction bracketed with
  | start => exact poised_start
  | step elementary _ ih => exact ih.step elementary
  | push _ ih => exact ih.push
  | pop _ ih => exact ih.pop
  | @enter outer entered state allowed _ ih =>
      exact ⟨ih.rooted, ih.path, congrArg (· + 1) ih.depth, allowed, ih.pushes, ih.size, ih.rootPopped⟩
  | @leave outer entered state _ ih =>
      have entered := ih.entered_le
      exact ⟨ih.rooted, ih.path, congrArg (· - 1) ih.depth, by omega, ih.pushes, ih.size,
        ih.rootPopped⟩

def Returns (context : Context) (tokens : List Token) (before after : ParseState) : Prop :=
  ∀ outer entered, Bracketed context tokens outer entered before →
    Bracketed context tokens outer entered after ∧ after.scope = before.scope

theorem scope_returns {before after : ParseState}
    (inside : Returns context tokens (pushScope.run context before).2 after) :
    Returns context tokens before (popScope.run context after).2 := by
  intro outer entered bracketed
  obtain ⟨closing, _⟩ := inside _ _ (.push bracketed)
  refine ⟨.pop closing, ?_⟩
  have poised := closing.poised
  obtain ⟨events, ran⟩ := @popScope_run context after (poised.path.ne_zero poised.rooted)
  rw [ran]
  exact poised.path.parentOf.1

def ReturnsWithin (context : Context) (tokens : List Token) (room : Nat) (before after : ParseState) :
    Prop :=
  before.depth + room ≤ context.options.maxDepth → Returns context tokens before after ∧
    after.depth = before.depth

theorem returns_graded : Graded context (ReturnsWithin context tokens) where
  stable room :=
    { refl := fun state _ => ⟨fun _ _ bracketed => ⟨bracketed, rfl⟩, rfl⟩
      trans := fun {first second third} before after allowed => by
        obtain ⟨returned, kept⟩ := before allowed
        obtain ⟨returned', kept'⟩ := after (by omega)
        refine ⟨fun outer entered bracketed => ?_, kept'.trans kept⟩
        obtain ⟨middle, scope⟩ := returned outer entered bracketed
        obtain ⟨final, scope'⟩ := returned' outer entered middle
        exact ⟨final, scope'.trans scope⟩
      step := fun elementary state _ => by
        refine ⟨fun _ _ bracketed => ⟨.step elementary bracketed, ?_⟩, elementary_depth elementary state⟩
        exact (elementary_scopes elementary state).1
      scope := fun {_ after} inside allowed => by
        obtain ⟨returned, kept⟩ := inside allowed
        exact ⟨scope_returns returned, (popScope_depth after).trans kept⟩ }
  nest {room before after} inside allowed := by
    have entered : (enter.run context before).2.depth = before.depth + 1 := rfl
    obtain ⟨returned, kept⟩ := inside (by omega)
    constructor
    · intro outer entered bracketed
      have here := bracketed.poised.depth
      obtain ⟨left, scope⟩ := returned outer (entered + 1) (.enter (by omega) bracketed)
      exact ⟨.leave left, scope⟩
    · change after.depth - 1 = before.depth
      omega

/-- Reading from `before` to `after` leaves everything open and entered as it was. -/
structure Restores (context : Context) (tokens : List Token) (outer : List Nat) (entered : Nat)
    (before after : ParseState) : Prop where
  bracketed : Bracketed context tokens outer entered after
  scope : after.scope = before.scope
  depth : after.depth = before.depth

theorem Built.restores {reader : Open α} (built : Built reader)
    (bracketed : Bracketed context tokens outer entered state) {room : Nat}
    (allowed : entered + room ≤ context.options.maxDepth) :
    Restores context tokens outer entered state
      ((reader (expression room) (statement room)).run context state).2 := by
  have here := bracketed.poised.depth
  have within : state.depth + room ≤ context.options.maxDepth := by omega
  obtain ⟨returned, kept⟩ := returns_graded.reader built room state within
  obtain ⟨final, scope⟩ := returned outer entered bracketed
  exact ⟨final, scope, kept⟩

/-- What is balanced in the reading of `tokens`, from whatever state it passes through. -/
structure Balanced (context : Context) (tokens : List Token) : Prop where
  expression (power : Nat) {outer : List Nat} {entered room : Nat} {state : ParseState}
    (bracketed : Bracketed context tokens outer entered state)
    (allowed : entered + room ≤ context.options.maxDepth) :
    Restores context tokens outer entered state ((expression room power).run context state).2
  statement {outer : List Nat} {entered room : Nat} {state : ParseState}
    (bracketed : Bracketed context tokens outer entered state)
    (allowed : entered + room ≤ context.options.maxDepth) :
    Restores context tokens outer entered state ((statement room).run context state).2
  statements {outer : List Nat} {entered room : Nat} {state : ParseState}
    (bracketed : Bracketed context tokens outer entered state)
    (allowed : entered + room ≤ context.options.maxDepth) :
    Restores context tokens outer entered state
      ((statementsUntilBrace (ParseM.statement room)).run context state).2
  block {outer : List Nat} {entered room : Nat} {state : ParseState}
    (bracketed : Bracketed context tokens outer entered state)
    (allowed : entered + room ≤ context.options.maxDepth) :
    Restores context tokens outer entered state ((block (ParseM.statement room)).run context state).2
  blockBody {outer : List Nat} {entered room : Nat} {state : ParseState}
    (bracketed : Bracketed context tokens outer entered state)
    (allowed : entered + room ≤ context.options.maxDepth) :
    Restores context tokens outer entered state ((blockBody (ParseM.statement room)).run context state).2
  document {outer : List Nat} {entered room : Nat} {state : ParseState}
    (bracketed : Bracketed context tokens outer entered state)
    (allowed : entered + room ≤ context.options.maxDepth) :
    Restores context tokens outer entered state
      ((ParseM.statements (ParseM.statement room)).run context state).2
  /-- A function closes just the scope that it opened, before the brace after its body if it has one. -/
  function (name : Terminal) (returnType : ValueType) {outer : List Nat} {entered room : Nat}
    {state : ParseState} (bracketed : Bracketed context tokens outer entered state)
    (allowed : entered + room ≤ context.options.maxDepth) :
    let before := ((functionName name returnType >>= fun _ => expect "(").run context state).2
    let opened := (pushScope.run context before).2
    let inside := (functionScope (ParseM.statement room)).run context opened
    Restores context tokens outer entered state before ∧ opened.scope = before.scopes.size ∧
      Restores context tokens (before.scope :: outer) entered opened inside.2 ∧
      Restores context tokens outer entered state (popScope.run context inside.2).2 ∧
      (function (ParseM.statement room) name returnType).run context state =
        (closeBody inside.1.2 >>= fun body =>
          return .function name.head returnType inside.1.1 body).run context
            (popScope.run context inside.2).2
  /-- Only a scope that is open below another one closes, and leads back to that one. -/
  pop {parent : Nat} {outer : List Nat} {entered : Nat} {state : ParseState}
    (bracketed : Bracketed context tokens (parent :: outer) entered state) :
    state.scope ≠ 0 ∧ (popScope.run context state).2.scope = parent
  /-- A construct that is left was entered. -/
  leave {outer : List Nat} {entered : Nat} {state : ParseState}
    (bracketed : Bracketed context tokens outer (entered + 1) state) :
    state.depth ≠ 0 ∧ (leave.run context state).2.depth + 1 = state.depth
  poised {outer : List Nat} {entered : Nat} {state : ParseState}
    (bracketed : Bracketed context tokens outer entered state) : Poised context outer entered state

/-- What is read in a scope of its own is read in the scope that was opened last, and that one
closes. -/
theorem Built.restores_inScope {reader : Open α} (built : Built reader)
    (bracketed : Bracketed context tokens outer entered state) {room : Nat}
    (allowed : entered + room ≤ context.options.maxDepth) :
    let opened := (pushScope.run context state).2
    let closing := ((reader (expression room) (statement room)).run context opened).2
    opened.scope = state.scopes.size ∧
      Restores context tokens (state.scope :: outer) entered opened closing ∧
      Restores context tokens outer entered state (popScope.run context closing).2 :=
  ⟨rfl, built.restores (.push bracketed) allowed, (Built.inScope built).restores bracketed allowed⟩

theorem Restores.trans {middle after : ParseState}
    (first : Restores context tokens outer entered state middle)
    (second : Restores context tokens outer entered middle after) :
    Restores context tokens outer entered state after :=
  ⟨second.bracketed, second.scope.trans first.scope, second.depth.trans first.depth⟩

theorem function_run (nested : ParseM (Option Stmt)) (name : Terminal) (returnType : ValueType)
    (state : ParseState) :
    let before := ((functionName name returnType >>= fun _ => expect "(").run context state).2
    let inside := (functionScope nested).run context (pushScope.run context before).2
    (function nested name returnType).run context state =
      (closeBody inside.1.2 >>= fun body =>
        return .function name.head returnType inside.1.1 body).run context
          (popScope.run context inside.2).2 := by
  simp only [function_eq, run_bind, inScope_run]

theorem function_restores (name : Terminal) (returnType : ValueType) {room : Nat}
    (bracketed : Bracketed context tokens outer entered state)
    (allowed : entered + room ≤ context.options.maxDepth) :
    let before := ((functionName name returnType >>= fun _ => expect "(").run context state).2
    let opened := (pushScope.run context before).2
    let inside := (functionScope (statement room)).run context opened
    Restores context tokens outer entered state before ∧ opened.scope = before.scopes.size ∧
      Restores context tokens (before.scope :: outer) entered opened inside.2 ∧
      Restores context tokens outer entered state (popScope.run context inside.2).2 ∧
      (function (statement room) name returnType).run context state =
        (closeBody inside.1.2 >>= fun body =>
          return .function name.head returnType inside.1.1 body).run context
            (popScope.run context inside.2).2 := by
  have named : Built fun _ _ => functionName name returnType >>= fun _ => expect "(" :=
    .of_composed (.bind (.functionName trivial returnType) fun _ => .expect "(")
  have head := named.restores bracketed allowed
  obtain ⟨fresh, body, whole⟩ := (Built.of_composed .functionScope).restores_inScope head.bracketed allowed
  exact ⟨head, fresh, body, head.trans whole, function_run (statement room) name returnType state⟩

theorem balanced : Balanced context tokens where
  expression power _ _ _ _ bracketed allowed := (Built.inner power).restores bracketed allowed
  statement bracketed allowed := Built.nested.restores bracketed allowed
  statements bracketed allowed := (Built.of_composed .statementsUntilBrace).restores bracketed allowed
  block bracketed allowed := (Built.of_composed .block).restores bracketed allowed
  blockBody bracketed allowed := (Built.of_composed .blockBody).restores bracketed allowed
  document bracketed allowed := Built.statements.restores bracketed allowed
  function name returnType _ _ _ _ bracketed allowed :=
    function_restores name returnType bracketed allowed
  pop {parent outer entered state} bracketed := by
    have poised := bracketed.poised
    have inner := poised.path.ne_zero poised.rooted
    obtain ⟨events, ran⟩ := @popScope_run context state inner
    rw [ran]
    exact ⟨inner, poised.path.parentOf.1⟩
  leave {outer entered state} bracketed := by
    have entered := bracketed.poised.depth
    constructor
    · omega
    · change state.depth - 1 + 1 = state.depth
      omega
  poised bracketed := bracketed.poised

end ParseM

namespace Document

open ParseM

theorem parse_scopes (grammar : Grammar) (options : Options) (source : String) :
    (parse grammar options source).scopes = (run grammar options source).2.scopes := by
  unfold parse
  rw [scopes_analyzed]
  rfl

theorem run_restores (grammar : Grammar) (options : Options) (source : String) :
    Restores (context grammar options source) (tokens source) [] 0
      (start grammar options source) (run grammar options source).2 := by
  have allowed : 0 + options.maxDepth ≤ (context grammar options source).options.maxDepth :=
    Nat.le_of_eq (Nat.zero_add _)
  exact Built.statements.restores .start allowed

/-- Scopes and depth are in balance wherever a document is being read, and at its end every scope but
the root has been closed. -/
theorem parse_balanced (grammar : Grammar) (options : Options) (source : String) :
    Balanced (context grammar options source) (tokens source) ∧
      Bracketed (context grammar options source) (tokens source) [] 0
        (run grammar options source).2 ∧
      (run grammar options source).2.rootPopped = false ∧
      let scopes := (parse grammar options source).scopes
      scopes.pushes = scopes.pops ∧ scopes.size = scopes.pushes + 1 ∧ scopes.Rooted := by
  have final := run_restores grammar options source
  have poised := final.bracketed.poised
  have pushes := poised.pushes
  rw [List.length_nil, Nat.add_zero] at pushes
  simp only [parse_scopes]
  exact ⟨balanced, final.bracketed, poised.rootPopped, pushes, poised.size, poised.rooted⟩

end Document

end Adventure
