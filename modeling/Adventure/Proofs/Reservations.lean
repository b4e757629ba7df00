import Adventure.Proofs.Courses
import Adventure.Proofs.Histories

/-!
Reservations. A keyword that begins a statement takes its text as a name of the current scope, unless the
nearest scope that bound it had it reserved already when it became the lookahead. What a scope has reserved
stays so until it is declared there, and then that is reported.
-/

namespace Adventure

namespace ScopeTree

variable {tree : ScopeTree} {scope : Nat} {name : String} {definition : Definition}

def Reserves (tree : ScopeTree) (scope : Nat) (name : String) : Prop :=
  ∃ definition, tree.binding? scope name = some definition ∧ definition.reserved = true

theorem binding?_define (present : scope < tree.size) (definition : Definition) :
    (tree.define scope definition).2 = (tree.binding? scope definition.name).map fun previous =>
      if previous.reserved then ⟨.alreadyReserved, previous.span, .error⟩
      else ⟨.alreadyDefined, previous.span, .warning⟩ :=
  congrArg Prod.snd
    (@binding?_apply_of_address tree scope definition.name (.define scope definition) rfl present)

theorem binding?_define_of_other {number : Nat} (other : ¬(number = scope ∧ definition.name = name)) :
    (tree.define number definition).1.binding? scope name = tree.binding? scope name := by
  refine (@binding?_apply_of_other tree scope name (.define number definition) ?_).1
  rintro ⟨about, _⟩
  exact other (Prod.mk.inj (Option.some.inj about))

theorem binding?_reserve_taken (bound : tree.binding? scope name = some definition)
    (taken : definition.reserved = true) (number : Nat) (terminal : Terminal) :
    (tree.reserve number terminal).1.binding? scope name = some definition := by
  by_cases about : (number, terminal.text) = (scope, name) ∧ scope < tree.size
  · obtain ⟨same, present⟩ := about
    have rebound := @binding?_apply_of_address tree scope name (.reserve number terminal)
      (congrArg some same) present
    rw [bound] at rebound
    refine (congrArg Prod.fst rebound).trans ?_
    simp [Operation.rebind, taken]
  · refine (@binding?_apply_of_other tree scope name (.reserve number terminal) ?_).1.trans bound
    rintro ⟨address, present⟩
    exact about ⟨Option.some.inj address, present⟩

/-- A keyword's own text is reserved then, if the keyword was not known as reserved or the scope has it. -/
theorem reserves_reserve_iff (present : scope < tree.size) {terminal : Terminal}
    (named : terminal.isName = true) :
    (tree.reserve scope terminal).1.Reserves scope terminal.text ↔
      terminal.reserved = false ∨ tree.Reserves scope terminal.text := by
  have rebound := congrArg Prod.fst
    (@binding?_apply_of_address tree scope terminal.text (.reserve scope terminal) rfl present)
  have after : (tree.reserve scope terminal).1.binding? scope terminal.text = _ := rebound
  unfold Reserves
  rw [after]
  simp only [Operation.rebind, named, Bool.true_and]
  cases terminal.reserved with
  | true => simp
  | false =>
      cases tree.binding? scope terminal.text with
      | none => simp [reservation]
      | some previous => cases taken : previous.reserved <;> simp [taken, reservation]

theorem standsFor_reserved (grammar : Grammar) (name : String) (nearest? : Option Definition)
    (token : Token) :
    ((standsFor grammar name nearest?).terminal token).reserved = true ↔
      ∃ definition, nearest? = some definition ∧ definition.reserved = true := by
  cases nearest? with
  | some definition => simp [standsFor, Lookup.terminal]
  | none => cases known : grammar.get? name <;> simp [standsFor, Lookup.terminal, Terminal.ofSymbol, known]

theorem standsFor_terminal (grammar : Grammar) (name : String) (nearest? : Option Definition)
    (token : Token) :
    let terminal := (standsFor grammar name nearest?).terminal token
    terminal.text = token.text ∧ terminal.isName = (token.kind == .name) := by
  cases standsFor grammar name nearest? <;> exact ⟨rfl, rfl⟩

end ScopeTree

namespace ParseM

variable {context : Context} {tokens : List Token} {allowed : Nat → String → Prop}
  {first state later : ParseState} {scope : Nat} {name : String} {definition : Definition}

theorem popScope_binding? (state : ParseState) :
    (popScope.run context state).2.scopes.binding? scope name = state.scopes.binding? scope name := by
  by_cases root : state.scope = 0
  · simp only [popScope, run_get_bind, ScopeTree.pop, root, if_true]
    rfl
  · obtain ⟨events, ran⟩ := @popScope_run context state root
    rw [ran]
    rfl

theorem Course.reserved (course : Course context allowed first state) (undeclared : ¬allowed scope name)
    (bound : first.scopes.binding? scope name = some definition) (taken : definition.reserved = true) :
    state.scopes.binding? scope name = some definition := by
  induction course with
  | start => exact bound
  | still alike _ ih =>
      rw [alike.scopes]
      exact ih
  | @advance before _ ih =>
      obtain ⟨terminal, passed, pending, events, ran, _⟩ := @advance_run context before
      rw [ran]
      exact ih
  | reserve terminal _ ih =>
      rw [reserve_run]
      exact ScopeTree.binding?_reserve_taken ih taken _ terminal
  | @declare before terminal arity valueType? permitted _ ih =>
      rw [define_run]
      refine (ScopeTree.binding?_define_of_other ?_).trans ih
      rintro ⟨rfl, rfl⟩
      exact undeclared permitted
  | push _ ih => exact (ScopeTree.binding?_push _).trans ih
  | pop _ ih => exact (popScope_binding? _).trans ih

theorem takeKeyword_scopes (state : ParseState) :
    (takeKeyword.run context state).2.scopes = (state.scopes.reserve state.scope state.token).1 ∧
      (takeKeyword.run context state).2.scope = state.scope := by
  obtain ⟨terminal, passed, pending, events, ran, _⟩ := @advance_run context state
  simp only [takeKeyword, run_bind, run_log, run_pure, reserve_run, ran, and_self]

/-- Once the lookahead was taken as the keyword of a statement, the next declaration of its text in the same
scope is an error, whatever comes in between. -/
def Taken (context : Context) (state : ParseState) : Prop :=
  ∀ later, Course context (fun scope name => ¬(scope = state.scope ∧ name = state.token.text))
      (takeKeyword.run context state).2 later → later.scope = state.scope →
    ∀ (terminal : Terminal) (arity : Arity) (valueType? : Option ValueType),
      terminal.text = state.token.text → ∃ span,
        ((define terminal arity valueType?).run context later).2.diagnostics =
          later.diagnostics ++ [⟨.alreadyReserved, span, .error⟩]

theorem define_reported_iff (grounded : Grounded state) (terminal : Terminal) (arity : Arity)
    (valueType? : Option ValueType) :
    (∃ span, ((define terminal arity valueType?).run context state).2.diagnostics =
        state.diagnostics ++ [⟨.alreadyReserved, span, .error⟩]) ↔
      state.scopes.Reserves state.scope terminal.text := by
  have reported := ScopeTree.binding?_define grounded.current (declared terminal arity valueType? state.scope)
  simp only [define_run, reported, List.append_cancel_left_eq, ScopeTree.Reserves]
  change (∃ span, ((state.scopes.binding? state.scope terminal.text).map _).toList = _) ↔ _
  cases state.scopes.binding? state.scope terminal.text with
  | none => simp
  | some previous => cases taken : previous.reserved <;> simp [taken]

theorem taken_iff (grounded : Grounded state) (named : state.token.isName = true) :
    Taken context state ↔
      state.token.reserved = false ∨ state.scopes.Reserves state.scope state.token.text := by
  obtain ⟨scopes, scope⟩ := @takeKeyword_scopes context state
  have reserves := ScopeTree.reserves_reserve_iff grounded.current named
  have bound : ScopeTree.Bound state.scopes state.scope (takeKeyword.run context state).2.scopes :=
    scopes ▸ ScopeTree.bound_reserve _ _ _
  have dispatched := grounded.bound scope bound
  rw [← reserves, ← scopes]
  constructor
  · intro taken
    have reported := taken _ .start scope state.token .name none rfl
    rw [define_reported_iff dispatched, scope] at reported
    exact reported
  -- Nothing but a declaration undoes a reservation, and the course has none of this name here.
  · rintro ⟨definition, binds, reserved⟩ later course here terminal arity valueType? same
    have kept := course.reserved (fun permitted => permitted ⟨rfl, rfl⟩) binds reserved
    rw [define_reported_iff (course.grounded dispatched), here, same]
    exact ⟨definition, kept, reserved⟩

/-- The lookahead is known as reserved if it was bound as reserved by the nearest scope that bound it when
it became the lookahead. -/
theorem advance_reserved_iff (grounded : Grounded state) :
    let next := (advance.run context state).2.token
    next.reserved = true ↔ next.isName = true ∧ ∃ definition,
      state.scopes.Nearest next.text state.scope (some definition) ∧ definition.reserved = true := by
  obtain ⟨next, passed, pending, events, ran, _, arrival⟩ := @advance_run context state
  rw [ran]
  dsimp only
  cases arrival with
  | finish => simp [endTerminal, Terminal.isName]
  | @terminal skipped pending token next idle meant =>
      obtain ⟨nearest?, nearest, found⟩ :=
        grounded.rooted.find_nearest state.scope token.text context.grammar
      have sameText := ScopeTree.standsFor_terminal context.grammar token.text nearest? token
      rw [← found] at sameText
      cases kind : token.kind with
      | name =>
          simp only [Token.meaning?, kind, Option.some.injEq] at meant
          rw [meant] at sameText
          rw [sameText.1, sameText.2, kind, ← meant, found, ScopeTree.standsFor_reserved]
          simp only [beq_self_eq_true, true_and]
          constructor
          · rintro ⟨definition, rfl, reserved⟩
            exact ⟨definition, nearest, reserved⟩
          · rintro ⟨definition, nearest', reserved⟩
            exact ⟨definition, nearest.unique nearest', reserved⟩
      | comment | whitespace | directive | invalid => simp [Token.meaning?, kind] at meant
      | operator =>
          simp only [Token.meaning?, kind, Option.map_eq_some_iff] at meant
          obtain ⟨symbol, _, rfl⟩ := meant
          simp [Terminal.ofSymbol, Terminal.isName, kind]
      | integer | string =>
          simp only [Token.meaning?, kind, Option.some.injEq] at meant
          subst meant
          simp [Terminal.ofSymbol, Terminal.isName, kind]

/-- When keywords are taken in the reading of `tokens`, from whatever state it passes through. -/
structure Reserving (context : Context) (tokens : List Token) : Prop where
  taken {outer : List Nat} {entered : Nat} {state : ParseState}
    (bracketed : Bracketed context tokens outer entered state) (named : state.token.isName = true) :
    Taken context state ↔
      state.token.reserved = false ∨ state.scopes.Reserves state.scope state.token.text
  known {outer : List Nat} {entered : Nat} {state : ParseState}
    (bracketed : Bracketed context tokens outer entered state) :
    let next := (advance.run context state).2.token
    next.reserved = true ↔ next.isName = true ∧ ∃ definition,
      state.scopes.Nearest next.text state.scope (some definition) ∧ definition.reserved = true

theorem Built.takeKeyword : Built fun _ _ => takeKeyword := by
  unfold ParseM.takeKeyword
  exact .bind (.step .advance) fun terminal =>
    .bind (.step (.log _)) fun _ => .bind (.step (.reserve terminal)) fun _ => .value terminal

end ParseM

namespace Document

open ParseM

/-- A keyword that begins a statement is taken in the current scope, unless a scope around it, and not this
one, was the nearest to have it when it was looked at and had it reserved. -/
theorem parse_reserving (grammar : Grammar) (options : Options) (source : String) :
    Reserving (context grammar options source) (tokens source) where
  taken bracketed named := taken_iff bracketed.poised.grounded named
  known bracketed := advance_reserved_iff bracketed.poised.grounded

/-- A keyword that was used outside may be declared inside, where it was used too. -/
theorem parse_inner_keyword :
    let source := "int x; \x7b int int; \x7d"
    let context := context Grammar.standard Options.default source
    (parse Grammar.standard Options.default source).diagnostics = [] ∧
      ¬∀ outer entered state, Bracketed context (tokens source) outer entered state →
        state.token.isName = true → state.token.startsStatement = true → Taken context state := by
  intro source context
  let first := ((statement 2).run context (start Grammar.standard Options.default source)).2
  let inside := (pushScope.run context (takeKeyword.run context first).2).2
  have silent : (parse Grammar.standard Options.default source).diagnostics = [] := by decide +kernel
  refine ⟨silent, fun always => ?_⟩
  have before := @Built.restores _ context (tokens source) [] 0 _ _ .nested .start 2 (by decide)
  have opening :=
    @Built.restores _ context (tokens source) [] 0 _ _ .takeKeyword before.bracketed 0 (by decide)
  have bracketed : Bracketed context (tokens source) _ 0 inside := .push opening.bracketed
  obtain ⟨named, starts, reserved, unbound⟩ : inside.token.isName = true ∧
      inside.token.startsStatement = true ∧ inside.token.reserved = true ∧
      inside.scopes.binding? inside.scope inside.token.text = none := by decide +kernel
  rcases (taken_iff bracketed.poised.grounded named).mp (always _ _ _ bracketed named starts) with
    unreserved | ⟨definition, binds, _⟩
  · rw [reserved] at unreserved
    cases unreserved
  · rw [unbound] at binds
    cases binds

end Document

end Adventure
