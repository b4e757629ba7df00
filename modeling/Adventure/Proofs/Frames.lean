import Adventure.Proofs.Courses

/-!
Frames. What is read adds to what the current scope binds and to what is on record, and leaves every
other scope alone. So a construct in a scope of its own changes for none of the scopes around it what a
name stands for there.
-/

namespace Adventure

namespace ParseM

variable {α : Type} {context : Context} {tokens : List Token} {outer : List Nat} {entered room : Nat}
  {before middle after state : ParseState}

/-! What is on record stays there. -/

structure Recorded (before after : ParseState) : Prop where
  occurrences : before.occurrences <+: after.occurrences
  imports : before.imports <+: after.imports
  diagnostics : before.diagnostics <+: after.diagnostics

theorem Recorded.of_eq (occurrences : after.occurrences = before.occurrences)
    (imports : after.imports = before.imports) (diagnostics : after.diagnostics = before.diagnostics) :
    Recorded before after :=
  ⟨occurrences ▸ List.prefix_rfl, imports ▸ List.prefix_rfl, diagnostics ▸ List.prefix_rfl⟩

theorem Recorded.trans (first : Recorded before middle) (second : Recorded middle after) :
    Recorded before after :=
  ⟨first.occurrences.trans second.occurrences, first.imports.trans second.imports,
    first.diagnostics.trans second.diagnostics⟩

theorem elementary_recorded {action : ParseM α} (elementary : Elementary action) (state : ParseState) :
    Recorded state (action.run context state).2 := by
  cases elementary with
  | advance =>
      obtain ⟨terminal, passed, pending, events, ran, _⟩ := @advance_run context state
      rw [ran]
      exact ⟨List.prefix_rfl, List.prefix_append .., List.prefix_append ..⟩
  | define terminal arity valueType? =>
      rw [define_run]
      exact ⟨List.prefix_rfl, List.prefix_rfl, List.prefix_append ..⟩
  | reserve terminal =>
      rw [reserve_run]
      exact ⟨List.prefix_rfl, List.prefix_rfl, List.prefix_append ..⟩
  | report diagnostic => exact ⟨List.prefix_rfl, List.prefix_rfl, List.prefix_append ..⟩
  | noteOccurrence terminal => exact ⟨List.prefix_append .., List.prefix_rfl, List.prefix_rfl⟩
  | _ => exact .of_eq rfl rfl rfl

theorem popScope_recorded (state : ParseState) : Recorded state (popScope.run context state).2 := by
  simp only [popScope, run_get_bind]
  cases state.scopes.pop state.scope <;> exact .of_eq rfl rfl rfl

theorem recorded_graded : Graded context fun _ => Recorded := by
  refine Stable.graded ⟨?_, .trans, elementary_recorded, ?_⟩ ?_
  · exact fun state => .of_eq rfl rfl rfl
  · intro before after inside
    exact Recorded.trans ⟨inside.occurrences, inside.imports, inside.diagnostics⟩ (popScope_recorded after)
  · exact fun inside => ⟨inside.occurrences, inside.imports, inside.diagnostics⟩

/-- Every scope but the current one is as it was, the current one has lost no name, and neither has
anything else that was on record. -/
structure Framed (before after : ParseState) : Prop where
  others : ∀ number < before.scopes.size, number ≠ before.scope →
    after.scopes.get? number = before.scopes.get? number
  extended : before.scopes.Extends after.scopes
  recorded : Recorded before after

theorem Built.framed {reader : Open α} (built : Built reader) (room : Nat)
    (bracketed : Bracketed context tokens outer entered state) :
    Framed state ((reader (expression room) (statement room)).run context state).2 := by
  obtain ⟨resumes, others⟩ := confined_graded.reader built room state bracketed.poised.grounded
  exact ⟨others, resumes.extended, recorded_graded.reader built room state⟩

/-! What names stand for around a scope of its own. -/

def SameOutside (before after : ParseState) : Prop :=
  ∀ scope < before.scopes.size, ∀ (name : String) (grammar : Grammar),
    after.scopes.find scope name grammar = before.scopes.find scope name grammar

theorem SameOutside.of_eq {earlier later : ParseState} (same : SameOutside before after)
    (begins : before.scopes = earlier.scopes) (ends : later.scopes = after.scopes) :
    SameOutside earlier later := by
  intro scope present name grammar
  rw [ends, ← begins]
  exact same scope (begins ▸ present) name grammar

theorem Built.grounded {reader : Open α} (built : Built reader) (room : Nat) (grounded : Grounded state) :
    Grounded ((reader (expression room) (statement room)).run context state).2 :=
  (resumes_graded.reader built room state grounded).grounded

theorem inScope_outside {reader : Open α} (built : Built reader) (room : Nat) (grounded : Grounded state) :
    SameOutside state ((inScope (reader (expression room) (statement room))).run context state).2 := by
  have closed := @Built.grounded _ context state _ (Built.inScope built) room grounded
  have unchanged := @inScope_unchanged α context reader built room state grounded
  intro scope present name grammar
  exact grounded.rooted.find_congr closed.rooted fun number lower =>
    unchanged number (Nat.lt_of_le_of_lt lower present)

@[simp] theorem skip_scopes (state : ParseState) : (skip.run context state).2.scopes = state.scopes :=
  advance_scopes state

@[simp] theorem expect_scopes (id : String) (state : ParseState) :
    ((expect id).run context state).2.scopes = state.scopes := by
  simp only [expect, run_current, run_bind, advance_scopes, errorUnless_run]

@[simp] theorem atBrace_scopes (state : ParseState) :
    (atBrace.run context state).2.scopes = state.scopes := by
  simp only [atBrace, run_current, run_bind, run_pure, errorUnless_run]

@[simp] theorem closeBody_scopes (body? : Option (List Stmt)) (state : ParseState) :
    ((closeBody body?).run context state).2.scopes = state.scopes := by
  cases body? with
  | none => rfl
  | some body => simp only [closeBody, run_bind, run_pure, expect_scopes]

theorem blockBody_outside (room : Nat) (grounded : Grounded state) :
    SameOutside state ((blockBody (statement room)).run context state).2 := by
  have inside := @inScope_outside _ context state _ (.of_composed .statementsUntilBrace) room grounded
  refine inside.of_eq rfl ?_
  rw [blockBody_eq]
  simp only [run_bind, run_pure, expect_scopes]

theorem block_outside (room : Nat) (grounded : Grounded state) :
    SameOutside state ((block (statement room)).run context state).2 := by
  simp only [block, run_bind, run_ite, run_pure]
  split
  · have opening : Built fun _ _ => atBrace >>= fun _ => skip := .of_composed (.bind .atBrace fun _ => .skip)
    have opened := @Built.grounded _ context state _ opening room grounded
    rw [run_bind] at opened
    refine (blockBody_outside room opened).of_eq ?_ rfl
    rw [skip_scopes, atBrace_scopes]
  · intro scope _ name grammar
    rw [atBrace_scopes]

theorem function_outside (room : Nat) (name : Terminal) (returnType : ValueType)
    (grounded : Grounded state) :
    let before := ((functionName name returnType >>= fun _ => expect "(").run context state).2
    SameOutside before ((function (statement room) name returnType).run context state).2 := by
  have named : Built fun _ _ => functionName name returnType >>= fun _ => expect "(" :=
    .of_composed (.bind (.functionName trivial returnType) fun _ => .expect "(")
  have head := @Built.grounded _ context state _ named room grounded
  have ran := @function_run context (statement room) name returnType state
  dsimp only at ran head ⊢
  rw [ran]
  generalize ((functionName name returnType >>= fun _ => expect "(").run context state).2 = before at head ⊢
  have inside := @inScope_outside _ context before _ (.of_composed .functionScope) room head
  refine inside.of_eq rfl ?_
  rw [run_bind, run_pure, closeBody_scopes, inScope_run]

def classHead (keyword : Terminal) : ParseM (Option Atom) := do
  let _ ← abstractModifier
  let _ ← className keyword
  superclass

theorem classDefinition_outside (room : Nat) (keyword : Terminal) (grounded : Grounded state) :
    SameOutside ((classHead keyword).run context state).2
      ((classDefinition (statement room) keyword).run context state).2 := by
  have named : Built fun _ _ => classHead keyword :=
    .of_composed (.bind .abstractModifier fun _ => .bind (.className keyword) fun _ => .superclass)
  have head := @Built.grounded _ context state _ named room grounded
  have body := @block_outside context _ room head
  exact body.of_eq rfl rfl

/-- What reading leaves alone in the reading of `tokens`, from whatever state it passes through. -/
structure Isolated (context : Context) (tokens : List Token) : Prop where
  expression (room power : Nat) {outer : List Nat} {entered : Nat} {state : ParseState}
    (bracketed : Bracketed context tokens outer entered state) :
    Framed state ((expression room power).run context state).2
  statement (room : Nat) {outer : List Nat} {entered : Nat} {state : ParseState}
    (bracketed : Bracketed context tokens outer entered state) :
    Framed state ((statement room).run context state).2
  statements (room : Nat) {outer : List Nat} {entered : Nat} {state : ParseState}
    (bracketed : Bracketed context tokens outer entered state) :
    Framed state ((statementsUntilBrace (ParseM.statement room)).run context state).2
  block (room : Nat) {outer : List Nat} {entered : Nat} {state : ParseState}
    (bracketed : Bracketed context tokens outer entered state) :
    let after := ((block (ParseM.statement room)).run context state).2
    Framed state after ∧ SameOutside state after
  blockBody (room : Nat) {outer : List Nat} {entered : Nat} {state : ParseState}
    (bracketed : Bracketed context tokens outer entered state) :
    let after := ((blockBody (ParseM.statement room)).run context state).2
    Framed state after ∧ SameOutside state after
  document (room : Nat) {outer : List Nat} {entered : Nat} {state : ParseState}
    (bracketed : Bracketed context tokens outer entered state) :
    Framed state ((ParseM.statements (ParseM.statement room)).run context state).2
  /-- The name of a function belongs to the scope around it; its parameters and its body do not. -/
  function (room : Nat) (name : Terminal) (returnType : ValueType) {outer : List Nat} {entered : Nat}
    {state : ParseState} (bracketed : Bracketed context tokens outer entered state) :
    let before := ((functionName name returnType >>= fun _ => expect "(").run context state).2
    SameOutside before ((function (ParseM.statement room) name returnType).run context state).2
  /-- So does the name of a class, and its body does not. -/
  classDefinition (room : Nat) (keyword : Terminal) {outer : List Nat} {entered : Nat}
    {state : ParseState} (bracketed : Bracketed context tokens outer entered state) :
    SameOutside ((classHead keyword).run context state).2
      ((classDefinition (ParseM.statement room) keyword).run context state).2
  /-- A scope that closes is neither current nor around the current one ever after, and stays as it is. -/
  closed {allowed : Nat → String → Prop} {parent : Nat} {outer : List Nat} {entered : Nat}
    {state later : ParseState} (bracketed : Bracketed context tokens (parent :: outer) entered state)
    (course : Course context allowed (popScope.run context state).2 later) :
    Closed state.scope later ∧ later.scopes.get? state.scope = state.scopes.get? state.scope

theorem isolated : Isolated context tokens where
  expression room power _ _ _ bracketed := (Built.inner power).framed room bracketed
  statement room _ _ _ bracketed := Built.nested.framed room bracketed
  statements room _ _ _ bracketed := (Built.of_composed .statementsUntilBrace).framed room bracketed
  block room _ _ _ bracketed :=
    ⟨(Built.of_composed .block).framed room bracketed, block_outside room bracketed.poised.grounded⟩
  blockBody room _ _ _ bracketed :=
    ⟨(Built.of_composed .blockBody).framed room bracketed, blockBody_outside room bracketed.poised.grounded⟩
  document room _ _ _ bracketed := Built.statements.framed room bracketed
  function room name returnType _ _ _ bracketed :=
    function_outside room name returnType bracketed.poised.grounded
  classDefinition room keyword _ _ _ bracketed :=
    classDefinition_outside room keyword bracketed.poised.grounded
  closed {allowed parent outer entered state later} bracketed course := by
    have poised := bracketed.poised
    obtain ⟨events, ran⟩ := @popScope_run context state (poised.path.ne_zero poised.rooted)
    have kept : (popScope.run context state).2.scopes.get? state.scope = state.scopes.get? state.scope := by
      rw [ran]
      rfl
    obtain ⟨closed, same⟩ := course.untouched poised.closed
    exact ⟨closed, same.trans kept⟩

end ParseM

namespace Document

open ParseM

/-- Wherever a document is being read, reading writes to the current scope and to scopes that it opens
only, and what closes is not written to on the rest of the way. -/
theorem parse_isolated (grammar : Grammar) (options : Options) (source : String) :
    Isolated (context grammar options source) (tokens source) ∧
      Course (context grammar options source) anywhere (start grammar options source)
        (run grammar options source).2 :=
  ⟨isolated, course_graded.reader Built.statements options.maxDepth _⟩

end Document

end Adventure
