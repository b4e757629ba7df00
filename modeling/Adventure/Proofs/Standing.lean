import Adventure.Proofs.Balance
import Adventure.Proofs.Meaning

/-!
Where reading stands. The current scope is one of the tree's, and whatever is read returns to it with
all that it and the other scopes bound before.
-/

namespace Adventure.ParseM

variable {α : Type} {context : Context} {tokens : List Token} {state : ParseState} {scope : Nat}

/-- The current scope is one of a tree in which every way outwards ends at the root. -/
structure Grounded (state : ParseState) : Prop where
  rooted : state.scopes.Rooted
  current : state.scope < state.scopes.size

theorem Grounded.bound {before after : ParseState} (grounded : Grounded before)
    (scope : after.scope = before.scope)
    (bound : ScopeTree.Bound before.scopes before.scope after.scopes) : Grounded after := by
  refine ⟨bound.rooted grounded.rooted, ?_⟩
  rw [scope, bound.size]
  exact grounded.current

theorem Grounded.push (grounded : Grounded state) : Grounded (pushScope.run context state).2 := by
  obtain ⟨events, ran⟩ := @pushScope_run context state
  rw [ran]
  refine ⟨grounded.rooted.push grounded.current, ?_⟩
  rw [ScopeTree.size_push]
  exact Nat.lt_succ_self _

theorem Grounded.parentOf_lt (grounded : Grounded state) :
    state.scopes.parentOf state.scope < state.scopes.size := by
  obtain ⟨found, present⟩ := ScopeTree.get?_of_lt grounded.current
  cases inside : found.parent? with
  | none => simpa [ScopeTree.parentOf, present, inside] using grounded.rooted.nonempty
  | some parent =>
      have lower := grounded.rooted.parent_lt present inside
      simpa [ScopeTree.parentOf, present, inside] using Nat.lt_trans lower grounded.current

theorem Grounded.pop (grounded : Grounded state) : Grounded (popScope.run context state).2 := by
  by_cases root : state.scope = 0
  · simp only [popScope, run_get_bind, ScopeTree.pop, root, if_true]
    exact ⟨grounded.rooted, root ▸ grounded.current⟩
  · obtain ⟨events, ran⟩ := @popScope_run context state root
    rw [ran]
    exact ⟨⟨grounded.rooted.nonempty, grounded.rooted.parent?_eq_none_iff, grounded.rooted.parent_lt⟩,
      grounded.parentOf_lt⟩

theorem grounded_kept : Keeps context (fun _ => True) Grounded := by
  have elementary {α : Type} {action : ParseM α} (step : Elementary action) {state : ParseState}
      (grounded : Grounded state) : Grounded (action.run context state).2 :=
    grounded.bound (elementary_scopes step state).1 (elementary_scopes step state).2.1
  refine .of_alike ?_ (fun _ => trivial) (elementary .advance) (fun _ => elementary (.define _ _ _))
    (fun _ => elementary (.reserve _)) (·.push) (fun _ => (·.pop))
  intro before after alike grounded
  exact grounded.bound alike.scope (alike.scopes ▸ .same)

structure Resumes (before after : ParseState) : Prop where
  grounded : Grounded after
  scope : after.scope = before.scope
  extended : before.scopes.Extends after.scopes

theorem resumes_graded : Graded context fun _ before after =>
    Grounded before → Resumes before after := by
  refine Stable.graded ⟨?_, ?_, ?_, ?_⟩ ?_
  · exact fun state grounded => ⟨grounded, rfl, .refl _⟩
  · intro first second third before after grounded
    obtain ⟨middle, scope, extended⟩ := before grounded
    obtain ⟨final, scope', extended'⟩ := after middle
    exact ⟨final, scope'.trans scope, extended.trans extended'⟩
  · intro β action elementary state grounded
    obtain ⟨scope, bound, _⟩ := @elementary_scopes β context action elementary state
    exact ⟨grounded.bound scope bound, scope, bound.extended⟩
  · intro before after inside grounded
    obtain ⟨grounded', scope, extended⟩ := inside grounded.push
    have opened : after.scope = before.scopes.size := scope
    have extended : (before.scopes.push before.scope).Extends after.scopes := extended
    have last : (before.scopes.push before.scope).get? before.scopes.size =
        some { parent? := some before.scope } := by simp
    obtain ⟨later, present, parent, _⟩ := extended _ _ last
    have inner : after.scope ≠ 0 := by
      have positive := grounded.rooted.nonempty
      omega
    have outside : after.scopes.parentOf after.scope = before.scope := by
      simp [ScopeTree.parentOf, opened, present, parent]
    have closed := @Grounded.pop context after grounded'
    obtain ⟨events, ran⟩ := @popScope_run context after inner
    rw [ran] at closed ⊢
    exact ⟨closed, outside, (ScopeTree.extends_push _ _).trans extended⟩
  · exact fun {before after} inside grounded => by
      obtain ⟨final, scope, extended⟩ := inside ⟨grounded.rooted, grounded.current⟩
      exact ⟨⟨final.rooted, final.current⟩, scope, extended⟩

/-- What is known of a state in a certain scope. -/
structure Standing (context : Context) (tokens : List Token) (scope : Nat) (state : ParseState) :
    Prop where
  understood : Understood context tokens state
  grounded : Grounded state
  scope : state.scope = scope

theorem start_grounded (tokens : List Token) : Grounded (ParseState.start context tokens) := by
  obtain ⟨terminal, passed, pending, events, start, _⟩ := @start_eq context tokens
  rw [start]
  exact ⟨ScopeTree.rooted_start, ScopeTree.rooted_start.nonempty⟩

theorem start_standing (grammar : context.grammar = Grammar.standard)
    (lexical : ∀ token ∈ tokens, token.Lexical) :
    Standing context tokens 0 (ParseState.start context tokens) := by
  refine ⟨start_understood grammar lexical, start_grounded tokens, ?_⟩
  obtain ⟨terminal, passed, pending, events, start, _⟩ := @start_eq context tokens
  rw [start]
  rfl

/-- Whatever is read ends in the scope in which it began. -/
theorem Standing.reader (grammar : context.grammar = Grammar.standard)
    (lexical : ∀ token ∈ tokens, token.Lexical) {reader : Open α}
    (composed : Composed (Known context tokens) none reader) (built : Built reader) (room : Nat)
    (standing : Standing context tokens scope state) :
    let after := ((reader (expression room) (statement room)).run context state).2
    Standing context tokens scope after ∧ state.scopes.Extends after.scopes := by
  obtain ⟨grounded, same, extended⟩ := resumes_graded.reader built room state standing.grounded
  have understood := (understood_kept grammar lexical).reader composed room standing.understood
  exact ⟨⟨understood, grounded, same.trans standing.scope⟩, extended⟩

end Adventure.ParseM
