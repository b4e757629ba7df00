import Adventure.Proofs.Invariants

/-!
What readers report. Diagnostics are only ever added, and apart from a construct that nests too deep
every one of them is about a token, a binding or what a reader met.
-/

namespace Adventure

def Problem.isLocal : Problem → Bool
  | .nestingTooDeep _ | .undefined _ => false
  | _ => true

def Problem.isLexical : Problem → Bool
  | .invalidCharacter _ | .unterminatedString | .unknownOperator _ => true
  | _ => false

def Problem.isBinding : Problem → Bool
  | .alreadyDefined | .alreadyReserved => true
  | _ => false

namespace Problem

variable {problem : Problem}

theorem isLocal_of_isOrdinary (ordinary : problem.isOrdinary = true) : problem.isLocal = true := by
  cases problem <;> first | rfl | cases ordinary

theorem isLocal_of_isLexical (lexical : problem.isLexical = true) : problem.isLocal = true := by
  cases problem <;> first | rfl | cases lexical

theorem isLocal_of_isBinding (binding : problem.isBinding = true) : problem.isLocal = true := by
  cases problem <;> first | rfl | cases binding

end Problem

theorem Token.isLexical_of_complaints (grammar : Grammar) (token : Token) :
    ∀ diagnostic ∈ token.complaints grammar, diagnostic.problem.isLexical = true := by
  unfold complaints
  split
  · simp [Problem.isLexical]
  · split <;> simp [Problem.isLexical]
  · split <;> simp [Problem.isLexical]
  · simp

namespace ScopeTree

theorem isBinding_of_define (tree : ScopeTree) (scope : Nat) (definition : Definition) :
    ∀ diagnostic ∈ (tree.define scope definition).2, diagnostic.problem.isBinding = true := by
  unfold define
  cases tree.get? scope with
  | none => simp
  | some target =>
      intro diagnostic reported
      simp only [Option.mem_def, Option.map_eq_some_iff] at reported
      obtain ⟨previous, _, rfl⟩ := reported
      split <;> rfl

theorem isBinding_of_reserve (tree : ScopeTree) (scope : Nat) (terminal : Terminal) :
    ∀ diagnostic ∈ (tree.reserve scope terminal).2, diagnostic.problem.isBinding = true := by
  unfold reserve
  split
  · simp
  · cases tree.get? scope with
    | none => simp
    | some target =>
        cases found : target.get? terminal.text with
        | none => simp [found]
        | some previous =>
            simp only [found]
            split
            · simp
            · split <;> simp [Problem.isBinding]

end ScopeTree

namespace ParseM

variable {α : Type} {context : Context} {known : Terminal → Prop} {holds : ParseState → Prop}

structure Adds (before after : ParseState) : Prop where
  depthReported : after.depthReported = before.depthReported
  diagnostics : ∃ added : Diagnostics, after.diagnostics = before.diagnostics ++ added ∧
    ∀ diagnostic ∈ added, diagnostic.problem.isLocal = true

theorem Adds.of_eq {before after : ParseState} (reported : after.depthReported = before.depthReported)
    (same : after.diagnostics = before.diagnostics) : Adds before after :=
  ⟨reported, [], by simp [same], by simp⟩

theorem Adds.refl (state : ParseState) : Adds state state := .of_eq rfl rfl

theorem Adds.trans {before middle after : ParseState} (adds : Adds before middle)
    (others : Adds middle after) : Adds before after := by
  obtain ⟨reported, added, grown, isLocal⟩ := adds
  obtain ⟨reported', added', grown', isLocal'⟩ := others
  refine ⟨reported'.trans reported, added ++ added', by rw [grown', grown, List.append_assoc], ?_⟩
  intro diagnostic member
  rcases List.mem_append.mp member with first | second
  · exact isLocal diagnostic first
  · exact isLocal' diagnostic second

theorem Adds.mem {before after : ParseState} (adds : Adds before after) {diagnostic : Diagnostic}
    (member : diagnostic ∈ before.diagnostics) : diagnostic ∈ after.diagnostics := by
  obtain ⟨_, added, grown, _⟩ := adds
  rw [grown]
  exact List.mem_append_left added member

theorem adopt_adds {outcome : ScopeTree × Option Diagnostic} (state : ParseState)
    (binding : ∀ diagnostic ∈ outcome.2, diagnostic.problem.isBinding = true) :
    Adds state ((adopt outcome).run context state).2 := by
  rw [adopt_run]
  refine ⟨rfl, outcome.2.toList, rfl, fun diagnostic reported => ?_⟩
  exact Problem.isLocal_of_isBinding (binding diagnostic (by simpa using reported))

theorem isLocal_of_complaints (passed : List Token) :
    ∀ diagnostic ∈ passed.flatMap (Token.complaints context.grammar),
      diagnostic.problem.isLocal = true := by
  intro diagnostic member
  obtain ⟨token, _, complaint⟩ := List.mem_flatMap.mp member
  exact Problem.isLocal_of_isLexical
    (token.isLexical_of_complaints context.grammar diagnostic complaint)

theorem advance_adds (state : ParseState) : Adds state (advance.run context state).2 := by
  obtain ⟨terminal, passed, pending, events, ran, _⟩ := @advance_run context state
  rw [ran]
  exact ⟨rfl, _, rfl, isLocal_of_complaints passed⟩

theorem start_adds (tokens : List Token) : Adds blank (ParseState.start context tokens) := by
  obtain ⟨terminal, passed, pending, events, start, _⟩ := @start_eq context tokens
  rw [start]
  exact ⟨rfl, _, rfl, isLocal_of_complaints passed⟩

theorem Plain.adds {action : ParseM α} (plain : Plain known action) (state : ParseState) :
    Adds state (action.run context state).2 := by
  cases plain with
  | report ordinary =>
      exact ⟨rfl, [_], rfl, by simpa using Problem.isLocal_of_isOrdinary ordinary⟩
  | define => exact adopt_adds state (ScopeTree.isBinding_of_define _ _ _)
  | reserve => exact adopt_adds state (ScopeTree.isBinding_of_reserve _ _ _)
  | _ => exact .of_eq rfl rfl

theorem takeNoted_adds (state : ParseState) : Adds state (takeNoted.run context state).2 :=
  (advance_adds state).trans (.of_eq rfl rfl)

theorem takeAtom_adds (state : ParseState) : Adds state (takeAtom.run context state).2 := by
  rw [takeAtom_run]
  split
  · exact .refl state
  · exact advance_adds state

theorem checkAction_adds (state : ParseState) : Adds state (checkAction.run context state).2 := by
  simp only [checkAction, run_current_bind, run_ite]
  split
  · rw [noteIfUndefined_run]
    split <;> exact .of_eq rfl rfl
  · exact ⟨rfl, [_], rfl, by simp [Problem.isLocal]⟩

theorem takeAction_adds (state : ParseState) : Adds state (takeAction.run context state).2 :=
  (checkAction_adds state).trans (takeAtom_adds _)

theorem popScope_adds (state : ParseState) : Adds state (popScope.run context state).2 := by
  simp only [popScope, run_get_bind]
  cases state.scopes.pop state.scope <;> exact .of_eq rfl rfl

theorem reportDepth_run (state : ParseState) :
    reportDepth.run context state =
      ((), if state.depthReported then state
        else { state with
          depthReported := true
          diagnostics := state.diagnostics ++
            [⟨.nestingTooDeep context.options.maxDepth, state.token.span, .error⟩] }) := by
  simp only [reportDepth, run_read_bind, run_get_bind, run_ite]
  split <;> rfl

theorem refuse_adds (state : ParseState) :
    Adds (reportDepth.run context state).2 (refuse.run context state).2 := by
  rw [refuse_run]
  dsimp only
  split
  · exact .refl _
  · exact advance_adds _

theorem refuse_reported (state : ParseState) :
    (refuse.run context state).2.depthReported = true := by
  rw [(refuse_adds state).depthReported, reportDepth_run]
  cases reported : state.depthReported <;> simp [reported]

theorem Keeps.of_adds
    (adding : ∀ {before after : ParseState}, Adds before after → holds before → holds after)
    (refuse : ∀ {state : ParseState}, holds state → holds (ParseM.refuse.run context state).2) :
    Keeps context (fun _ => True) holds where
  lookahead _ := trivial
  plain plain := adding (plain.adds _)
  take := adding (advance_adds _)
  takeNoted _ := adding (takeNoted_adds _)
  takeAction := adding (takeAction_adds _)
  push := adding (.of_eq rfl rfl)
  pop _ := adding (popScope_adds _)
  enter := adding (.of_eq rfl rfl)
  leave := adding (.of_eq rfl rfl)
  refuse := refuse

theorem reported_kept (shape : Diagnostic → Prop) :
    Keeps context (fun _ => True) fun state => ∃ diagnostic ∈ state.diagnostics, shape diagnostic := by
  refine .of_adds ?_ ?_
  · rintro before after adds ⟨diagnostic, member, holds⟩
    exact ⟨diagnostic, adds.mem member, holds⟩
  · rintro state ⟨diagnostic, member, holds⟩
    refine ⟨diagnostic, (refuse_adds state).mem ?_, holds⟩
    rw [reportDepth_run]
    split
    · exact member
    · exact List.mem_append_left _ member

end ParseM

end Adventure
