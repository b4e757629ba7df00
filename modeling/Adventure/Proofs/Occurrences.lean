import Adventure.Proofs.Reports
import Adventure.Proofs.Standing

/-!
Occurrences. Names are noted in the order of the source and each place of a name once at most, so
the warnings about undefined names follow the order of the source and none of them is repeated.
-/

namespace Adventure

def Occurrence.token (occurrence : Occurrence) : Token := ⟨.name, occurrence.name, occurrence.span⟩

namespace ParseM

variable {α : Type} {context : Context} {tokens : List Token}  {state : ParseState}

/-- What was noted, in order, are names that have been consumed, in scopes that there are. -/
structure Noted (tokens : List Token) (state : ParseState) : Prop where
  consumed : ∃ consumed, tokens = consumed ++ state.ahead ∧
    (state.occurrences.map Occurrence.token).Sublist consumed
  scopes : ∀ occurrence ∈ state.occurrences, occurrence.scope < state.scopes.size

structure Unnoted (before after : ParseState) : Prop where
  onward : Onward before after
  occurrences : after.occurrences = before.occurrences
  size_le : before.scopes.size ≤ after.scopes.size

theorem Noted.unnoted {before after : ParseState} (noted : Noted tokens before)
    (unnoted : Unnoted before after) : Noted tokens after := by
  obtain ⟨consumed, split, sublist⟩ := noted.consumed
  obtain ⟨passed, ahead⟩ := unnoted.onward
  constructor
  · refine ⟨consumed ++ passed, ?_, ?_⟩
    · rw [List.append_assoc, ahead]
      exact split
    · rw [unnoted.occurrences]
      exact sublist.trans (List.sublist_append_left _ _)
  · intro occurrence member
    rw [unnoted.occurrences] at member
    exact Nat.lt_of_lt_of_le (noted.scopes occurrence member) unnoted.size_le

theorem Unnoted.trans {before middle after : ParseState} (first : Unnoted before middle)
    (second : Unnoted middle after) : Unnoted before after :=
  ⟨second.onward.trans first.onward, second.occurrences.trans first.occurrences,
    Nat.le_trans first.size_le second.size_le⟩

theorem Unnoted.of_eq {before after : ParseState} (ahead : after.ahead = before.ahead)
    (occurrences : after.occurrences = before.occurrences)
    (size : before.scopes.size ≤ after.scopes.size) : Unnoted before after :=
  ⟨onward_of_eq ahead, occurrences, size⟩

theorem advance_unnoted (state : ParseState) : Unnoted state (advance.run context state).2 := by
  have onward := (@onward_stable context).step .advance state
  obtain ⟨terminal, passed, pending, events, ran, _⟩ := @advance_run context state
  rw [ran] at onward ⊢
  exact ⟨onward, rfl, Nat.le_refl _⟩

theorem adopt_unnoted {outcome : ScopeTree × Option Diagnostic} (state : ParseState)
    (bound : ScopeTree.Bound state.scopes state.scope outcome.1) :
    Unnoted state ((adopt outcome).run context state).2 := by
  rw [adopt_run]
  exact .of_eq rfl rfl (Nat.le_of_eq bound.size.symm)

theorem Plain.unnoted {known : Terminal → Prop} {action : ParseM α} (plain : Plain known action)
    (state : ParseState) : Unnoted state (action.run context state).2 := by
  cases plain with
  | define => exact adopt_unnoted state (ScopeTree.bound_define _ _ _)
  | reserve => exact adopt_unnoted state (ScopeTree.bound_reserve _ _ _)
  | _ => exact .of_eq rfl rfl (Nat.le_refl _)

theorem pushScope_unnoted (state : ParseState) : Unnoted state (pushScope.run context state).2 := by
  obtain ⟨events, ran⟩ := @pushScope_run context state
  rw [ran]
  exact .of_eq rfl rfl (by simp)

theorem popScope_unnoted (state : ParseState) : Unnoted state (popScope.run context state).2 := by
  by_cases root : state.scope = 0
  · simp only [popScope, run_get_bind, ScopeTree.pop, root, if_true]
    exact .of_eq rfl rfl (Nat.le_refl _)
  · obtain ⟨events, ran⟩ := @popScope_run context state root
    rw [ran]
    exact .of_eq rfl rfl (Nat.le_refl _)

theorem refuse_unnoted (state : ParseState) : Unnoted state (refuse.run context state).2 := by
  have reported : Unnoted state (reportDepth.run context state).2 := by
    simp only [reportDepth, run_read_bind, run_get_bind, run_ite]
    split <;> exact .of_eq rfl rfl (Nat.le_refl _)
  rw [refuse_run]
  dsimp only
  split
  · exact reported
  · exact reported.trans (advance_unnoted _)

theorem Noted.take (noted : Noted tokens state) (named : state.token.isName = true)
    (current : state.scope < state.scopes.size) {after : ParseState}
    (onward : after.ahead <:+ state.pending)
    (occurrences : after.occurrences =
      state.occurrences ++ [⟨state.token.text, state.token.span, state.scope⟩])
    (scopes : after.scopes = state.scopes) : Noted tokens after := by
  obtain ⟨consumed, split, sublist⟩ := noted.consumed
  obtain ⟨passed, ahead⟩ := onward
  have origin : state.token.origin = some .name := by simpa [Terminal.isName] using named
  have first : state.ahead = ⟨.name, state.token.text, state.token.span⟩ :: state.pending := by
    simp [ParseState.ahead, Terminal.token?, origin]
  constructor
  · refine ⟨consumed ++ ⟨.name, state.token.text, state.token.span⟩ :: passed, ?_, ?_⟩
    · rw [split, first, ← ahead]
      simp
    · rw [occurrences, List.map_append]
      exact sublist.append (List.singleton_sublist.mpr (List.mem_cons_self ..))
  · intro occurrence member
    rw [occurrences, List.mem_append] at member
    rw [scopes]
    rcases member with old | new
    · exact noted.scopes occurrence old
    · rw [List.mem_singleton.mp new]
      exact current

theorem Known.isCloser_of_undefined {terminal : Terminal} (known : Known context tokens terminal)
    (named : terminal.isName = true) (unknown : Grammar.standard.get? terminal.text = none) :
    terminal.isCloser = false := by
  have free : (Word.name terminal.text).isFree = true := by
    simp [Word.isFree, Word.name, unknown]
  have id : terminal.id = "(name)" := by
    rw [(known.id named).1, Word.id_name, if_pos free]
  have present : terminal.isEnd = false := by
    have origin : terminal.origin = some .name := by simpa [Terminal.isName] using named
    simp [Terminal.isEnd, origin]
  simp [Terminal.isCloser, present, id]

theorem takeAction_noted (grammar : context.grammar = Grammar.standard)
    (understood : Understood context tokens state) (grounded : Grounded state)
    (noted : Noted tokens state) : Noted tokens (takeAction.run context state).2 := by
  have checked : Noted tokens (checkAction.run context state).2 ∨
      (state.token.isName = true ∧ state.token.isCloser = false ∧
        checkAction.run context state = (noteOccurrence state.token).run context state) := by
    simp only [checkAction, run_current_bind, run_ite]
    split
    · rename_i named
      rw [noteIfUndefined_run]
      split
      · rename_i undefined
        rw [ScopeTree.find_isUndefined_iff grounded.rooted, grammar] at undefined
        exact .inr ⟨named, understood.lookahead.isCloser_of_undefined named undefined.2, rfl⟩
      · exact .inl noted
    · exact .inl (noted.unnoted (.of_eq rfl rfl (Nat.le_refl _)))
  unfold takeAction
  rw [run_bind, takeAtom_run]
  rcases checked with unnoted | ⟨named, present, ran⟩
  · split
    · exact unnoted
    · exact unnoted.unnoted (advance_unnoted _)
  · have same : (checkAction.run context state).2.token = state.token := by rw [ran]; rfl
    rw [same, if_neg (by simp [present]), ran]
    let looked := ((noteOccurrence state.token).run context state).2
    have onward := @advance_ahead context looked
    obtain ⟨terminal, passed, pending, events, advanced, _⟩ := @advance_run context looked
    rw [advanced] at onward
    change Noted tokens (advance.run context looked).2
    rw [advanced]
    exact noted.take named grounded.current onward rfl rfl

theorem noted_kept (grammar : context.grammar = Grammar.standard)
    (lexical : ∀ token ∈ tokens, token.Lexical) :
    Keeps context (Known context tokens)
      fun state => (Understood context tokens state ∧ Grounded state) ∧ Noted tokens state := by
  have keeps := (understood_kept grammar lexical).and (@grounded_kept context)
  exact
    { lookahead := fun before => keeps.lookahead before.1
      plain := fun plain before => ⟨keeps.plain plain before.1, before.2.unnoted (plain.unnoted _)⟩
      take := fun before => ⟨keeps.take before.1, before.2.unnoted (advance_unnoted _)⟩
      takeNoted := fun {state} named before => by
        refine ⟨keeps.takeNoted named before.1, ?_⟩
        have name : state.token.isName = true :=
          named.elim id fun undefined =>
            before.1.1.lookahead.isName_of_operand grammar lexical (.inr undefined)
        have onward := @advance_ahead context state
        obtain ⟨terminal, passed, pending, events, ran, _⟩ := @advance_run context state
        simp only [takeNoted, run_bind]
        rw [ran] at onward ⊢
        exact before.2.take name before.1.2.current onward rfl rfl
      takeAction := fun before => ⟨keeps.takeAction before.1,
        takeAction_noted grammar before.1.1 before.1.2 before.2⟩
      push := fun before => ⟨keeps.push before.1, before.2.unnoted (pushScope_unnoted _)⟩
      pop := fun closing before => ⟨keeps.pop closing before.1, before.2.unnoted (popScope_unnoted _)⟩
      enter := fun before => ⟨keeps.enter before.1, before.2.unnoted (.of_eq rfl rfl (Nat.le_refl _))⟩
      leave := fun before => ⟨keeps.leave before.1, before.2.unnoted (.of_eq rfl rfl (Nat.le_refl _))⟩
      refuse := fun before => ⟨keeps.refuse before.1, before.2.unnoted (refuse_unnoted _)⟩ }

theorem start_noted (grammar : context.grammar = Grammar.standard)
    (lexical : ∀ token ∈ tokens, token.Lexical) : Noted tokens (ParseState.start context tokens) := by
  obtain ⟨passed, ahead⟩ := (start_understood grammar lexical).ahead
  obtain ⟨terminal, _, pending, events, start, _⟩ := @start_eq context tokens
  rw [start] at ahead ⊢
  exact ⟨⟨passed, ahead.symm, List.nil_sublist _⟩, by simp [blank]⟩

end ParseM

end Adventure
