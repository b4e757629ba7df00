import Adventure.Document
import Adventure.Proofs.Invariants

/-!
Impartiality. Of the options reading goes by the limit on nesting alone, and it does not go by what has been
reported or logged: under other options, with more reports before, the same is read and the same is reported
after them.
-/

namespace Adventure

namespace Context

def withOptions (context : Context) (options : Options) : Context := { context with options }

end Context

def ParseState.following (reported : Diagnostics) (events : Array Event) (state : ParseState) :
    ParseState :=
  { state with diagnostics := reported ++ state.diagnostics, events }

namespace ParseM

variable {α β : Type} {known : Terminal → Prop} {seen : Option Terminal}

/-- Reading that goes by no option but the limit on nesting, and by nothing that was reported or logged. -/
def Impartial (action : ParseM α) : Prop :=
  ∀ (context : Context) (options : Options) (reported : Diagnostics) (events : Array Event)
    (state : ParseState), options.maxDepth = context.options.maxDepth →
      ∃ logged, action.run (context.withOptions options) (state.following reported events) =
        ((action.run context state).1, (action.run context state).2.following reported logged)

theorem Arrival.unique {context : Context} {state : ParseState} {passed pending passed' pending' : List Token}
    {terminal other : Terminal} (first : Arrival context state passed pending terminal)
    (second : Arrival context state passed' pending' other) (same : passed ++ pending = passed' ++ pending') :
    passed = passed' ∧ pending = pending' ∧ terminal = other := by
  cases first with
  | finish idle =>
      cases second with
      | finish => simpa using same
      | @terminal _ _ token _ _ meant =>
          have member : token ∈ passed := by
            rw [List.append_nil] at same
            simp [same]
          simp [idle token member] at meant
  | @terminal skipped _ token _ idle meant =>
      cases second with
      | finish idle' =>
          have member : token ∈ passed' := by
            rw [List.append_nil] at same
            simp [← same]
          simp [idle' token member] at meant
      | @terminal skipped' _ token' _ idle' meant' =>
          induction skipped generalizing skipped' with
          | nil =>
              cases skipped' with
              | nil =>
                  obtain ⟨rfl, rfl⟩ : token = token' ∧ pending = pending' := by simpa using same
                  exact ⟨rfl, rfl, Option.some.inj (meant.symm.trans meant')⟩
              | cons first others =>
                  obtain ⟨rfl, _⟩ : token = first ∧ _ := by simpa using same
                  simp [idle' token (by simp)] at meant
          | cons first skipped ih =>
              cases skipped' with
              | nil =>
                  obtain ⟨rfl, _⟩ : first = token' ∧ _ := by simpa using same
                  simp [idle first (by simp)] at meant'
              | cons first' skipped' =>
                  obtain ⟨rfl, rest⟩ : first = first' ∧ skipped ++ [token] ++ pending =
                    skipped' ++ [token'] ++ pending' := by simpa using same
                  obtain ⟨before, after, made⟩ := ih (fun token member => idle token (by simp [member]))
                    (fun token member => idle' token (by simp [member])) rest
                  exact ⟨congrArg (first :: ·) before, after, made⟩

theorem Arrival.withOptions {context : Context} {options : Options} {reported : Diagnostics}
    {events : Array Event} {state : ParseState} {passed pending : List Token} {terminal : Terminal}
    (arrival : Arrival (context.withOptions options) (state.following reported events) passed pending
      terminal) : Arrival context state passed pending terminal := by
  cases arrival with
  | finish idle => exact .finish idle
  | terminal idle meant => exact .terminal idle meant

namespace Impartial

theorem pure (value : α) : Impartial (Pure.pure value : ParseM α) :=
  fun _ _ _ events _ _ => ⟨events, rfl⟩

theorem bind {action : ParseM β} {next : β → ParseM α} (first : Impartial action)
    (others : ∀ value, Impartial (next value)) : Impartial (action >>= next) := by
  intro context options reported events state limit
  obtain ⟨middle, ran⟩ := first context options reported events state limit
  rw [run_bind_of_eq ran]
  exact others _ context options reported middle _ limit

theorem current : Impartial current := fun _ _ _ events _ _ => ⟨events, rfl⟩

theorem noteOccurrence (terminal : Terminal) : Impartial (noteOccurrence terminal) :=
  fun _ _ _ events _ _ => ⟨events, rfl⟩

theorem enter : Impartial enter := fun _ _ _ events _ _ => ⟨events, rfl⟩

theorem leave : Impartial leave := fun _ _ _ events _ _ => ⟨events, rfl⟩

theorem pushScope : Impartial pushScope :=
  fun _ _ _ events state _ => ⟨events.push (.pushed state.scopes.size state.scope), rfl⟩

theorem popScope : Impartial popScope := by
  intro context options reported events state limit
  simp only [ParseM.popScope, run_get_bind, ParseState.following]
  cases state.scopes.pop state.scope with
  | error => exact ⟨events, rfl⟩
  | ok scopes => exact ⟨events.push (.popped state.scope (state.scopes.parentOf state.scope)), rfl⟩

theorem report (diagnostic : Diagnostic) : Impartial (report diagnostic) := by
  intro context options reported events state limit
  refine ⟨events, ?_⟩
  simp [ParseState.following]

theorem advance : Impartial advance := by
  intro context options reported events state limit
  obtain ⟨terminal, passed, pending, logged, ran, split, arrival⟩ := @advance_run context state
  obtain ⟨other, passed', pending', logged', ran', split', arrival'⟩ :=
    @advance_run (context.withOptions options) (state.following reported events)
  have moved : Arrival context state passed' pending' other := arrival'.withOptions
  obtain ⟨rfl, rfl, rfl⟩ := arrival.unique moved (split.symm.trans split')
  refine ⟨logged', ?_⟩
  rw [ran', ran]
  simp [ParseState.following, Context.withOptions]

theorem plain {action : ParseM α} (plain : Plain known action) : Impartial action := by
  cases plain with
  | report => exact report _
  | log =>
      intro context options reported events state limit
      exact ⟨_, rfl⟩
  | define =>
      intro context options reported events state limit
      refine ⟨events, ?_⟩
      rw [define_run, define_run]
      simp [ParseState.following]
  | reserve =>
      intro context options reported events state limit
      refine ⟨events, ?_⟩
      rw [reserve_run, reserve_run]
      simp [ParseState.following]
  | _ => exact fun _ _ _ events _ _ => ⟨events, rfl⟩

theorem takeAtom : Impartial takeAtom := by
  refine .bind .current fun token => ?_
  split
  · exact .pure _
  · exact .bind .advance fun _ => .pure _

theorem takeAction : Impartial takeAction := by
  refine .bind (.bind .current fun token => ?_) fun _ => takeAtom
  split
  · intro context options reported events state limit
    have same : (state.following reported events).scopes = state.scopes := rfl
    refine ⟨events, ?_⟩
    rw [noteIfUndefined_run, noteIfUndefined_run]
    change (if (state.scopes.find state.scope token.text context.grammar).isUndefined = true
      then _ else _) = _
    split <;> rfl
  · exact report _

theorem refuse : Impartial refuse := by
  refine .bind ?_ fun _ => .bind .current fun token => ?_
  · intro context options reported events state limit
    refine ⟨events, ?_⟩
    simp only [reportDepth, run_read_bind, run_get_bind, run_ite, Context.withOptions, limit,
      ParseState.following]
    split
    · rfl
    · simp
  · split
    · exact .pure _
    · exact .bind .advance fun _ => .pure _

theorem entering {action : ParseM α} (inside : Impartial action) : Impartial (entering action) :=
  .bind .enter fun _ => .bind inside fun value => .bind .leave fun _ => .pure value

end Impartial

theorem Composed.impartial {reader : Open α} (composed : Composed (fun _ => True) seen reader)
    {inner : Nat → ParseM Expr} {nested : ParseM (Option Stmt)} (inside : ∀ power, Impartial (inner power))
    (outside : Impartial nested) : Impartial (reader inner nested) := by
  induction composed with
  | value value => exact .pure value
  | bind _ _ firstIH nextIH => exact .bind firstIH nextIH
  | look _ ih => exact .bind .current fun token => ih token trivial
  | take _ ih => exact .bind .advance fun terminal => ih terminal trivial
  | takeNoted _ _ ih =>
      exact .bind .advance fun terminal => .bind (.noteOccurrence terminal) fun _ => ih terminal trivial
  | takeAction => exact .takeAction
  | step plain => exact .plain plain
  | inner power => exact inside power
  | nested => exact outside
  | inScope _ _ ih =>
      exact .bind .pushScope fun _ => .bind ih fun value => .bind .popScope fun _ => .pure value

theorem levels_impartial (room : Nat) :
    (∀ power, Impartial (expression room power)) ∧ Impartial (statement room) := by
  induction room with
  | zero =>
      constructor
      · intro power
        exact .bind .refuse fun _ => .pure _
      · exact .bind .refuse fun _ => .pure _
  | succ room ih =>
      obtain ⟨inside, outside⟩ := ih
      constructor
      · intro power
        exact .entering ((@Composed.expressionBody _ none power).impartial inside outside)
      · exact .entering ((@Composed.statementBody _ none).impartial inside outside)

theorem Composed.impartially {reader : Open α} (composed : Composed (fun _ => True) none reader)
    (room : Nat) : Impartial (reader (expression room) (statement room)) :=
  composed.impartial (levels_impartial room).1 (levels_impartial room).2

theorem start_withOptions (context : Context) (options : Options) (tokens : List Token) :
    ∃ logged, ParseState.start (context.withOptions options) tokens =
      (ParseState.start context tokens).following [] logged := by
  obtain ⟨terminal, passed, pending, events, started, split, arrival⟩ := @start_eq context tokens
  obtain ⟨other, passed', pending', events', started', split', arrival'⟩ :=
    @start_eq (context.withOptions options) tokens
  have moved := @Arrival.withOptions context options [] #[] blank _ _ _ arrival'
  obtain ⟨rfl, rfl, rfl⟩ := arrival.unique moved (split.symm.trans split')
  refine ⟨events', ?_⟩
  rw [started', started]
  rfl

end ParseM

theorem Document.ofRun_following (reported : Diagnostics) (events : Array Event)
    (outcome : List Stmt × ParseState) :
    ofRun (outcome.1, outcome.2.following reported events) =
      { ofRun outcome with diagnostics := reported ++ (ofRun outcome).diagnostics } := rfl

end Adventure
