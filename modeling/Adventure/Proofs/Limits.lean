import Adventure.Proofs.Agreement
import Adventure.Proofs.Independence
import Adventure.Proofs.Reports

/-!
The limit on nesting. Reaching it is reported, and no more than once. A document that is read without
such a report is read in the same way under every higher limit.
-/

namespace Adventure

def Problem.isNesting : Problem → Bool
  | .nestingTooDeep _ => true
  | _ => false

theorem Problem.isNesting_of_isLocal {problem : Problem} (isLocal : problem.isLocal = true) :
    problem.isNesting = false := by
  cases problem <;> first | rfl | cases isLocal

namespace ParseM

variable {α : Type} {context : Context} {known : Terminal → Prop}

def CountsNesting (state : ParseState) : Prop :=
  state.diagnostics.countP (·.problem.isNesting) = if state.depthReported then 1 else 0

theorem Adds.countsNesting {before after : ParseState} (adds : Adds before after)
    (counts : CountsNesting before) : CountsNesting after := by
  obtain ⟨reported, added, grown, isLocal⟩ := adds
  have none : added.countP (·.problem.isNesting) = 0 := by
    rw [List.countP_eq_zero]
    intro diagnostic member
    simp [Problem.isNesting_of_isLocal (isLocal diagnostic member)]
  unfold CountsNesting
  rw [grown, reported, List.countP_append, none]
  exact counts

theorem countsNesting_kept : Keeps context (fun _ => True) CountsNesting := by
  refine .of_adds Adds.countsNesting fun {state} counts => ?_
  refine (refuse_adds state).countsNesting ?_
  rw [reportDepth_run]
  unfold CountsNesting at counts ⊢
  cases reported : state.depthReported <;> simp_all [Problem.isNesting]

/-- Reading that does not look at the limit. -/
def Unlimited (action : ParseM α) : Prop :=
  ∀ (context : Context) (limit : Nat) (state : ParseState),
    action.run (context.withLimit limit) state = action.run context state

namespace Unlimited

theorem of_heedless {action : ParseM α} (heedless : Heedless action) : Unlimited action := by
  intro context limit state
  have same := heedless context limit state state.occurrences
  have here := heedless.with_occurrences context state state.occurrences
  exact same.trans here.symm

theorem bind {β : Type} {action : ParseM β} {next : β → ParseM α} (first : Unlimited action)
    (others : ∀ value, Unlimited (next value)) : Unlimited (action >>= next) := by
  intro context limit state
  rw [run_bind, run_bind, first context limit state]
  exact others _ context limit _

theorem takeNoted : Unlimited takeNoted :=
  .bind (.of_heedless .advance) fun _ => .bind (fun _ _ _ => rfl) fun _ => .of_heedless (.pure _)

theorem takeAction : Unlimited takeAction := by
  refine .bind ?_ fun _ => .of_heedless .takeAtom
  intro context limit state
  simp only [checkAction, run_current_bind, run_ite]
  split
  · rw [noteIfUndefined_run, noteIfUndefined_run]
    rfl
  · rfl

end Unlimited

/-- Under a higher limit reading does the same, unless the lower one was reached. -/
theorem limit_simulates (limit : Nat) :
    Simulates context (context.withLimit limit) (fun _ => True) (fun _ => True)
      (·.depthReported = true) Eq := by
  have same {α : Type} {action : ParseM α} (unlimited : Unlimited action) {here there : ParseState}
      (start : here = there) : Agrees (·.depthReported = true) Eq (action.run context here)
        (action.run (context.withLimit limit) there) := by
    rw [start, unlimited context limit]
    exact .inr ⟨rfl, rfl⟩
  constructor
  case keeps => exact .of_adds (fun _ _ => trivial) fun _ => trivial
  case lasting =>
    refine .of_adds (fun adds reported => ?_) fun {state} _ => ⟨trivial, refuse_reported state⟩
    exact ⟨trivial, adds.depthReported.trans reported.2⟩
  case lookahead => exact fun start => congrArg ParseState.token start.symm
  case plain => exact fun plain _ start => same (.of_heedless (.plain plain)) start
  case take => exact fun _ start => same (.of_heedless .advance) start
  case takeNoted => exact fun _ _ start => same .takeNoted start
  case takeAction => exact fun _ start => same .takeAction start
  case push => exact fun _ start => same (.of_heedless .pushScope) start
  case pop => exact fun _ _ start => same (.of_heedless .popScope) start

theorem Agrees.entering {action action' : ParseM α} {limit : Nat} {state : ParseState}
    (agrees : Agrees (·.depthReported = true) Eq (action.run context (enter.run context state).2)
      (action'.run (context.withLimit limit) (enter.run context state).2)) :
    Agrees (·.depthReported = true) Eq ((entering action).run context state)
      ((entering action').run (context.withLimit limit) state) := by
  rcases agrees with reached | ⟨value, final⟩
  · exact .inl reached
  · refine .inr ⟨value, ?_⟩
    exact congrArg (fun state => (leave.run context state).2) final

theorem Composed.withLimit {reader : Open α} (composed : Composed (fun _ => True) none reader)
    {limit room : Nat} {inner : Nat → ParseM Expr} {nested : ParseM (Option Stmt)}
    (inside : ∀ power state, Agrees (·.depthReported = true) Eq
      ((expression room power).run context state)
      ((inner power).run (context.withLimit limit) state))
    (outside : ∀ state, Agrees (·.depthReported = true) Eq ((statement room).run context state)
      (nested.run (context.withLimit limit) state)) (state : ParseState) :
    Agrees (·.depthReported = true) Eq
      ((reader (expression room) (statement room)).run context state)
      ((reader inner nested).run (context.withLimit limit) state) := by
  refine composed.agrees (limit_simulates limit) ?_ ?_ (by simp) trivial rfl
  · intro power here there _ start
    exact start ▸ inside power here
  · intro here there _ start
    exact start ▸ outside here

theorem levels_agree (limit room extra : Nat) :
    (∀ power state, Agrees (·.depthReported = true) Eq ((expression room power).run context state)
        ((expression (room + extra) power).run (context.withLimit limit) state)) ∧
      ∀ state, Agrees (·.depthReported = true) Eq ((statement room).run context state)
        ((statement (room + extra)).run (context.withLimit limit) state) := by
  induction room with
  | zero => exact ⟨fun _ state => .inl (refuse_reported state), fun state => .inl (refuse_reported state)⟩
  | succ room ih =>
      obtain ⟨inside, outside⟩ := ih
      rw [Nat.succ_add]
      constructor
      · intro power state
        exact (Composed.withLimit (.expressionBody power) inside outside _).entering
      · intro state
        exact (Composed.withLimit .statementBody inside outside _).entering

theorem start_withLimit (limit : Nat) (tokens : List Token) :
    ParseState.start (context.withLimit limit) tokens = ParseState.start context tokens := by
  rw [start_def, start_def, Unlimited.of_heedless (.terminalFrom tokens) context limit]

end ParseM

namespace Document

open ParseM

theorem diagnostics_parse (grammar : Grammar) (options : Options) (source : String) :
    (parse grammar options source).diagnostics =
      (run grammar options source).2.diagnostics ++
        if options.analyze then (ofRun (run grammar options source)).undefinedNames grammar options
        else [] := by
  unfold parse analyzed
  split
  · rfl
  · simp [ofRun]

theorem isNesting_of_undefinedNames (grammar : Grammar) (options : Options) (document : Document) :
    ∀ diagnostic ∈ document.undefinedNames grammar options, diagnostic.problem.isNesting = false := by
  intro diagnostic member
  obtain ⟨occurrence, _, rfl⟩ := List.mem_map.mp member
  rfl

theorem run_agrees (grammar : Grammar) (options : Options) (source : String) (extra : Nat) :
    Agrees (·.depthReported = true) Eq (run grammar options source)
      (run grammar { options with maxDepth := options.maxDepth + extra } source) := by
  have levels := @levels_agree (context grammar options source) (options.maxDepth + extra)
    options.maxDepth extra
  have agrees := Composed.statements.withLimit levels.1 levels.2 (start grammar options source)
  have started : start grammar { options with maxDepth := options.maxDepth + extra } source =
      start grammar options source :=
    @start_withLimit (context grammar options source) (options.maxDepth + extra) (tokens source)
  unfold run
  rw [started]
  exact agrees

theorem countP_isNesting (grammar : Grammar) (options : Options) (source : String) :
    (parse grammar options source).diagnostics.countP (·.problem.isNesting) =
      if (run grammar options source).2.depthReported then 1 else 0 := by
  have start : CountsNesting (start grammar options source) :=
    (start_adds (tokens source)).countsNesting rfl
  have counts : CountsNesting (run grammar options source).2 :=
    countsNesting_kept.reader (@Composed.statements _ none) options.maxDepth start
  have names : (if options.analyze then
      (ofRun (run grammar options source)).undefinedNames grammar options else []).countP
        (·.problem.isNesting) = 0 := by
    rw [List.countP_eq_zero]
    intro diagnostic member
    split at member
    · simp [isNesting_of_undefinedNames grammar options _ diagnostic member]
    · cases member
  rw [diagnostics_parse, List.countP_append, names, Nat.add_zero]
  exact counts

/-- The limit on nesting is reported at most once. A document that is read without reaching it is the
same under every higher limit. -/
theorem parse_limit (grammar : Grammar) (options : Options) (source : String) :
    (parse grammar options source).diagnostics.countP (·.problem.isNesting) ≤ 1 ∧
      ((∀ diagnostic ∈ (parse grammar options source).diagnostics,
          diagnostic.problem.isNesting = false) →
        ∀ limit, options.maxDepth ≤ limit →
          parse grammar { options with maxDepth := limit } source = parse grammar options source) := by
  have counts := countP_isNesting grammar options source
  constructor
  · rw [counts]
    split <;> omega
  · intro within limit higher
    obtain ⟨extra, rfl⟩ := Nat.le.dest higher
    have unreached : (run grammar options source).2.depthReported ≠ true := by
      intro reached
      rw [reached, if_pos rfl] at counts
      have present : 0 < (parse grammar options source).diagnostics.countP (·.problem.isNesting) := by
        omega
      obtain ⟨diagnostic, member, nesting⟩ := List.countP_pos_iff.mp present
      simp [within diagnostic member] at nesting
    have same : run grammar { options with maxDepth := options.maxDepth + extra } source =
        run grammar options source := by
      rcases run_agrees grammar options source extra with reached | ⟨value, final⟩
      · exact absurd reached unreached
      · exact Prod.ext value.symm final.symm
    unfold parse
    rw [same]
    rfl

theorem parse_limit_call :
    (∀ diagnostic ∈ (parse Grammar.standard { Options.default with maxDepth := 3 } "f(x);").diagnostics,
        diagnostic.problem.isNesting = false) ∧
      parse Grammar.standard { Options.default with maxDepth := 5 } "f(x);" =
        parse Grammar.standard { Options.default with maxDepth := 3 } "f(x);" := by
  have within : ∀ diagnostic ∈ (parse Grammar.standard { Options.default with maxDepth := 3 }
      "f(x);").diagnostics, diagnostic.problem.isNesting = false := by
    decide
  exact ⟨within, (parse_limit Grammar.standard _ "f(x);").2 within 5 (by decide)⟩

end Document

end Adventure
