import Adventure.Proofs.Boundaries
import Adventure.Proofs.Limits
import Adventure.Proofs.Termination
import Adventure.Proofs.Trimming

/-!
What reading passes. Each token of the source is passed once, in order, however often reading recovers:
what was passed, with what is pending, is always the whole source. A token that is passed leaves its
complaints and the file it includes, and nothing else does.
-/

namespace Adventure

namespace Problem

theorem isLexical_of_isOrdinary {problem : Problem} (ordinary : problem.isOrdinary = true) :
    problem.isLexical = false := by
  cases problem <;> first | rfl | cases ordinary

theorem isLexical_of_isBinding {problem : Problem} (binding : problem.isBinding = true) :
    problem.isLexical = false := by
  cases problem <;> first | rfl | cases binding

end Problem

namespace Diagnostics

def lexical (reported : Diagnostics) : Diagnostics := reported.filter (·.problem.isLexical)

@[simp] theorem lexical_append (first second : Diagnostics) :
    lexical (first ++ second) = first.lexical ++ second.lexical :=
  List.filter_append ..

theorem lexical_eq_nil {reported : Diagnostics}
    (other : ∀ diagnostic ∈ reported, diagnostic.problem.isLexical = false) :
    reported.lexical = [] := by
  simpa [lexical] using other

end Diagnostics

theorem Token.lexical_complaints (grammar : Grammar) (token : Token) :
    Diagnostics.lexical (token.complaints grammar) = token.complaints grammar :=
  List.filter_eq_self.mpr (token.isLexical_of_complaints grammar)

def ParseState.passed (state : ParseState) : List Token :=
  state.events.toList.filterMap Event.advanced?

namespace ParseM

variable {α : Type} {context : Context} {known : Terminal → Prop}

/-- Between the two states exactly the tokens `tokens` were passed, and each left its traces. -/
structure Passes (context : Context) (tokens : List Token) (before after : ParseState) : Prop where
  pending : before.pending = tokens ++ after.pending
  passed : after.passed = before.passed ++ tokens
  imports : after.imports = before.imports ++ tokens.flatMap (·.includeTarget.toList)
  lexical : after.diagnostics.lexical =
    before.diagnostics.lexical ++ tokens.flatMap (Token.complaints context.grammar)

namespace Passes

variable {before middle after : ParseState} {tokens others : List Token}

theorem trans (first : Passes context tokens before middle) (second : Passes context others middle after) :
    Passes context (tokens ++ others) before after where
  pending := by rw [first.pending, second.pending, List.append_assoc]
  passed := by rw [second.passed, first.passed, List.append_assoc]
  imports := by rw [second.imports, first.imports, List.flatMap_append, List.append_assoc]
  lexical := by rw [second.lexical, first.lexical, List.flatMap_append, List.append_assoc]

theorem stay {added : Diagnostics} (pending : after.pending = before.pending)
    (passed : after.passed = before.passed) (imports : after.imports = before.imports)
    (grown : after.diagnostics = before.diagnostics ++ added)
    (other : ∀ diagnostic ∈ added, diagnostic.problem.isLexical = false) :
    Passes context [] before after where
  pending := pending.symm
  passed := by rw [passed, List.append_nil]
  imports := by rw [imports, List.flatMap_nil, List.append_nil]
  lexical := by
    rw [grown, Diagnostics.lexical_append, Diagnostics.lexical_eq_nil other, List.flatMap_nil]

theorem refl (state : ParseState) : Passes context [] state state :=
  .stay rfl rfl rfl (List.append_nil _).symm (by simp)

end Passes

def Past (context : Context) (before after : ParseState) : Prop :=
  ∃ tokens, Passes context tokens before after

theorem Past.step {before middle after : ParseState} (past : Past context before middle)
    (step : Past context middle after) : Past context before after := by
  obtain ⟨tokens, first⟩ := past
  obtain ⟨others, second⟩ := step
  exact ⟨tokens ++ others, first.trans second⟩

theorem Past.of_eq {before after : ParseState} (pending : after.pending = before.pending)
    (events : after.events = before.events) (imports : after.imports = before.imports)
    (same : after.diagnostics = before.diagnostics) : Past context before after :=
  ⟨[], .stay pending (congrArg (·.toList.filterMap Event.advanced?) events) imports
    (same.trans (List.append_nil _).symm) (by simp)⟩

theorem log_past {event : Event} (other : event.advanced? = none) (state : ParseState) :
    Past context state ((log event).run context state).2 :=
  ⟨[], .stay rfl (by simp [ParseState.passed, other]) rfl (List.append_nil _).symm (by simp)⟩

theorem report_past {diagnostic : Diagnostic} (other : diagnostic.problem.isLexical = false)
    (state : ParseState) : Past context state ((report diagnostic).run context state).2 :=
  ⟨[], .stay rfl rfl rfl rfl (by simpa using other)⟩

theorem adopt_past {outcome : ScopeTree × Option Diagnostic} (state : ParseState)
    (binding : ∀ diagnostic ∈ outcome.2, diagnostic.problem.isBinding = true) :
    Past context state ((adopt outcome).run context state).2 := by
  rw [adopt_run]
  refine ⟨[], .stay rfl rfl rfl rfl fun diagnostic reported => ?_⟩
  exact Problem.isLexical_of_isBinding (binding diagnostic (by simpa using reported))

theorem absorb_passed (token : Token) (state : ParseState) :
    ((absorb token).run context state).2.passed = state.passed := by
  by_cases directive : token.kind = .directive
  · simp only [absorb, directive, run_bind, run_pure]
    unfold noteInclude
    cases token.includeTarget with
    | none => rfl
    | some target => simp [ParseState.passed, Event.advanced?, List.filterMap_cons]
  · cases kind : token.kind with
    | directive => exact absurd kind directive
    | operator =>
        cases found : context.grammar.get? token.text <;>
          simp [absorb, kind, found, ParseState.passed]
    | string => simp [absorb, kind, errorUnless_run, ParseState.passed]
    | _ => simp [absorb, kind, ParseState.passed]

theorem terminalFrom_passed (tokens : List Token) (state : ParseState) :
    let last := ((terminalFrom tokens).run context state).2
    last.passed ++ last.pending = state.passed ++ tokens := by
  induction tokens generalizing state with
  | nil => rfl
  | cons token others ih =>
      let logged := { state with events := (state.events.push (.lexed token)).push (.advanced token) }
      have absorbed : ((absorb token).run context logged).2.passed = state.passed ++ [token] := by
        rw [absorb_passed]
        simp [logged, ParseState.passed, Event.advanced?, List.filterMap_cons]
      cases found : ((absorb token).run context logged).1 with
      | none =>
          have reads : (terminalFrom (token :: others)).run context state =
              (terminalFrom others).run context ((absorb token).run context logged).2 := by
            simp only [logged] at found
            simp only [terminalFrom, run_bind, run_log, found, logged]
          simp only [reads]
          rw [ih, absorbed, List.append_assoc]
          rfl
      | some terminal =>
          have reads : (terminalFrom (token :: others)).run context state =
              (terminal, { ((absorb token).run context logged).2 with pending := others }) := by
            simp only [logged] at found
            simp only [terminalFrom, run_bind, run_log, found, run_modify, run_pure, logged]
          have unchanged : ({ ((absorb token).run context logged).2 with pending := others }).passed =
              state.passed ++ [token] := absorbed
          simp only [reads, unchanged, List.append_assoc]
          rfl

theorem terminalFrom_past (tokens : List Token) (state : ParseState) :
    Past context { state with pending := tokens } ((terminalFrom tokens).run context state).2 := by
  have logged := @terminalFrom_passed context tokens state
  obtain ⟨terminal, passed, pending, events, ran, split, _⟩ := @terminalFrom_run context tokens state
  rw [ran] at logged ⊢
  refine ⟨passed, split, ?_, rfl, ?_⟩
  · simp only [split, ← List.append_assoc, List.append_cancel_right_eq] at logged
    exact logged
  · have own : Diagnostics.lexical (passed.flatMap (Token.complaints context.grammar)) =
        passed.flatMap (Token.complaints context.grammar) := by
      simp only [Diagnostics.lexical, List.filter_flatMap]
      exact List.flatMap_congr fun token _ => Token.lexical_complaints context.grammar token
    rw [Diagnostics.lexical_append, own]

theorem advance_past (state : ParseState) : Past context state (advance.run context state).2 :=
  (terminalFrom_past state.pending state).step (.of_eq rfl rfl rfl rfl)

theorem start_past (tokens : List Token) :
    Past context { blank with pending := tokens } (ParseState.start context tokens) :=
  (terminalFrom_past tokens blank).step (.of_eq rfl rfl rfl rfl)

theorem Plain.past {action : ParseM α} (plain : Plain known action) (state : ParseState) :
    Past context state (action.run context state).2 := by
  cases plain with
  | log other => exact log_past other state
  | report ordinary => exact report_past (Problem.isLexical_of_isOrdinary ordinary) state
  | define => exact adopt_past state (ScopeTree.isBinding_of_define _ _ _)
  | reserve => exact adopt_past state (ScopeTree.isBinding_of_reserve _ _ _)
  | _ => exact .of_eq rfl rfl rfl rfl

theorem takeAtom_past (state : ParseState) : Past context state (takeAtom.run context state).2 := by
  rw [takeAtom_run]
  split
  · exact ⟨[], .refl state⟩
  · exact advance_past state

theorem checkAction_past (state : ParseState) :
    Past context state (checkAction.run context state).2 := by
  simp only [checkAction, run_current_bind, run_ite]
  split
  · rw [noteIfUndefined_run]
    split <;> exact .of_eq rfl rfl rfl rfl
  · exact report_past (by rfl) state

theorem pushScope_past (state : ParseState) : Past context state (pushScope.run context state).2 :=
  (log_past (by rfl) state).step (.of_eq rfl rfl rfl rfl)

theorem popScope_past (state : ParseState) : Past context state (popScope.run context state).2 := by
  simp only [popScope, run_get_bind]
  cases state.scopes.pop state.scope with
  | error rejection => exact .of_eq rfl rfl rfl rfl
  | ok scopes => exact (log_past (by rfl) state).step (.of_eq rfl rfl rfl rfl)

theorem refuse_past (state : ParseState) : Past context state (refuse.run context state).2 := by
  have reported : Past context state (reportDepth.run context state).2 := by
    rw [reportDepth_run]
    split
    · exact ⟨[], .refl state⟩
    · exact ⟨[], .stay rfl rfl rfl rfl (by simp [Problem.isLexical])⟩
  rw [refuse_run]
  dsimp only
  split
  · exact reported
  · exact reported.step (advance_past _)

/-- Whatever is read, in recovery too, the tokens that go by are passed one after the other. -/
theorem past_kept (first : ParseState) : Keeps context (fun _ => True) (Past context first) where
  lookahead _ := trivial
  plain plain past := past.step (plain.past _)
  take past := past.step (advance_past _)
  takeNoted _ past := (past.step (advance_past _)).step (.of_eq rfl rfl rfl rfl)
  takeAction past := (past.step (checkAction_past _)).step (takeAtom_past _)
  push past := past.step (pushScope_past _)
  pop _ past := past.step (popScope_past _)
  enter past := past.step (.of_eq rfl rfl rfl rfl)
  leave past := past.step (.of_eq rfl rfl rfl rfl)
  refuse past := past.step (refuse_past _)

end ParseM

namespace Document

open ParseM

variable (grammar : Grammar) (options : Options) (source : String)

theorem run_passes :
    Passes (context grammar options source) (tokens source) { blank with pending := tokens source }
      (run grammar options source).2 := by
  have kept := @past_kept (context grammar options source) { blank with pending := tokens source }
  have past : Past (context grammar options source) _ (run grammar options source).2 :=
    kept.reader (@Composed.statements _ none) options.maxDepth (start_past (tokens source))
  obtain ⟨passed, passes⟩ := past
  have finished : (run grammar options source).2.pending = [] :=
    (run_reached.endKnown run_token_isEnd).2
  have all := passes.pending
  simp only [finished, List.append_nil] at all
  exact all ▸ passes

theorem lexical_undefinedNames (document : Document) :
    Diagnostics.lexical (document.undefinedNames grammar options) = [] := by
  refine Diagnostics.lexical_eq_nil fun diagnostic member => ?_
  obtain ⟨occurrence, _, rfl⟩ := List.mem_map.mp member
  rfl

theorem passed_events :
    (events grammar options source).filterMap Event.advanced? =
      (run grammar options source).2.passed := by
  unfold events
  split <;> simp [Event.advanced?, ParseState.passed, List.filterMap_cons]

/-- Reading passes every token of the source once and in order, whatever it recovers from. What is
included, and what is wrong with single tokens, is therefore told by the tokens alone; a string that
is not closed is the last of them. -/
theorem parse_tokens :
    (events grammar options source).filterMap Event.advanced? = tokens source ∧
      (parse grammar options source).imports = (tokens source).filterMap Token.includeTarget ∧
      (∀ token target, Token.includeTarget token = some target ↔
        token.kind = .directive ∧ Token.Includes token.text.toList target) ∧
      (parse grammar options source).diagnostics.lexical =
        (tokens source).flatMap (Token.complaints grammar) ∧
      ∀ before token after, tokens source = before ++ token :: after →
        token.kind = .string → token.isClosedString = false → after = [] := by
  have passes := run_passes grammar options source
  refine ⟨?_, ?_, fun _ _ => Token.includeTarget_eq_some_iff, ?_, ?_⟩
  · rw [passed_events, passes.passed]
    rfl
  · have imports : (parse grammar options source).imports =
        (run grammar options source).2.imports := by
      simp only [parse, analyzed, ofRun]
      split <;> simp only
    rw [imports, passes.imports, List.filterMap_eq_flatMap_toList]
    rfl
  · have names : Diagnostics.lexical (if options.analyze then
        (ofRun (run grammar options source)).undefinedNames grammar options else []) = [] := by
      split
      · exact lexical_undefinedNames grammar options _
      · rfl
    rw [diagnostics_parse, Diagnostics.lexical_append, passes.lexical, names, List.append_nil]
    rfl
  · exact fun before token after split string unclosed => tokens_unclosed split string unclosed

/-- Either kind of marks includes a file, in the order of the source; a definition includes none. -/
theorem parse_tokens_includes :
    let source := "#include \"room.fl\"\n#include <std.fl>\n#define A 1\nint x;"
    (parse Grammar.standard Options.default source).imports = ["room.fl", "std.fl"] ∧
      Token.Includes "#include \"room.fl\"".toList "room.fl" ∧
      Token.Includes "#include <std.fl>".toList "std.fl" := by
  have passed := parse_tokens Grammar.standard Options.default
    "#include \"room.fl\"\n#include <std.fl>\n#define A 1\nint x;"
  have quoted : (⟨.directive, "#include \"room.fl\"", ⟨⟨0, 0⟩, ⟨0, 18⟩⟩⟩ : Token).includeTarget =
      some "room.fl" := by decide +kernel
  have bracketed : (⟨.directive, "#include <std.fl>", ⟨⟨1, 0⟩, ⟨1, 17⟩⟩⟩ : Token).includeTarget =
      some "std.fl" := by decide +kernel
  refine ⟨?_, ((passed.2.2.1 _ _).mp quoted).2, ((passed.2.2.1 _ _).mp bracketed).2⟩
  rw [passed.2.1]
  decide +kernel

end Document

end Adventure
