import Adventure.Parse.State

/-!
What it takes to fill the lookahead: which tokens make a terminal, what the others leave behind,
and how the state changes when a terminal is consumed.
-/

namespace Adventure

namespace Token

def meaning? (context : Context) (state : ParseState) (token : Token) : Option Terminal :=
  match token.kind with
  | .comment | .whitespace | .directive | .invalid => none
  | .name => some ((state.scopes.find state.scope token.text context.grammar).terminal token)
  | .operator => (context.grammar.get? token.text).map (Terminal.ofSymbol · token)
  | .integer | .string => some (Terminal.ofSymbol (ParseM.literalSymbol context.grammar) token)

/-- What is reported about a token by itself, wherever it stands. -/
def complaints (grammar : Grammar) (token : Token) : Diagnostics :=
  match token.kind with
  | .invalid => [⟨.invalidCharacter token.text, token.span, .error⟩]
  | .operator =>
      if (grammar.get? token.text).isNone then
        [⟨.unknownOperator token.text, token.span, .error⟩]
      else []
  | .string =>
      if token.isClosedString then [] else [⟨.unterminatedString, token.span, .error⟩]
  | _ => []

theorem includeTarget_eq_none {token : Token} (other : token.kind ≠ .directive) :
    token.includeTarget = none := by
  simp [includeTarget, other]

theorem meaning?_token? {context : Context} {state : ParseState} {token : Token}
    {terminal : Terminal} (made : token.meaning? context state = some terminal) :
    terminal.token? = some token := by
  unfold meaning? at made
  obtain ⟨kind, text, span⟩ := token
  cases kind with
  | comment | whitespace | directive | invalid => simp at made
  | name =>
      simp only [Option.some.injEq] at made
      subst made
      cases state.scopes.find state.scope text context.grammar <;> rfl
  | operator =>
      simp only [Option.map_eq_some_iff] at made
      obtain ⟨symbol, _, rfl⟩ := made
      rfl
  | integer | string =>
      simp only [Option.some.injEq] at made
      subst made
      rfl

/-- The scopes decide what a name stands for, not whether it stands for something. -/
theorem meaning?_congr {context : Context} {first second : ParseState} (token : Token)
    (scopes : first.scopes = second.scopes) (scope : first.scope = second.scope) :
    token.meaning? context first = token.meaning? context second := by
  simp only [meaning?, scopes, scope]

end Token

namespace ParseM

variable {context : Context}

@[simp] theorem run_current (state : ParseState) :
    current.run context state = (state.token, state) := rfl

/-! What is read off the state is put in place at once, so that what decides on it reduces. -/

@[simp] theorem run_current_bind {α : Type} (next : Terminal → ParseM α) (state : ParseState) :
    (current >>= next).run context state = (next state.token).run context state := rfl

@[simp] theorem run_get_bind {α : Type} (next : ParseState → ParseM α) (state : ParseState) :
    (get >>= next).run context state = (next state).run context state := rfl

@[simp] theorem run_read_bind {α : Type} (next : Context → ParseM α) (state : ParseState) :
    (read >>= next).run context state = (next context).run context state := rfl

theorem run_bind_of_eq {α β : Type} {action : ParseM α} {next : α → ParseM β}
    {state after : ParseState} {value : α} (ran : action.run context state = (value, after)) :
    (action >>= next).run context state = (next value).run context after := by
  rw [run_bind, ran]

@[simp] theorem run_ite {α : Type} (condition : Prop) [Decidable condition] (yes no : ParseM α)
    (state : ParseState) :
    (if condition then yes else no).run context state =
      if condition then yes.run context state else no.run context state := by
  split <;> rfl

@[simp] theorem run_log (event : Event) (state : ParseState) :
    (log event).run context state = ((), { state with events := state.events.push event }) := rfl

@[simp] theorem run_report (diagnostic : Diagnostic) (state : ParseState) :
    (report diagnostic).run context state =
      ((), { state with diagnostics := state.diagnostics ++ [diagnostic] }) := rfl

@[simp] theorem run_error (problem : Problem) (span : Span) (state : ParseState) :
    (error problem span).run context state =
      ((), { state with diagnostics := state.diagnostics ++ [⟨problem, span, .error⟩] }) := rfl

@[simp] theorem run_warning (problem : Problem) (span : Span) (state : ParseState) :
    (warning problem span).run context state =
      ((), { state with diagnostics := state.diagnostics ++ [⟨problem, span, .warning⟩] }) := rfl

@[simp] theorem run_lookup (name : String) (state : ParseState) :
    (lookup name).run context state =
      (state.scopes.find state.scope name context.grammar, state) := rfl

theorem noteIfUndefined_run (terminal : Terminal) (state : ParseState) :
    (noteIfUndefined terminal).run context state =
      if (state.scopes.find state.scope terminal.text context.grammar).isUndefined then
        (noteOccurrence terminal).run context state
      else ((), state) := by
  have looked : (noteIfUndefined terminal).run context state =
      (if (state.scopes.find state.scope terminal.text context.grammar).isUndefined then
        noteOccurrence terminal else pure ()).run context state := rfl
  rw [looked, run_ite, run_pure]

theorem adopt_run (outcome : ScopeTree × Option Diagnostic) (state : ParseState) :
    (adopt outcome).run context state =
      ((), { state with
        scopes := outcome.1
        diagnostics := state.diagnostics ++ outcome.2.toList }) := by
  obtain ⟨tree, diagnostic?⟩ := outcome
  cases diagnostic? with
  | none => simp [adopt]
  | some diagnostic => simp [adopt]

theorem reserve_run (terminal : Terminal) (state : ParseState) :
    (reserve terminal).run context state =
      ((), { state with
        scopes := (state.scopes.reserve state.scope terminal).1
        diagnostics :=
          state.diagnostics ++ (state.scopes.reserve state.scope terminal).2.toList }) :=
  adopt_run _ state

def declared (terminal : Terminal) (arity : Arity) (valueType? : Option ValueType) (scope : Nat) :
    Definition :=
  { id := terminal.id
    name := terminal.text
    span := terminal.span
    arity
    valueType?
    scope }

theorem define_run (terminal : Terminal) (arity : Arity) (valueType? : Option ValueType)
    (state : ParseState) :
    (define terminal arity valueType?).run context state =
      let outcome :=
        state.scopes.define state.scope (declared terminal arity valueType? state.scope)
      ((), { state with
        scopes := outcome.1
        diagnostics := state.diagnostics ++ outcome.2.toList }) :=
  adopt_run _ state

theorem noteInclude_run (token : Token) (state : ParseState) : ∃ events,
    (noteInclude token).run context state =
      ((), { state with imports := state.imports ++ token.includeTarget.toList, events }) := by
  unfold noteInclude
  cases token.includeTarget with
  | none => exact ⟨state.events, by simp⟩
  | some target => exact ⟨state.events.push (.included target), by simp⟩

theorem errorUnless_run (met : Bool) (problem : Problem) (span : Span) (state : ParseState) :
    (errorUnless met problem span).run context state =
      ((), { state with diagnostics :=
        state.diagnostics ++ if met then [] else [⟨problem, span, .error⟩] }) := by
  cases met <;> simp [errorUnless]

theorem absorb_run (token : Token) (state : ParseState) : ∃ events,
    (absorb token).run context state = (token.meaning? context state,
      { state with
        diagnostics := state.diagnostics ++ token.complaints context.grammar
        imports := state.imports ++ token.includeTarget.toList
        events }) := by
  by_cases directive : token.kind = .directive
  · obtain ⟨events, noted⟩ := @noteInclude_run context token state
    exact ⟨events, by simp [absorb, directive, noted, Token.meaning?, Token.complaints]⟩
  · have target := Token.includeTarget_eq_none directive
    refine ⟨state.events, ?_⟩
    cases kind : token.kind with
    | directive => exact absurd kind directive
    | operator =>
        cases known : context.grammar.get? token.text <;>
          simp [absorb, kind, known, target, Token.meaning?, Token.complaints]
    | string =>
        simp [absorb, kind, target, errorUnless_run, Token.meaning?, Token.complaints]
    | _ => simp [absorb, kind, target, Token.meaning?, Token.complaints]

/-- Passing `passed`, of which only the last token makes a terminal, the lookahead becomes
`terminal`; at the end of the input no token made one. -/
inductive Arrival (context : Context) (state : ParseState) :
    List Token → List Token → Terminal → Prop
  | finish {passed : List Token} (idle : ∀ token ∈ passed, token.meaning? context state = none) :
      Arrival context state passed [] (endTerminal context)
  | terminal {skipped pending : List Token} {token : Token} {terminal : Terminal}
      (idle : ∀ other ∈ skipped, other.meaning? context state = none)
      (meant : token.meaning? context state = some terminal) :
      Arrival context state (skipped ++ [token]) pending terminal

theorem Arrival.cons {state : ParseState} {token : Token} {passed pending : List Token}
    {terminal : Terminal} (unmade : token.meaning? context state = none)
    (arrival : Arrival context state passed pending terminal) :
    Arrival context state (token :: passed) pending terminal := by
  cases arrival with
  | finish idle =>
      refine .finish ?_
      simpa only [List.forall_mem_cons] using ⟨unmade, idle⟩
  | terminal idle meant =>
      rw [← List.cons_append]
      refine .terminal ?_ meant
      simpa only [List.forall_mem_cons] using ⟨unmade, idle⟩

theorem Arrival.congr {first second : ParseState} {passed pending : List Token}
    {terminal : Terminal} (scopes : first.scopes = second.scopes)
    (scope : first.scope = second.scope)
    (arrival : Arrival context first passed pending terminal) :
    Arrival context second passed pending terminal := by
  have same (token : Token) := @Token.meaning?_congr context first second token scopes scope
  cases arrival with
  | finish idle => exact .finish fun token member => by rw [← same]; exact idle token member
  | terminal idle meant =>
      exact .terminal (fun token member => by rw [← same]; exact idle token member)
        (by rw [← same]; exact meant)

theorem terminalFrom_run (tokens : List Token) (state : ParseState) :
    ∃ terminal passed pending events,
      (terminalFrom tokens).run context state = (terminal,
        { state with
          pending
          diagnostics := state.diagnostics ++ passed.flatMap (Token.complaints context.grammar)
          imports := state.imports ++ passed.flatMap (·.includeTarget.toList)
          events }) ∧
      tokens = passed ++ pending ∧ Arrival context state passed pending terminal := by
  induction tokens generalizing state with
  | nil =>
      exact ⟨endTerminal context, [], [], state.events, by simp [terminalFrom], rfl, .finish (by simp)⟩
  | cons token others ih =>
      let logged := { state with events := (state.events.push (.lexed token)).push (.advanced token) }
      obtain ⟨events, absorbed⟩ := @absorb_run context token logged
      have unchanged : token.meaning? context logged = token.meaning? context state := rfl
      rw [unchanged] at absorbed
      cases made : token.meaning? context state with
      | some terminal =>
          rw [made] at absorbed
          have here := @Arrival.terminal context state [] others token terminal (by simp) made
          refine ⟨terminal, [token], others, events, ?_, rfl, here⟩
          simp only [terminalFrom, run_bind, run_log]
          rw [absorbed]
          simp [logged]
      | none =>
          rw [made] at absorbed
          obtain ⟨terminal, passed, pending, events', rest, split, arrival⟩ := ih
            (((absorb token).run context logged).2)
          rw [absorbed] at rest arrival
          have here : Arrival context state passed pending terminal :=
            arrival.congr (by rfl) (by rfl)
          refine ⟨terminal, token :: passed, pending, events', ?_, by rw [split]; rfl, here.cons made⟩
          simp only [terminalFrom, run_bind, run_log]
          rw [absorbed]
          simp only [rest]
          simp [logged]

theorem advance_run (state : ParseState) :
    ∃ terminal passed pending events,
      advance.run context state = (state.token,
        { state with
          token := terminal
          pending
          previousSpan := state.token.span
          diagnostics := state.diagnostics ++ passed.flatMap (Token.complaints context.grammar)
          imports := state.imports ++ passed.flatMap (·.includeTarget.toList)
          events }) ∧
      state.pending = passed ++ pending ∧ Arrival context state passed pending terminal := by
  obtain ⟨terminal, passed, pending, events, found, split, arrival⟩ :=
    @terminalFrom_run context state.pending state
  exact ⟨terminal, passed, pending, events, by simp [advance, found], split, arrival⟩

def blank : ParseState :=
  { token := { id := "(end)", text := "", span := {}, origin := none }, pending := [] }

theorem start_def (tokens : List Token) :
    ParseState.start context tokens =
      { ((terminalFrom tokens).run context blank).2 with
        token := ((terminalFrom tokens).run context blank).1 } := rfl

theorem start_eq (tokens : List Token) :
    ∃ terminal passed pending events,
      ParseState.start context tokens =
        { blank with
          token := terminal
          pending
          diagnostics := passed.flatMap (Token.complaints context.grammar)
          imports := passed.flatMap (·.includeTarget.toList)
          events } ∧
      tokens = passed ++ pending ∧ Arrival context blank passed pending terminal := by
  obtain ⟨terminal, passed, pending, events, found, split, arrival⟩ :=
    @terminalFrom_run context tokens blank
  refine ⟨terminal, passed, pending, events, ?_, split, arrival⟩
  rw [start_def, found]
  rfl

def EndKnown (context : Context) (state : ParseState) : Prop :=
  state.token.isEnd = true → state.token = endTerminal context ∧ state.pending = []

theorem EndKnown.of_eq {before after : ParseState} (token : after.token = before.token)
    (pending : after.pending = before.pending) (known : EndKnown context before) :
    EndKnown context after := by
  unfold EndKnown
  rw [token, pending]
  exact known

theorem Arrival.endKnown {state : ParseState} {passed pending : List Token} {terminal : Terminal}
    (arrival : Arrival context state passed pending terminal) :
    terminal.isEnd = true → terminal = endTerminal context ∧ pending = [] := by
  cases arrival with
  | finish => exact fun _ => ⟨rfl, rfl⟩
  | terminal _ meant =>
      intro ended
      have made := Token.meaning?_token? meant
      simp only [Terminal.isEnd, Option.isNone_iff_eq_none] at ended
      simp [Terminal.token?, ended] at made

end ParseM

end Adventure
