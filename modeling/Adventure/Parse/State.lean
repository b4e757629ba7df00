import Adventure.Event
import Adventure.Occurrence
import Adventure.Token.Cursor

/-!
The state of a reader of documents, and its small steps. A reader holds one terminal of lookahead.
It finds out what a name stands for when the name becomes the lookahead, in the scope that is
current then; trivia and characters that belong to no token pass by on the way.
-/

namespace Adventure

structure Context where
  grammar : Grammar
  options : Options
  /-- The position after the last character. -/
  finish : Position

structure ParseState where
  /-- The lookahead. -/
  token : Terminal
  /-- The tokens after the lookahead, trivia included. -/
  pending : List Token
  /-- The span of the last terminal consumed. -/
  previousSpan : Span := {}
  scopes : ScopeTree := {}
  /-- The current scope. -/
  scope : Nat := 0
  diagnostics : Diagnostics := []
  occurrences : List Occurrence := []
  imports : List String := []
  /-- How many statements and expressions are being read. -/
  depth : Nat := 0
  depthReported : Bool := false
  /-- Set when the root scope was to be closed. -/
  rootPopped : Bool := false
  events : Array Event := #[]

abbrev ParseM := ReaderT Context (StateM ParseState)

def ParseState.ahead (state : ParseState) : List Token :=
  state.token.token?.toList ++ state.pending

def ParseState.remaining (state : ParseState) : Nat := state.ahead.length

namespace ParseM

variable {α β : Type}

def run (action : ParseM α) (context : Context) (state : ParseState) : α × ParseState :=
  (ReaderT.run action context).run state

@[simp] theorem run_pure (value : α) (context : Context) (state : ParseState) :
    (pure value : ParseM α).run context state = (value, state) := rfl

@[simp] theorem run_bind (action : ParseM α) (next : α → ParseM β) (context : Context)
    (state : ParseState) :
    (action >>= next).run context state =
      (next (action.run context state).1).run context (action.run context state).2 := rfl

@[simp] theorem run_map (change : α → β) (action : ParseM α) (context : Context)
    (state : ParseState) :
    (change <$> action).run context state =
      (change (action.run context state).1, (action.run context state).2) := rfl

@[simp] theorem run_get (context : Context) (state : ParseState) :
    (get : ParseM ParseState).run context state = (state, state) := rfl

@[simp] theorem run_modify (change : ParseState → ParseState) (context : Context)
    (state : ParseState) :
    (modify change : ParseM Unit).run context state = ((), change state) := rfl

@[simp] theorem run_read (context : Context) (state : ParseState) :
    (read : ParseM Context).run context state = (context, state) := rfl

def current : ParseM Terminal := do
  let state ← get
  return state.token

def log (event : Event) : ParseM Unit :=
  modify fun state => { state with events := state.events.push event }

def report (diagnostic : Diagnostic) : ParseM Unit :=
  modify fun state => { state with diagnostics := state.diagnostics.push diagnostic }

def error (problem : Problem) (span : Span) : ParseM Unit := report ⟨problem, span, .error⟩

def warning (problem : Problem) (span : Span) : ParseM Unit := report ⟨problem, span, .warning⟩

def errorUnless (met : Bool) (problem : Problem) (span : Span) : ParseM Unit :=
  if met then pure () else error problem span

def warningUnless (met : Bool) (problem : Problem) (span : Span) : ParseM Unit :=
  if met then pure () else warning problem span

def endTerminal (context : Context) : Terminal :=
  { id := "(end)"
    denotations := ((context.grammar.get? "(end)").map (·.denotations)).getD {}
    text := "(end)"
    span := Span.at context.finish
    origin := none }

def literalSymbol (grammar : Grammar) : Symbol :=
  (grammar.get? "(literal)").getD { id := "(literal)" }

def lookup (name : String) : ParseM Lookup := do
  let context ← read
  let state ← get
  return state.scopes.find state.scope name context.grammar

def noteInclude (token : Token) : ParseM Unit :=
  match token.includeTarget with
  | none => pure ()
  | some target => do
      log (.included target)
      modify fun state => { state with imports := state.imports ++ [target] }

/-- Takes notice of a token; the answer is the terminal it makes, if it makes one. -/
def absorb (token : Token) : ParseM (Option Terminal) := do
  let context ← read
  match token.kind with
  | .comment | .whitespace => return none
  | .directive => do
      noteInclude token
      return none
  | .invalid => do
      error (.invalidCharacter token.text) token.span
      return none
  | .name => do
      let found ← lookup token.text
      return some (found.terminal token)
  | .operator =>
      match context.grammar.get? token.text with
      | some symbol => return some (Terminal.ofSymbol symbol token)
      | none => do
          error (.unknownOperator token.text) token.span
          return none
  | .integer => return some (Terminal.ofSymbol (literalSymbol context.grammar) token)
  | .string => do
      errorUnless token.isClosedString .unterminatedString token.span
      return some (Terminal.ofSymbol (literalSymbol context.grammar) token)

/-- The first terminal that the tokens make; those after its token become the pending ones. -/
def terminalFrom : List Token → ParseM Terminal
  | [] => do
      let context ← read
      modify fun state => { state with pending := [] }
      return endTerminal context
  | token :: others => do
      log (.lexed token)
      log (.advanced token)
      let found ← absorb token
      match found with
      | none => terminalFrom others
      | some terminal => do
          modify fun state => { state with pending := others }
          return terminal

/-- Consumes the lookahead and returns it. -/
def advance : ParseM Terminal := do
  let state ← get
  let next ← terminalFrom state.pending
  modify fun after => { after with token := next, previousSpan := state.token.span }
  return state.token

def skip : ParseM Unit := do
  let _ ← advance
  return ()

/-- Consumes the lookahead whatever it is, and reports it if it is not `id`. -/
def expect (id : String) : ParseM Terminal := do
  let token ← current
  errorUnless (token.id == id) (.expected id) token.span
  advance

def advanceUnlessCloser : ParseM Terminal := do
  let token ← current
  if token.isCloser then return token else advance

/-- Consumes a `;`. One that is missing is reported at the terminal before it. -/
def expectSemicolon : ParseM Unit := do
  let state ← get
  if state.token.id = ";" then skip else error .missingSemicolon state.previousSpan

def pushScope : ParseM Unit := do
  let state ← get
  log (.pushed state.scopes.size state.scope)
  modify fun after =>
    { after with scopes := after.scopes.push after.scope, scope := after.scopes.size }

def popScope : ParseM Unit := do
  let state ← get
  match state.scopes.pop state.scope with
  | .error .rootPopped => modify fun after => { after with rootPopped := true }
  | .ok scopes => do
      log (.popped state.scope (state.scopes.parentOf state.scope))
      modify fun after => { after with scopes, scope := state.scopes.parentOf state.scope }

def adopt (outcome : ScopeTree × Option Diagnostic) : ParseM Unit := do
  modify fun state => { state with scopes := outcome.1 }
  match outcome.2 with
  | none => pure ()
  | some diagnostic => report diagnostic

def define (terminal : Terminal) (arity : Arity) (valueType? : Option ValueType) : ParseM Unit := do
  let state ← get
  adopt <| state.scopes.define state.scope
    { id := terminal.id
      name := terminal.text
      span := terminal.span
      arity
      valueType?
      scope := state.scope }

def reserve (terminal : Terminal) : ParseM Unit := do
  let state ← get
  adopt (state.scopes.reserve state.scope terminal)

/-- Remembers a name, to be looked up again at the end. -/
def noteOccurrence (terminal : Terminal) : ParseM Unit :=
  modify fun state =>
    { state with
      occurrences := state.occurrences ++ [⟨terminal.text, terminal.span, state.scope⟩] }

def noteIfUndefined (terminal : Terminal) : ParseM Unit := do
  let found ← lookup terminal.text
  if found.isUndefined then noteOccurrence terminal else pure ()

def rounds (again : Terminal → Bool) (body : α → ParseM α) : Nat → α → ParseM α
  | 0, value => return value
  | count + 1, value => do
      let token ← current
      if !token.isEnd && again token then do
        let after ← body value
        rounds again body count after
      else
        return value

/-- Rounds of `body` as long as the lookahead satisfies `again` and is not the end of the input.
Every body consumes at least one terminal, so what remains of the input bounds the rounds. -/
def whileToken (again : Terminal → Bool) (body : α → ParseM α) (value : α) : ParseM α := do
  let state ← get
  rounds again body state.remaining value

def afterComma (item : ParseM α) (items : List α) : ParseM (List α) := do
  let _ ← expect ","
  let next ← item
  return items ++ [next]

def afterCommas (item : ParseM α) (first : α) : ParseM (List α) :=
  whileToken (·.id == ",") (afterComma item) [first]

def commaList (closing : String) (item : ParseM α) : ParseM (List α) := do
  let token ← current
  if token.id = closing then
    return []
  else do
    let first ← item
    afterCommas item first

/-- Reports the lookahead as unexpected and skips what satisfies `skipped`. -/
def recover (skipped : Terminal → Bool) : ParseM Unit := do
  let token ← current
  error (.unexpectedToken token.text) token.span
  whileToken skipped (fun _ => skip) ()

def enter : ParseM Unit := modify fun state => { state with depth := state.depth + 1 }

def leave : ParseM Unit := modify fun state => { state with depth := state.depth - 1 }

/-- Only the first construct of a document that nests too deep is reported. -/
def reportDepth : ParseM Unit := do
  let context ← read
  let state ← get
  if state.depthReported then
    pure ()
  else do
    modify fun after => { after with depthReported := true }
    error (.nestingTooDeep context.options.maxDepth) state.token.span

/-- Stands in for what would nest too deep. A terminal is skipped, so that reading goes on. -/
def refuse : ParseM Atom := do
  reportDepth
  let token ← current
  if token.isEnd then
    return token.atom .invalid
  else do
    let token ← advance
    return token.atom .invalid

end ParseM

def ParseState.start (context : Context) (tokens : List Token) : ParseState :=
  let blank : ParseState :=
    { token := { id := "(end)", text := "", span := {}, origin := none }, pending := [] }
  let (token, state) := (ParseM.terminalFrom tokens).run context blank
  { state with token }

end Adventure
