import Adventure.Proofs.Nesting

/-!
Reading ends on every input. Every loop stops by its own condition after rounds that each consume a
token, and no more constructs are inside each other than the limit on nesting allows.
-/

namespace Adventure

namespace ParseM

variable {α : Type} {context : Context} {tokens : List Token}

theorem adopt_endKnown (outcome : ScopeTree × Option Diagnostic) {state : ParseState}
    (known : EndKnown context state) : EndKnown context ((adopt outcome).run context state).2 := by
  obtain ⟨tree, diagnostic?⟩ := outcome
  cases diagnostic? with
  | none => exact known.of_eq rfl rfl
  | some diagnostic => exact known.of_eq rfl rfl

theorem popScope_endKnown {state : ParseState} (known : EndKnown context state) :
    EndKnown context (popScope.run context state).2 := by
  simp only [popScope, run_get_bind]
  cases state.scopes.pop state.scope with
  | error rejection => exact known.of_eq rfl rfl
  | ok scopes => exact known.of_eq rfl rfl

theorem elementary_endKnown {action : ParseM α} (elementary : Elementary action)
    {state : ParseState} (known : EndKnown context state) :
    EndKnown context (action.run context state).2 := by
  cases elementary with
  | advance =>
      obtain ⟨terminal, passed, pending, events, ran, _, arrival⟩ :=
        @advance_run context state
      rw [ran]
      exact arrival.endKnown
  | define | reserve => exact adopt_endKnown _ known
  | _ => exact known

theorem endKnown_graded :
    Graded context fun _ before after => EndKnown context before → EndKnown context after :=
  Stable.graded
    { refl := fun _ known => known
      trans := fun first second known => second (first known)
      step := fun elementary _ known => elementary_endKnown elementary known
      scope := fun body known => popScope_endKnown (body known) }
    fun body known => body known

theorem Reached.endKnown {state : ParseState} (reached : Reached context tokens state) :
    EndKnown context state := by
  induction reached with
  | start =>
      unfold ParseState.start
      obtain ⟨terminal, passed, pending, events, ran, _, arrival⟩ :=
        @terminalFrom_run context tokens
          { token := { id := "(end)", text := "", span := {}, origin := none }, pending := [] }
      simp only [ran]
      exact arrival.endKnown
  | step elementary _ ih => exact elementary_endKnown elementary ih
  | push _ ih => exact ih
  | pop _ ih => exact popScope_endKnown ih
  | enter _ _ ih => exact ih
  | leave _ ih => exact ih

theorem EndKnown.remaining {state : ParseState} (known : EndKnown context state)
    (ended : state.token.isEnd = true) : state.remaining = 0 := by
  obtain ⟨token, pending⟩ := known ended
  simp [ParseState.remaining, ParseState.ahead, token, pending, endTerminal, Terminal.token?]

/-- A loop that advances need not ask for the end of the input, if the terminal there does not
satisfy its condition. -/
theorem whileToken_loops_of_end {again : Terminal → Bool} {body : α → Open α}
    (built : ∀ value, Built (body value)) (room : Nat)
    (advances : Advances context again fun value => body value (expression room) (statement room))
    (stops : again (endTerminal context) = false) (value : α) {state : ParseState}
    (known : EndKnown context state) :
    Loops context again (fun value => body value (expression room) (statement room)) value state
      ((whileToken again (fun value => body value (expression room) (statement room)) value).run
        context state) := by
  refine Loops.congr (fun state (known : EndKnown context state) => ?_)
    (fun value state known => endKnown_graded.reader (built value) room state known)
    (whileToken_loops advances value state) known
  cases ended : state.token.isEnd with
  | false => rfl
  | true =>
      obtain ⟨token, _⟩ := known ended
      rw [token, stops]
      rfl

theorem operators_loops (room power : Nat) (left : Expr) {state : ParseState}
    (unbound : (endTerminal context).denotations.power = 0) (known : EndKnown context state) :
    Loops context (power < ·.denotations.power) (fold (expression room)) left state
      ((whileToken (power < ·.denotations.power) (fold (expression room)) left).run context
        state) :=
  whileToken_loops_of_end (fun left => .of_composed (.fold left)) room (fold_advances room)
    (by simp [unbound]) left known

theorem afterCommas_loops {item : Open α} (built : Built item) (room : Nat) (first : α)
    {state : ParseState} (known : EndKnown context state) :
    Loops context (·.id == ",") (afterComma (item (expression room) (statement room))) [first] state
      ((afterCommas (item (expression room) (statement room)) first).run context state) :=
  whileToken_loops_of_end (fun items => .bind (.of_composed (.expect ",")) fun _ =>
    .bind built fun next => .value (items ++ [next])) room (afterComma_advances built room) rfl [first]
    known

/-- What makes the reading of `tokens` end, whatever they are. The loops are the unbounded ones: their
conditions are the program's own, and each of their rounds consumes a token. -/
structure Ends (context : Context) (tokens : List Token) : Prop where
  /-- A reader leads from reached states to reached states, however much room is left. -/
  reader {α : Type} {reader : Open α} (built : Built reader) {room : Nat} {state : ParseState}
    (reached : Reached context tokens state) (allowed : state.depth + room ≤ context.options.maxDepth) :
    Reached context tokens ((reader (expression room) (statement room)).run context state).2
  depth {state : ParseState} (reached : Reached context tokens state) :
    state.depth ≤ context.options.maxDepth
  statement (room : Nat) {state : ParseState} (present : state.token.isEnd = false)
    (opened : state.token.id ≠ "\x7d") : Consumes state ((statement room).run context state).2
  statements (room : Nat) (state : ParseState) :
    Loops context (fun token => !token.isEnd && token.id != "\x7d")
      (anotherStatement (ParseM.statement room)) [] state
      ((statementsUntilBrace (ParseM.statement room)).run context state)
  document (room : Nat) (first : List Stmt) (state : ParseState) :
    Loops context (!·.isEnd) (afterStrayBrace (ParseM.statement room)) first state
      ((whileToken (fun _ => true) (afterStrayBrace (ParseM.statement room)) first).run context
        state)
  recovery (skipped : Terminal → Bool) (state : ParseState) :
    Loops context (fun token => !token.isEnd && skipped token) (fun _ => skip) () state
      ((whileToken skipped (fun _ => skip) ()).run context state)
  operators (room power : Nat) (left : Expr) {state : ParseState}
    (reached : Reached context tokens state) :
    Loops context (power < ·.denotations.power) (fold (expression room)) left state
      ((whileToken (power < ·.denotations.power) (fold (expression room)) left).run context state)
  arguments (room : Nat) (first : Expr) {state : ParseState}
    (reached : Reached context tokens state) :
    Loops context (·.id == ",") (afterComma (expression room Power.none)) [first] state
      ((afterCommas (expression room Power.none) first).run context state)
  parameters (first : Parameter) {state : ParseState} (reached : Reached context tokens state) :
    Loops context (·.id == ",") (afterComma parameter) [first] state
      ((afterCommas parameter first).run context state)
  declarators (room : Nat) (valueType : ValueType) (first : Declarator) {state : ParseState}
    (reached : Reached context tokens state) :
    Loops context (·.id == ",") (afterComma (nextDeclarator (expression room) valueType)) [first]
      state ((afterCommas (nextDeclarator (expression room) valueType) first).run context state)

theorem ends (unbound : (endTerminal context).denotations.power = 0) : Ends context tokens where
  reader built _ state reached allowed :=
    (reached_graded.reader built _ state reached allowed).1
  depth reached := reached.depth_le
  statement room _ present opened := statement_consumes room present opened
  statements room state := whileToken_loops (anotherStatement_advances room) [] state
  document room first state := by
    have advances : Advances context (fun _ => true)
        (afterStrayBrace (ParseM.statement room)) := afterStrayBrace_advances room
    simpa only [Bool.and_true] using whileToken_loops advances first state
  recovery _ state := whileToken_loops skip_advances () state
  operators room power left _ reached := operators_loops room power left unbound reached.endKnown
  arguments room first _ reached := afterCommas_loops (.inner _) room first reached.endKnown
  parameters first _ reached := afterCommas_loops (.of_composed .parameter) 0 first reached.endKnown
  declarators room valueType first _ reached :=
    afterCommas_loops (.of_composed (.nextDeclarator valueType)) room first reached.endKnown

theorem statements_token_isEnd (room : Nat) (state : ParseState) :
    ((statements (statement room)).run context state).2.token.isEnd = true := by
  have advances : Advances context (fun _ => true) (afterStrayBrace (statement room)) :=
    afterStrayBrace_advances room
  unfold statements
  rw [run_bind]
  rcases whileToken_stopped advances _ _ with ended | unmet
  · exact ended
  · simp at unmet

end ParseM

namespace Document

open ParseM

variable {grammar : Grammar} {options : Options} {source : String}

theorem run_reached :
    Reached (context grammar options source) (tokens source) (run grammar options source).2 := by
  have allowed : (start grammar options source).depth + options.maxDepth ≤ options.maxDepth := by
    have depth : (start grammar options source).depth = 0 := start_depth
    omega
  have final := (@reached_graded (context grammar options source) (tokens source)).reader
    Built.statements options.maxDepth (start grammar options source) .start allowed
  exact final.1

theorem run_token_isEnd : (run grammar options source).2.token.isEnd = true :=
  statements_token_isEnd options.maxDepth _

/-- Reading ends on every source, for every limit on nesting and every grammar in which the end of
the input binds nothing. It is the reading that compares the depth with the limit at each statement
and each expression, in which no more of them are ever inside each other than the limit allows. -/
theorem run_ends (grammar : Grammar) (options : Options) (source : String)
    (unbound : ∀ symbol, grammar.get? "(end)" = some symbol → symbol.denotations.power = 0) :
    Ends (context grammar options source) (tokens source) ∧
      (∀ deeper deeperStatement levels, options.maxDepth < levels →
        (ParseM.statements (limitedStatement deeper deeperStatement levels)).run
          (context grammar options source) (start grammar options source) =
            run grammar options source) ∧
      (run grammar options source).2.remaining = 0 := by
  have power : (endTerminal (context grammar options source)).denotations.power = 0 := by
    unfold endTerminal context
    cases found : grammar.get? "(end)" with
    | none => rfl
    | some symbol => exact unbound symbol found
  refine ⟨ends power, ?_, ?_⟩
  · intro deeper deeperStatement levels enough
    have depth : (start grammar options source).depth = 0 := start_depth
    have same : SameAt (context grammar options source) 0 (statement options.maxDepth)
        (limitedStatement deeper deeperStatement levels) :=
      limitedStatement_sameAt deeper deeperStatement levels options.maxDepth 0 (Nat.zero_add _)
        enough
    have unread (power : Nat) : SameAt (context grammar options source) 0
        (return default : ParseM Expr) (return default) := sameAt_of_keeps fun _ => rfl
    exact (Built.statements.sameAt unread same _ depth).1
  · exact run_reached.endKnown.remaining run_token_isEnd

theorem run_ends_unmatched :
    (∀ symbol, Grammar.standard.get? "(end)" = some symbol → symbol.denotations.power = 0) ∧
      (run Grammar.standard { Options.default with maxDepth := 1 } "x \x7d = ) , (").2.remaining = 0 := by
  have unbound : ∀ symbol, Grammar.standard.get? "(end)" = some symbol →
      symbol.denotations.power = 0 := by decide
  exact ⟨unbound, (run_ends Grammar.standard _ _ unbound).2.2⟩

end Document

end Adventure
