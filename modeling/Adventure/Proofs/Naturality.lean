import Adventure.Proofs.Placement
import Adventure.Proofs.Progress
import Adventure.Proofs.Reading

/-!
Naturality. Two readings of the same terminals that stand at other places go the same way: whatever is
read in one is read in the other with its spans replaced, and the states keep corresponding. Tokens that
are no terminals may be missing from the second reading.
-/

namespace Adventure

structure Context.Mirrors (place : Span → Span) (here there : Context) : Prop where
  grammar : there.grammar = here.grammar
  options : there.options = here.options
  finish : Span.at there.finish = place (Span.at here.finish)

/-- A state like another one in everything but the places, the trivia, and what these leave behind. -/
structure ParseState.Mirrors (place : Span → Span) (here there : ParseState) : Prop where
  token : there.token = respan place here.token
  pending : there.pending = respan place (here.pending.filter Token.isSignificant)
  previousSpan : there.previousSpan = place here.previousSpan
  scopes : there.scopes = respan place here.scopes
  scope : there.scope = here.scope
  diagnostics : there.diagnostics = respan place here.diagnostics
  occurrences : there.occurrences = respan place here.occurrences
  depth : there.depth = here.depth
  depthReported : there.depthReported = here.depthReported
  rootPopped : there.rootPopped = here.rootPopped

namespace ParseM

variable {place : Span → Span} {α β : Type} [Spanned α] [Spanned β]

/-- From corresponding states the second reader makes what the first one makes, at the other places, and
leads to corresponding states again. -/
def Natural (place : Span → Span) (action image : ParseM α) : Prop :=
  ∀ (here there : Context) (before after : ParseState), here.Mirrors place there →
    before.Mirrors place after →
      (image.run there after).1 = respan place (action.run here before).1 ∧
        (action.run here before).2.Mirrors place (image.run there after).2

theorem endTerminal_respan {here there : Context} (contexts : here.Mirrors place there) :
    endTerminal there = respan place (endTerminal here) := by
  unfold endTerminal
  rw [contexts.grammar, contexts.finish]
  rfl

theorem terminalFrom_trivial {context : Context} {token : Token}
    (trivial : token.isSignificant = false) (others : List Token) (state : ParseState) :
    ∃ imports events, (terminalFrom (token :: others)).run context state =
      (terminalFrom others).run context { state with imports, events } := by
  let logged := { state with events := (state.events.push (.lexed token)).push (.advanced token) }
  obtain ⟨events, absorbed⟩ := @absorb_run context token logged
  rw [meaning?_of_trivial trivial, complaints_of_trivial trivial, List.append_nil] at absorbed
  refine ⟨state.imports ++ token.includeTarget.toList, events, ?_⟩
  simp only [terminalFrom, run_bind, run_log]
  rw [absorbed]

namespace Natural

/-! How naturality composes. -/

theorem pure {value image : α} (same : image = respan place value) :
    Natural place (Pure.pure value) (Pure.pure image) :=
  fun _ _ _ _ _ mirrors => ⟨same, mirrors⟩

theorem bind {action image : ParseM α} {next nextImage : α → ParseM β}
    (first : Natural place action image)
    (others : ∀ value, Natural place (next value) (nextImage (respan place value))) :
    Natural place (action >>= next) (image >>= nextImage) := by
  intro here there before after contexts mirrors
  obtain ⟨value, middle⟩ := first here there before after contexts mirrors
  rw [run_bind, run_bind, value]
  exact others _ here there _ _ contexts middle

theorem ite {condition : Prop} [Decidable condition] {yes no yesImage noImage : ParseM α}
    (holds : Natural place yes yesImage) (fails : Natural place no noImage) :
    Natural place (if condition then yes else no) (if condition then yesImage else noImage) := by
  split
  · exact holds
  · exact fails

theorem ofContext {next nextImage : Context → ParseM α}
    (same : ∀ here there : Context, here.Mirrors place there →
      Natural place (next here) (nextImage there)) :
    Natural place (read >>= next) (read >>= nextImage) :=
  fun here there before after contexts => same here there contexts here there before after contexts

theorem ofState {next nextImage : ParseState → ParseM α}
    (same : ∀ before after : ParseState, before.Mirrors place after →
      Natural place (next before) (nextImage after)) :
    Natural place (get >>= next) (get >>= nextImage) :=
  fun here there before after contexts mirrors =>
    same before after mirrors here there before after contexts mirrors

theorem change {change image : ParseState → ParseState}
    (same : ∀ before after : ParseState, before.Mirrors place after →
      (change before).Mirrors place (image after)) :
    Natural place (modify change) (modify image) :=
  fun _ _ before after _ mirrors => ⟨rfl, same before after mirrors⟩

/-! The small steps. -/

theorem current : Natural place current current :=
  fun _ _ _ _ _ mirrors => ⟨mirrors.token, mirrors⟩

theorem lastSpan : Natural place lastSpan lastSpan :=
  fun _ _ _ _ _ mirrors => ⟨mirrors.previousSpan, mirrors⟩

theorem log (event image : Event) : Natural place (log event) (log image) :=
  change fun _ _ mirrors => { mirrors with }

theorem report (diagnostic : Diagnostic) :
    Natural place (report diagnostic) (report (respan place diagnostic)) :=
  change fun _ _ mirrors =>
    { mirrors with
      diagnostics := by simp [mirrors.diagnostics, Diagnostics.push] }

theorem error (problem : Problem) (span : Span) :
    Natural place (error problem span) (error problem (place span)) :=
  report ⟨problem, span, .error⟩

theorem warning (problem : Problem) (span : Span) :
    Natural place (warning problem span) (warning problem (place span)) :=
  report ⟨problem, span, .warning⟩

theorem errorUnless (met : Bool) (problem : Problem) (span : Span) :
    Natural place (errorUnless met problem span) (errorUnless met problem (place span)) :=
  ite (pure rfl) (error problem span)

theorem warningUnless (met : Bool) (problem : Problem) (span : Span) :
    Natural place (warningUnless met problem span) (warningUnless met problem (place span)) :=
  ite (pure rfl) (warning problem span)

theorem lookup (name : String) : Natural place (lookup name) (lookup name) :=
  ofContext fun _ _ contexts => ofState fun _ _ mirrors => pure <| by
    rw [contexts.grammar, mirrors.scopes, mirrors.scope, ScopeTree.find_respan]

theorem adopt (outcome : ScopeTree × Option Diagnostic) :
    Natural place (adopt outcome) (adopt (respan place outcome)) := by
  obtain ⟨tree, diagnostic?⟩ := outcome
  refine bind (change fun _ _ mirrors => { mirrors with scopes := rfl }) fun _ => ?_
  cases diagnostic? with
  | none => exact pure rfl
  | some diagnostic => exact report diagnostic

theorem define (terminal : Terminal) (arity : Arity) (valueType? : Option ValueType) :
    Natural place (define terminal arity valueType?)
      (define (respan place terminal) arity valueType?) := by
  refine ofState fun before after mirrors => ?_
  have outcome : after.scopes.define after.scope
      (declared (respan place terminal) arity valueType? after.scope) =
        respan place (before.scopes.define before.scope
          (declared terminal arity valueType? before.scope)) := by
    rw [mirrors.scopes, mirrors.scope]
    exact ScopeTree.define_respan place _ _ (declared terminal arity valueType? before.scope)
  have adopted : Natural place (ParseM.adopt (before.scopes.define before.scope
      (declared terminal arity valueType? before.scope))) (ParseM.adopt _) := adopt _
  rw [← outcome] at adopted
  exact adopted

theorem reserve (terminal : Terminal) :
    Natural place (reserve terminal) (reserve (respan place terminal)) := by
  refine ofState fun before after mirrors => ?_
  rw [mirrors.scopes, mirrors.scope, ScopeTree.reserve_respan]
  exact adopt _

theorem noteOccurrence (terminal : Terminal) :
    Natural place (noteOccurrence terminal) (noteOccurrence (respan place terminal)) :=
  change fun _ _ mirrors =>
    { mirrors with
      occurrences := by
        simp only [mirrors.occurrences, mirrors.scope, Spanned.respan_append]
        rfl }

theorem noteIfUndefined (terminal : Terminal) :
    Natural place (noteIfUndefined terminal) (noteIfUndefined (respan place terminal)) := by
  refine bind (lookup terminal.text) fun found => ?_
  rw [Lookup.isUndefined_respan]
  exact ite (noteOccurrence terminal) (pure rfl)

theorem pushScope : Natural place pushScope pushScope :=
  ofState fun _ _ _ => bind (log _ _) fun _ => change fun _ _ mirrors =>
    { mirrors with
      scopes := by simp [mirrors.scopes, mirrors.scope]
      scope := by simp [mirrors.scopes] }

theorem popScope : Natural place popScope popScope := by
  refine ofState fun before after mirrors => ?_
  rw [mirrors.scopes, mirrors.scope, ScopeTree.parentOf_respan]
  unfold ScopeTree.pop
  by_cases root : before.scope = 0
  · simp only [root, if_true]
    exact change fun _ _ mirrors => { mirrors with rootPopped := rfl }
  · simp only [root, if_false]
    exact bind (log _ _) fun _ => change fun _ _ mirrors =>
      { mirrors with
        scopes := rfl
        scope := rfl }

theorem enter : Natural place enter enter :=
  change fun _ _ mirrors => { mirrors with depth := congrArg (· + 1) mirrors.depth }

theorem leave : Natural place leave leave :=
  change fun _ _ mirrors => { mirrors with depth := congrArg (· - 1) mirrors.depth }

/-! The lookahead moves on. -/

theorem absorb {token : Token} (significant : token.isSignificant = true) :
    Natural place (absorb token) (absorb (respan place token)) := by
  obtain ⟨kind, text, span⟩ := token
  refine ofContext fun here there contexts => ?_
  cases kind with
  | comment | whitespace | directive => simp [Token.isSignificant, TokenKind.isTrivia] at significant
  | invalid => exact bind (error (.invalidCharacter text) span) fun _ => pure rfl
  | name =>
      refine bind (lookup text) fun found => pure ?_
      exact congrArg some (Lookup.terminal_respan place found ⟨.name, text, span⟩)
  | operator =>
      have same : (respan place (⟨.operator, text, span⟩ : Token)).text = text := rfl
      dsimp only
      rw [contexts.grammar, same]
      cases here.grammar.get? text with
      | some symbol => exact pure rfl
      | none => exact bind (error (.unknownOperator text) span) fun _ => pure rfl
  | integer =>
      rw [contexts.grammar]
      exact pure rfl
  | string =>
      rw [contexts.grammar]
      exact bind (errorUnless (Token.isClosedString ⟨.string, text, span⟩) .unterminatedString span)
        fun _ => pure rfl

theorem terminalFrom (tokens : List Token) :
    Natural place (terminalFrom tokens)
      (terminalFrom (respan place (tokens.filter Token.isSignificant))) := by
  induction tokens with
  | nil =>
      refine ofContext fun here there contexts => bind (change fun _ _ mirrors => ?_) fun _ => pure ?_
      · exact { mirrors with pending := rfl }
      · exact endTerminal_respan contexts
  | cons token others ih =>
      cases significant : token.isSignificant with
      | true =>
          rw [List.filter_cons_of_pos significant]
          refine bind (log _ _) fun _ => bind (log _ _) fun _ => bind (absorb significant) fun found => ?_
          cases found with
          | none => exact ih
          | some terminal =>
              exact bind (change fun _ _ mirrors => { mirrors with pending := rfl }) fun _ => pure rfl
      | false =>
          -- Trivia passes by in the first reading only.
          rw [List.filter_cons_of_neg (by simp [significant])]
          intro here there before after contexts mirrors
          obtain ⟨imports, events, passed⟩ :=
            @terminalFrom_trivial here token significant others before
          rw [passed]
          exact ih here there _ after contexts { mirrors with }

theorem advance : Natural place advance advance := by
  refine ofState fun before after mirrors => ?_
  rw [mirrors.pending, mirrors.token]
  exact bind (terminalFrom before.pending) fun next =>
    bind (change fun _ _ mirrors => { mirrors with token := rfl, previousSpan := rfl }) fun _ => pure rfl

theorem skip : Natural place skip skip := bind advance fun _ => pure rfl

theorem expect (id : String) : Natural place (expect id) (expect id) :=
  bind current fun token => bind (errorUnless (token.id == id) _ _) fun _ => advance

theorem advanceUnlessCloser : Natural place advanceUnlessCloser advanceUnlessCloser :=
  bind current fun _ => ite (pure rfl) advance

theorem expectSemicolon : Natural place expectSemicolon expectSemicolon := by
  rw [expectSemicolon_eq]
  exact bind current fun _ => ite skip (bind lastSpan fun span => error _ span)

theorem reportDepth : Natural place reportDepth reportDepth := by
  refine ofContext fun here there contexts => ofState fun before after mirrors => ?_
  rw [contexts.options, mirrors.depthReported, mirrors.token]
  exact ite (pure rfl) (bind (change fun _ _ mirrors => { mirrors with depthReported := rfl }) fun _ =>
    error _ _)

theorem refuse : Natural place refuse refuse :=
  bind reportDepth fun _ => bind current fun _ =>
    ite (pure rfl) (bind advance fun _ => pure rfl)

/-! Loops. Trivia makes the bounds on their rounds differ, so the unbounded loops are compared. -/

section

variable {again : Terminal → Bool} {body : α → ParseM α}

theorem loops (same : ∀ token, again (respan place token) = again token)
    (round : ∀ value, Natural place (body value) (body (respan place value)))
    {here there : Context} (contexts : here.Mirrors place there) (advances : Advances there again body)
    {value : α} {before after : ParseState} {last : α × ParseState}
    (ran : Loops here (fun token => !token.isEnd && again token) body value before last)
    (mirrors : before.Mirrors place after) :
    ∃ state, Loops there (fun token => !token.isEnd && again token) body (respan place value) after
        (respan place last.1, state) ∧ last.2.Mirrors place state := by
  have unchanged {before after : ParseState} (mirrors : before.Mirrors place after) :
      (!after.token.isEnd && again after.token) = (!before.token.isEnd && again before.token) := by
    rw [mirrors.token, same]
    rfl
  induction ran generalizing after with
  | stop past => exact ⟨after, .stop ((unchanged mirrors).trans past), mirrors⟩
  | @round value before last holds _ _ ih =>
      obtain ⟨made, onward⟩ := round value here there before after contexts mirrors
      obtain ⟨state, others, final⟩ := ih onward
      have goesOn := (unchanged mirrors).trans holds
      have present : after.token.isEnd = false ∧ again after.token = true := by simpa using goesOn
      rw [← made] at others
      exact ⟨state, .round goesOn (advances _ after present.1 present.2) others, final⟩

theorem whileToken (same : ∀ token, again (respan place token) = again token)
    (round : ∀ value, Natural place (body value) (body (respan place value)))
    (advances : ∀ context, Advances context again body) (value : α) :
    Natural place (whileToken again body value) (whileToken again body (respan place value)) := by
  intro here there before after contexts mirrors
  obtain ⟨state, ran, final⟩ := loops same round contexts (advances there)
    (whileToken_loops (advances here) value before) mirrors
  rw [(whileToken_loops (advances there) (respan place value) after).unique ran]
  exact ⟨rfl, final⟩

end

theorem afterComma {item : ParseM α} (natural : Natural place item item) (items : List α) :
    Natural place (afterComma item items) (afterComma item (respan place items)) :=
  bind (expect ",") fun _ => bind natural fun next => pure (Spanned.respan_append place items [next]).symm

theorem afterCommas {item : ParseM α} (natural : Natural place item item)
    (advances : ∀ context, Advances context (·.id == ",") (ParseM.afterComma item)) (first : α) :
    Natural place (afterCommas item first) (afterCommas item (respan place first)) :=
  whileToken (fun _ => rfl) (afterComma natural) advances [first]

theorem commaList (closing : String) {item : ParseM α} (natural : Natural place item item)
    (advances : ∀ context, Advances context (·.id == ",") (ParseM.afterComma item)) :
    Natural place (commaList closing item) (commaList closing item) :=
  bind current fun _ => ite (pure rfl) (bind natural fun first => afterCommas natural advances first)

theorem recover {skipped : Terminal → Bool}
    (same : ∀ token, skipped (respan place token) = skipped token) :
    Natural place (recover skipped) (recover skipped) :=
  bind current fun token => bind (error (.unexpectedToken token.text) token.span) fun _ =>
    whileToken same (fun _ => skip) (fun _ => skip_advances) ()

/-! Expressions, where those inside are natural. -/

section

variable {room : Nat} (inner : ∀ power, Natural place (expression room power) (expression room power))

include inner

theorem operandForm (terminal : Terminal) (form : OperandForm) :
    Natural place (operandForm (expression room) terminal form)
      (operandForm (expression room) (respan place terminal) form) := by
  cases form with
  | itself | literal => exact pure rfl
  | undefinedName => exact bind (noteOccurrence terminal) fun _ => pure rfl
  | constant | thisObject | superObject => exact bind (reserve terminal) fun _ => pure rfl
  | unaryOperator => exact bind (reserve terminal) fun _ => bind (inner _) fun _ => pure rfl
  | group =>
      exact bind (inner _) fun value => bind (expect _) fun _ =>
        pure (Expr.parenthesize_respan place value)

theorem operand : Natural place (operand (expression room)) (operand (expression room)) := by
  refine bind current fun token => ?_
  rw [Terminal.denotations_respan]
  cases token.denotations.operand? with
  | some form => exact bind advance fun terminal => operandForm inner terminal form
  | none => exact bind (error _ _) fun _ => bind advanceUnlessCloser fun _ => pure rfl

omit inner in
theorem property : Natural place property property :=
  bind current fun _ => ite (bind advance fun _ => pure rfl)
    (bind (error _ _) fun _ => bind advanceUnlessCloser fun _ => pure rfl)

theorem arguments : Natural place (arguments (expression room)) (arguments (expression room)) :=
  bind (commaList _ (inner _) fun _ => afterComma_advances (.inner Power.none) room) fun _ =>
    bind (expect _) fun _ => pure rfl

omit inner in
theorem checkLeftValue (value : Expr) :
    Natural place (checkLeftValue value) (checkLeftValue (respan place value)) := by
  unfold ParseM.checkLeftValue
  rw [Expr.isLeftValue_respan, Expr.head_respan]
  exact errorUnless _ _ _

omit inner in
theorem checkCallee (call callee : Expr) :
    Natural place (checkCallee call callee)
      (checkCallee (respan place call) (respan place callee)) := by
  cases call with
  | call =>
      unfold ParseM.checkCallee
      rw [Expr.isCallable_respan, Expr.head_respan]
      exact errorUnless _ _ _
  | _ => exact pure rfl

theorem callOf (terminal : Terminal) (callee : Expr) :
    Natural place (callOf (expression room) terminal callee)
      (callOf (expression room) (respan place terminal) (respan place callee)) := by
  refine bind (arguments inner) fun values => ?_
  have made := Expr.calling_respan place terminal.head callee values
  have checked : Natural place _ (ParseM.checkCallee _ (respan place callee)) :=
    checkCallee (callee.calling terminal.head values) callee
  rw [← made] at checked
  exact bind checked fun _ => pure made

theorem operatorForm (terminal : Terminal) (left : Expr) (form : OperatorForm) :
    Natural place (operatorForm (expression room) terminal left form)
      (operatorForm (expression room) (respan place terminal) (respan place left) form) := by
  cases form with
  | leftAssociative | rightAssociative => exact bind (inner _) fun _ => pure rfl
  | assignment => exact bind (checkLeftValue left) fun _ => bind (inner _) fun _ => pure rfl
  | step => exact bind (checkLeftValue left) fun _ => pure rfl
  | ternary =>
      exact bind (inner _) fun _ => bind (expect _) fun _ => bind (inner _) fun _ => pure rfl
  | member => exact bind property fun _ => pure rfl
  | index => exact bind (inner _) fun _ => bind (expect _) fun _ => pure rfl
  | call => exact callOf inner terminal left

theorem fold (left : Expr) :
    Natural place (fold (expression room) left) (fold (expression room) (respan place left)) := by
  refine bind advance fun terminal => ?_
  rw [Terminal.denotations_respan]
  cases terminal.denotations.operator? with
  | some form => exact operatorForm inner terminal left form
  | none => exact bind (error _ _) fun _ => pure rfl

end

theorem expression (room power : Nat) :
    Natural place (expression room power) (expression room power) := by
  induction room generalizing power with
  | zero => exact bind refuse fun _ => pure rfl
  | succ room inner =>
      exact bind enter fun _ => bind (operand inner) fun left =>
        bind (whileToken (fun _ => rfl) (fold inner) (fun _ => fold_advances room) left) fun _ =>
          bind leave fun _ => pure rfl

end Natural

end ParseM

end Adventure
