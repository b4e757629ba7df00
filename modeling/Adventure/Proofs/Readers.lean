import Adventure.Parse.Statement

/-!
How readers are put together. A reader is built from elementary ones by sequencing, by opening a
scope around a part of it, and by calls of the two readers that it is given for what stands inside.
A fact about all readers is proved from this once, by induction on how a reader is built.
-/

namespace Adventure

/-- The problems that readers find by themselves. Those of single tokens, of bindings, of names and
of nesting are found elsewhere. -/
def Problem.isOrdinary : Problem → Bool
  | .alreadyDefined | .alreadyReserved | .unknownOperator _ | .invalidCharacter _
  | .unterminatedString | .nestingTooDeep _ | .undefined _ => false
  | _ => true

def Event.advanced? : Event → Option Token
  | .advanced token => some token
  | _ => none

namespace ParseM

/-- A reader that reads the expressions and the statements inside it through two others. -/
abbrev Open (α : Type) : Type := (Nat → ParseM Expr) → ParseM (Option Stmt) → ParseM α

def inScope {α : Type} (body : ParseM α) : ParseM α := do
  pushScope
  let value ← body
  popScope
  return value

def markDepth : ParseM Unit := modify fun state => { state with depthReported := true }

inductive Elementary : {α : Type} → ParseM α → Prop
  | get : Elementary (get : ParseM ParseState)
  | read : Elementary (read : ParseM Context)
  | log (event : Event) : Elementary (log event)
  | report (diagnostic : Diagnostic) : Elementary (report diagnostic)
  | advance : Elementary advance
  | define (terminal : Terminal) (arity : Arity) (valueType? : Option ValueType) :
      Elementary (define terminal arity valueType?)
  | reserve (terminal : Terminal) : Elementary (reserve terminal)
  | noteOccurrence (terminal : Terminal) : Elementary (noteOccurrence terminal)
  | markDepth : Elementary markDepth

/-- Readers that are built from elementary ones. The depth of nesting is not among what they
change: only expressions and statements count as nested, and readers call them from outside. -/
inductive Built : {α : Type} → Open α → Prop
  | value {α : Type} (value : α) : Built fun _ _ => pure value
  | bind {α β : Type} {first : Open α} {next : α → Open β} :
      Built first → (∀ value, Built (next value)) →
        Built fun inner nested => first inner nested >>= fun value => next value inner nested
  | inner (power : Nat) : Built fun inner _ => inner power
  | nested : Built fun _ nested => nested
  | step {α : Type} {action : ParseM α} : Elementary action → Built fun _ _ => action
  | inScope {α : Type} {body : Open α} : Built body → Built fun inner nested =>
      inScope (body inner nested)

namespace Built

theorem ite {α : Type} {condition : Prop} [Decidable condition] {yes no : Open α}
    (builtYes : Built yes) (builtNo : Built no) :
    Built fun inner nested => if condition then yes inner nested else no inner nested := by
  by_cases holds : condition
  · simpa only [holds, if_true] using builtYes
  · simpa only [holds, if_false] using builtNo

theorem current : Built fun _ _ => current := by
  unfold ParseM.current
  exact .bind (.step .get) fun _ => .value _

theorem error (problem : Problem) (span : Span) : Built fun _ _ => error problem span :=
  .step (.report _)

theorem rounds {α : Type} (again : Terminal → Bool) {body : α → Open α}
    (built : ∀ value, Built (body value)) (count : Nat) (value : α) :
    Built fun inner nested => rounds again (fun value => body value inner nested) count value := by
  induction count generalizing value with
  | zero =>
      unfold ParseM.rounds
      exact .value value
  | succ count ih =>
      unfold ParseM.rounds
      exact .bind current fun _ => .ite (.bind (built value) fun after => ih after) (.value value)

theorem whileToken {α : Type} (again : Terminal → Bool) {body : α → Open α}
    (built : ∀ value, Built (body value)) (value : α) :
    Built fun inner nested => whileToken again (fun value => body value inner nested) value := by
  unfold ParseM.whileToken
  exact .bind (.step .get) fun state => rounds again built state.remaining value

theorem refuse : Built fun _ _ => refuse := by
  unfold ParseM.refuse reportDepth
  refine .bind (.bind (.step .read) fun _ => .bind (.step .get) fun _ => .ite (.value _) ?_)
    fun _ => ?_
  · exact .bind (.step .markDepth) fun _ => error _ _
  · exact .bind current fun _ => .ite (.value _) (.bind (.step .advance) fun _ => .value _)

end Built

/-! Most readers are composed of larger steps, which keep to the order of the tokens: what is noted
is noted when it is consumed, and a scope is closed only where a block or a function ends. -/

def lastSpan : ParseM Span := do
  let state ← get
  return state.previousSpan

def remaining : ParseM Nat := do
  let state ← get
  return state.remaining

def takeAction : ParseM Atom := do
  checkAction
  takeAtom

def takeKeyword : ParseM Terminal := do
  let terminal ← advance
  log (.statement terminal.id terminal.span.start)
  reserve terminal
  return terminal

theorem formedStatement_eq (inner : Nat → ParseM Expr) (nested : ParseM (Option Stmt))
    (form : StatementForm) :
    formedStatement inner nested form = (do
      let terminal ← takeKeyword
      statementForm inner nested terminal form) := rfl

/-- Steps that consume nothing. What they bind satisfies `known`. -/
inductive Plain (known : Terminal → Prop) : {α : Type} → ParseM α → Prop
  | lastSpan : Plain known lastSpan
  | remaining : Plain known remaining
  | lookup (name : String) : Plain known (lookup name)
  | log {event : Event} (other : event.advanced? = none) : Plain known (log event)
  | report {diagnostic : Diagnostic} (ordinary : diagnostic.problem.isOrdinary = true) :
      Plain known (report diagnostic)
  | define {terminal : Terminal} (holds : known terminal) (arity : Arity)
      (valueType? : Option ValueType) : Plain known (define terminal arity valueType?)
  | reserve {terminal : Terminal} (holds : known terminal) : Plain known (reserve terminal)

theorem blockBody_eq (nested : ParseM (Option Stmt)) :
    blockBody nested = (do
      let body ← inScope (statementsUntilBrace nested)
      let _ ← expect "\x7d"
      return body) := rfl

def functionScope (nested : ParseM (Option Stmt)) : ParseM (List Parameter × Option (List Stmt)) := do
  let parameters ← commaList ")" parameter
  let _ ← expect ")"
  let opened ← atBrace
  if opened then do
    skip
    let body ← statementsUntilBrace nested
    return (parameters, some body)
  else
    return (parameters, none)

def closeBody : Option (List Stmt) → ParseM (List Stmt)
  | some body => do
      let _ ← expect "\x7d"
      return body
  | none => return []

/-- Whether it has a body or not, a function closes its scope just once, at the same place. -/
theorem function_eq (nested : ParseM (Option Stmt)) (name : Terminal) (returnType : ValueType) :
    function nested name returnType = (do
      functionName name returnType
      let _ ← expect "("
      let read ← inScope (functionScope nested)
      let body ← closeBody read.2
      return .function name.head returnType read.1 body) := by
  simp only [function, functionBody, inScope, functionScope, bind_assoc]
  refine bind_congr fun _ => bind_congr fun _ => bind_congr fun _ => bind_congr fun parameters =>
    bind_congr fun _ => bind_congr fun opened => ?_
  cases opened with
  | false => simp [closeBody]
  | true => simp [closeBody]

theorem expectSemicolon_eq : expectSemicolon = (do
    let token ← current
    if token.id = ";" then skip
    else do
      let span ← lastSpan
      error .missingSemicolon span) := by
  funext context state
  change (if state.token.id = ";" then skip else error .missingSemicolon state.previousSpan)
      context state =
    (if state.token.id = ";" then skip
      else lastSpan >>= fun span => error .missingSemicolon span) context state
  split <;> rfl

/-- What stands in a scope of its own: the statements of a block, or the rest of a function. -/
inductive Closable : {α : Type} → Open α → Prop
  | statements : Closable fun _ nested => statementsUntilBrace nested
  | function : Closable fun _ nested => functionScope nested

/-- Readers composed of these steps, where `seen` is the lookahead if it is known. Terminals that come
from the lookahead satisfy `known`. -/
inductive Composed (known : Terminal → Prop) : Option Terminal → {α : Type} → Open α → Prop
  | value {seen : Option Terminal} {α : Type} (value : α) :
      Composed known seen fun _ _ => pure value
  | bind {seen : Option Terminal} {α β : Type} {first : Open α} {next : α → Open β} :
      Composed known seen first → (∀ value, Composed known none (next value)) →
        Composed known seen fun inner nested =>
          first inner nested >>= fun value => next value inner nested
  | look {seen : Option Terminal} {α : Type} {next : Terminal → Open α} :
      (∀ token, known token → Composed known (some token) (next token)) →
        Composed known seen fun inner nested => current >>= fun token => next token inner nested
  | take {seen : Option Terminal} {α : Type} {next : Terminal → Open α} :
      (∀ terminal, known terminal → Composed known none (next terminal)) →
        Composed known seen fun inner nested =>
          advance >>= fun terminal => next terminal inner nested
  | takeNoted {token : Terminal} {α : Type} {next : Terminal → Open α}
      (named : token.isName = true ∨ token.denotations.operand? = some .undefinedName) :
      (∀ terminal, known terminal → Composed known none (next terminal)) →
        Composed known (some token) fun inner nested =>
          advance >>= fun terminal => noteOccurrence terminal >>= fun _ => next terminal inner nested
  | takeAction {seen : Option Terminal} : Composed known seen fun _ _ => takeAction
  | step {seen : Option Terminal} {α : Type} {action : ParseM α} :
      Plain known action → Composed known seen fun _ _ => action
  | inner {seen : Option Terminal} (power : Nat) : Composed known seen fun inner _ => inner power
  | nested {seen : Option Terminal} : Composed known seen fun _ nested => nested
  | inScope {seen : Option Terminal} {α : Type} {body : Open α} (closable : Closable body) :
      Composed known none body →
        Composed known seen fun inner nested => inScope (body inner nested)

namespace Composed

variable {known : Terminal → Prop} {seen : Option Terminal}

theorem advance : Composed known seen fun _ _ => advance := by
  have taken : Composed known seen fun _ _ => ParseM.advance >>= fun terminal => pure terminal :=
    .take fun terminal _ => .value terminal
  simpa only [bind_pure] using taken

theorem skip : Composed known seen fun _ _ => skip := by
  unfold ParseM.skip
  exact .take fun _ _ => .value ()

theorem error {problem : Problem} (ordinary : problem.isOrdinary = true) (span : Span) :
    Composed known seen fun _ _ => error problem span :=
  .step (.report ordinary)

theorem warning {problem : Problem} (ordinary : problem.isOrdinary = true) (span : Span) :
    Composed known seen fun _ _ => warning problem span :=
  .step (.report ordinary)

theorem errorUnless (met : Bool) {problem : Problem} (ordinary : problem.isOrdinary = true)
    (span : Span) : Composed known seen fun _ _ => errorUnless met problem span := by
  unfold ParseM.errorUnless
  cases met
  · exact error ordinary span
  · exact .value ()

theorem warningUnless (met : Bool) {problem : Problem} (ordinary : problem.isOrdinary = true)
    (span : Span) : Composed known seen fun _ _ => warningUnless met problem span := by
  unfold ParseM.warningUnless
  cases met
  · exact warning ordinary span
  · exact .value ()

theorem expect (id : String) : Composed known seen fun _ _ => expect id := by
  unfold ParseM.expect
  exact .look fun _ _ => .bind (errorUnless _ rfl _) fun _ => advance

theorem ite {α : Type} {condition : Prop} [Decidable condition] {yes no : Open α}
    (composedYes : condition → Composed known seen yes)
    (composedNo : ¬condition → Composed known seen no) :
    Composed known seen fun inner nested =>
      if condition then yes inner nested else no inner nested := by
  by_cases holds : condition
  · simpa only [holds, if_true] using composedYes holds
  · simpa only [holds, if_false] using composedNo holds

theorem weaken {old : Option Terminal} {α : Type} {reader : Open α}
    (composed : Composed known old reader) (unseen : old = none) : Composed known seen reader := by
  induction composed with
  | value value => exact .value value
  | bind _ next firstIH => exact .bind (firstIH unseen) next
  | look next => exact .look next
  | take next => exact .take next
  | takeNoted => cases unseen
  | takeAction => exact .takeAction
  | step plain => exact .step plain
  | inner power => exact .inner power
  | nested => exact .nested
  | inScope closable body => exact .inScope closable body

theorem advanceUnlessCloser {α : Type} {next : Terminal → Open α}
    (composed : ∀ terminal, known terminal → Composed known none (next terminal)) :
    Composed known seen fun inner nested =>
      advanceUnlessCloser >>= fun terminal => next terminal inner nested := by
  have taken : Composed known seen fun inner nested => ParseM.current >>= fun token =>
      if token.isCloser then next token inner nested
      else ParseM.advance >>= fun terminal => next terminal inner nested :=
    .look fun token holds => .ite (fun _ => (composed token holds).weaken rfl) fun _ => .take composed
  have same (inner : Nat → ParseM Expr) (nested : ParseM (Option Stmt)) :
      (ParseM.advanceUnlessCloser >>= fun terminal => next terminal inner nested) =
        (ParseM.current >>= fun token =>
          if token.isCloser then next token inner nested
          else ParseM.advance >>= fun terminal => next terminal inner nested) := by
    unfold ParseM.advanceUnlessCloser
    rw [bind_assoc]
    refine bind_congr fun token => ?_
    split
    · rw [pure_bind]
    · rfl
  simpa only [same] using taken

theorem expectSemicolon : Composed known seen fun _ _ => expectSemicolon := by
  simp only [expectSemicolon_eq]
  exact .look fun _ _ => .ite (fun _ => skip) fun _ =>
    .bind (.step .lastSpan) fun span => error rfl span

theorem rounds {α : Type} (again : Terminal → Bool) {body : α → Open α}
    (composed : ∀ value, Composed known none (body value)) (count : Nat) (value : α) :
    Composed known seen fun inner nested =>
      rounds again (fun value => body value inner nested) count value := by
  induction count generalizing value seen with
  | zero =>
      unfold ParseM.rounds
      exact .value value
  | succ count ih =>
      unfold ParseM.rounds
      refine .look fun _ _ => .ite (fun _ => ?_) fun _ => .value value
      exact .bind ((composed value).weaken rfl) fun after => ih after

theorem whileToken {α : Type} (again : Terminal → Bool) {body : α → Open α}
    (composed : ∀ value, Composed known none (body value)) (value : α) :
    Composed known seen fun inner nested =>
      whileToken again (fun value => body value inner nested) value := by
  have bounded : Composed known seen fun inner nested => remaining >>= fun count =>
      ParseM.rounds again (fun value => body value inner nested) count value :=
    .bind (.step .remaining) fun count => rounds again composed count value
  exact bounded

theorem afterComma {α : Type} {item : Open α} (composed : Composed known none item)
    (items : List α) : Composed known seen fun inner nested => afterComma (item inner nested) items := by
  unfold ParseM.afterComma
  exact .bind (expect _) fun _ => .bind composed fun _ => .value _

theorem afterCommas {α : Type} {item : Open α} (composed : Composed known none item) (first : α) :
    Composed known seen fun inner nested => afterCommas (item inner nested) first := by
  unfold ParseM.afterCommas
  exact whileToken _ (afterComma composed) [first]

theorem commaList {α : Type} (closing : String) {item : Open α}
    (composed : Composed known none item) :
    Composed known seen fun inner nested => commaList closing (item inner nested) := by
  unfold ParseM.commaList
  refine .look fun _ _ => .ite (fun _ => .value _) fun _ => ?_
  exact .bind (composed.weaken rfl) fun first => afterCommas composed first

theorem recover (skipped : Terminal → Bool) : Composed known seen fun _ _ => recover skipped := by
  unfold ParseM.recover
  exact .look fun _ _ => .bind (error rfl _) fun _ => whileToken _ (fun _ => skip) _

/-! Readers of expressions. -/

theorem operandForm {terminal : Terminal} (holds : known terminal) {form : OperandForm}
    (other : form ≠ .undefinedName) :
    Composed known seen fun inner _ => operandForm inner terminal form := by
  cases form with
  | itself => exact .value _
  | undefinedName => exact absurd rfl other
  | literal => exact .value _
  | constant => exact .bind (.step (.reserve holds)) fun _ => .value _
  | thisObject => exact .bind (.step (.reserve holds)) fun _ => .value _
  | superObject => exact .bind (.step (.reserve holds)) fun _ => .value _
  | unaryOperator =>
      exact .bind (.step (.reserve holds)) fun _ => .bind (.inner _) fun _ => .value _
  | group => exact .bind (.inner _) fun _ => .bind (expect _) fun _ => .value _

theorem operand : Composed known seen fun inner _ => operand inner := by
  unfold ParseM.operand
  refine .look fun token _ => ?_
  cases named : token.denotations.operand? with
  | some form =>
      by_cases undefined : form = .undefinedName
      · subst undefined
        exact .takeNoted (.inr named) fun _ _ => .value _
      · exact .take fun terminal holds => operandForm holds undefined
  | none => exact .bind (error rfl _) fun _ => advanceUnlessCloser fun _ _ => .value _

theorem property : Composed known seen fun _ _ => property := by
  unfold ParseM.property
  refine .look fun _ _ => .ite (fun _ => .take fun _ _ => .value _) fun _ => ?_
  exact .bind (error rfl _) fun _ => advanceUnlessCloser fun _ _ => .value _

theorem arguments : Composed known seen fun inner _ => arguments inner := by
  unfold ParseM.arguments
  exact .bind (commaList _ (.inner _)) fun _ => .bind (expect _) fun _ => .value _

theorem checkLeftValue (value : Expr) : Composed known seen fun _ _ => checkLeftValue value :=
  errorUnless _ rfl _

theorem checkCallee (call callee : Expr) :
    Composed known seen fun _ _ => checkCallee call callee := by
  unfold ParseM.checkCallee
  cases call with
  | call => exact errorUnless _ rfl _
  | _ => exact .value ()

theorem callOf (terminal : Terminal) (callee : Expr) :
    Composed known seen fun inner _ => callOf inner terminal callee := by
  unfold ParseM.callOf
  exact .bind arguments fun _ => .bind (checkCallee _ _) fun _ => .value _

theorem operatorForm (terminal : Terminal) (left : Expr) (form : OperatorForm) :
    Composed known seen fun inner _ => operatorForm inner terminal left form := by
  cases form with
  | leftAssociative => exact .bind (.inner _) fun _ => .value _
  | rightAssociative => exact .bind (.inner _) fun _ => .value _
  | assignment => exact .bind (checkLeftValue left) fun _ => .bind (.inner _) fun _ => .value _
  | step => exact .bind (checkLeftValue left) fun _ => .value _
  | ternary =>
      exact .bind (.inner _) fun _ => .bind (expect _) fun _ => .bind (.inner _) fun _ => .value _
  | member => exact .bind property fun _ => .value _
  | index => exact .bind (.inner _) fun _ => .bind (expect _) fun _ => .value _
  | call => exact callOf terminal left

theorem fold (left : Expr) : Composed known seen fun inner _ => fold inner left := by
  unfold ParseM.fold
  refine .take fun terminal _ => ?_
  cases terminal.denotations.operator? with
  | some form => exact operatorForm terminal left form
  | none => exact .bind (error rfl _) fun _ => .value _

theorem expressionBody (power : Nat) : Composed known seen fun inner _ => (do
    let left ← ParseM.operand inner
    ParseM.whileToken (power < ·.denotations.power) (ParseM.fold inner) left) :=
  .bind operand fun left => whileToken _ fold left

/-! Readers of statements. -/

theorem anotherStatement (statements : List Stmt) :
    Composed known seen fun _ nested => anotherStatement nested statements := by
  unfold ParseM.anotherStatement
  exact .bind .nested fun _ => .value _

theorem statementsUntilBrace : Composed known seen fun _ nested => statementsUntilBrace nested := by
  unfold ParseM.statementsUntilBrace
  exact whileToken _ anotherStatement []

theorem atBrace : Composed known seen fun _ _ => atBrace := by
  unfold ParseM.atBrace
  exact .look fun _ _ => .bind (errorUnless _ rfl _) fun _ => .value _

theorem blockBody : Composed known seen fun _ nested => blockBody nested := by
  simp only [blockBody_eq]
  exact .bind (.inScope .statements statementsUntilBrace) fun _ => .bind (expect _) fun _ => .value _

theorem block : Composed known seen fun _ nested => block nested := by
  unfold ParseM.block
  exact .bind atBrace fun _ => .ite (fun _ => .bind skip fun _ => blockBody) fun _ => .value _

theorem parenthesized : Composed known seen fun inner _ => parenthesized inner := by
  unfold ParseM.parenthesized
  exact .bind (expect _) fun _ => .bind (.inner _) fun _ => .bind (expect _) fun _ => .value _

theorem optional (closing : String) : Composed known seen fun inner _ => optional inner closing := by
  unfold ParseM.optional
  exact .look fun _ _ => .ite (fun _ => .value _) fun _ => .bind (.inner _) fun _ => .value _

theorem takeAtom : Composed known seen fun _ _ => takeAtom := by
  unfold ParseM.takeAtom
  exact .look fun _ _ => .ite (fun _ => .value _) fun _ => .take fun _ _ => .value _

theorem checkWord : Composed known seen fun _ _ => checkWord := by
  unfold ParseM.checkWord
  exact .look fun _ _ => errorUnless _ rfl _

theorem checkFlags : Composed known seen fun _ _ => checkFlags := by
  unfold ParseM.checkFlags
  exact .look fun _ _ => warningUnless _ rfl _

/-- The action of a verb is noted where it is consumed. -/
theorem verb_eq (terminal : Terminal) :
    ParseM.verb terminal = (do
      let _ ← ParseM.expect "("
      ParseM.checkWord
      let word ← ParseM.takeAtom
      let _ ← ParseM.expect ","
      let action ← ParseM.takeAction
      let _ ← ParseM.expect ","
      ParseM.checkFlags
      let flags ← ParseM.takeAtom
      let _ ← ParseM.expect ")"
      ParseM.expectSemicolon
      return .verb terminal.head word action flags) := by
  simp only [ParseM.verb, ParseM.takeAction, bind_assoc]

theorem verb (terminal : Terminal) : Composed known seen fun _ _ => verb terminal := by
  simp only [verb_eq]
  refine .bind (expect _) fun _ => .bind checkWord fun _ => .bind takeAtom fun _ => ?_
  refine .bind (expect _) fun _ => .bind .takeAction fun _ => ?_
  refine .bind (expect _) fun _ => .bind checkFlags fun _ => .bind takeAtom fun _ => ?_
  exact .bind (expect _) fun _ => .bind expectSemicolon fun _ => .value _

theorem abstractModifier : Composed known seen fun _ _ => abstractModifier := by
  unfold ParseM.abstractModifier
  refine .look fun _ _ => .ite (fun _ => ?_) fun _ => .value _
  exact .take fun _ holds => .bind (.step (.reserve holds)) fun _ => .value _

theorem className (keyword : Terminal) : Composed known seen fun _ _ => className keyword := by
  unfold ParseM.className
  refine .look fun _ _ => .ite (fun _ => ?_) fun _ => ?_
  · exact .take fun _ holds => .bind (.step (.define holds _ _)) fun _ => .value _
  · exact .bind (error rfl _) fun _ => .ite (fun _ => .value _) fun _ => advance

theorem superclassName : Composed known seen fun _ _ => superclassName := by
  unfold ParseM.superclassName
  refine .look fun _ _ => .ite (fun named => ?_) fun _ => .bind (error rfl _) fun _ => .value _
  exact .takeNoted (.inl named) fun _ _ => .value _

theorem superclass : Composed known seen fun _ _ => superclass := by
  unfold ParseM.superclass
  exact .look fun _ _ => .ite (fun _ => .bind skip fun _ => superclassName) fun _ => .value _

theorem classDefinition (terminal : Terminal) :
    Composed known seen fun _ nested => classDefinition nested terminal := by
  unfold ParseM.classDefinition
  exact .bind abstractModifier fun _ => .bind (className terminal) fun _ =>
    .bind superclass fun _ => .bind block fun _ => .value _

theorem returning (terminal : Terminal) :
    Composed known seen fun inner _ => returning inner terminal := by
  unfold ParseM.returning
  exact .bind (optional _) fun _ => .bind expectSemicolon fun _ => .look fun _ _ =>
    .bind (warningUnless _ rfl _) fun _ => .value _

theorem guarded (terminal : Terminal) :
    Composed known seen fun inner nested => guarded inner nested terminal := by
  unfold ParseM.guarded
  exact .bind parenthesized fun _ => .bind block fun _ => .value _

theorem doWhile (terminal : Terminal) :
    Composed known seen fun inner nested => doWhile inner nested terminal := by
  unfold ParseM.doWhile
  refine .bind block fun _ => .look fun _ holds => .bind (.step (.reserve holds)) fun _ => ?_
  exact .bind (expect _) fun _ => .bind parenthesized fun _ => .bind expectSemicolon fun _ => .value _

theorem alternative : Composed known seen fun _ nested => alternative nested := by
  unfold ParseM.alternative
  exact .look fun _ _ => .ite (fun _ => .bind .nested fun _ => .value _) fun _ => block

theorem elseBody : Composed known seen fun _ nested => elseBody nested := by
  unfold ParseM.elseBody
  refine .look fun _ _ => .ite (fun _ => ?_) fun _ => .value _
  exact .take fun _ holds => .bind (.step (.reserve holds)) fun _ => .bind alternative fun _ => .value _

theorem ifElse (terminal : Terminal) :
    Composed known seen fun inner nested => ifElse inner nested terminal := by
  unfold ParseM.ifElse
  exact .bind parenthesized fun _ => .bind block fun _ => .bind elseBody fun _ => .value _

theorem forLoop (terminal : Terminal) :
    Composed known seen fun inner nested => forLoop inner nested terminal := by
  unfold ParseM.forLoop
  refine .bind (expect _) fun _ => .bind (optional _) fun _ => .bind (expect _) fun _ => ?_
  refine .bind (optional _) fun _ => .bind (expect _) fun _ => .bind (optional _) fun _ => ?_
  exact .bind (expect _) fun _ => .bind block fun _ => .value _

theorem caseLabel (terminal : Terminal) :
    Composed known seen fun inner _ => caseLabel inner terminal := by
  unfold ParseM.caseLabel
  exact .bind parenthesized fun _ => .bind expectSemicolon fun _ => .value _

theorem bare (terminal : Terminal) : Composed known seen fun _ _ => bare terminal := by
  unfold ParseM.bare
  exact .bind expectSemicolon fun _ => .value _

theorem parameterName (valueType? : Option ValueType) :
    Composed known seen fun _ _ => parameterName valueType? := by
  unfold ParseM.parameterName
  refine .look fun _ _ => .ite (fun _ => ?_) fun _ => ?_
  · exact .take fun _ holds => .bind (.step (.define holds _ _)) fun _ => .value _
  · exact .bind (error rfl _) fun _ => advanceUnlessCloser fun _ _ => .value _

theorem untypedParameter {first : Terminal} (holds : known first) :
    Composed known seen fun _ _ => untypedParameter first := by
  unfold ParseM.untypedParameter
  refine .bind (error rfl _) fun _ => .look fun _ _ => .ite (fun _ => ?_) fun _ => parameterName none
  exact .bind (.step (.define holds _ _)) fun _ => .value _

theorem parameter : Composed known seen fun _ _ => parameter := by
  unfold ParseM.parameter
  refine .look fun _ _ => .ite (fun _ => .bind (error rfl _) fun _ => .value _) fun _ => ?_
  refine .take fun first holds => ?_
  cases parameterType? first with
  | some valueType => exact parameterName _
  | none => exact untypedParameter holds

theorem functionName {name : Terminal} (holds : known name) (returnType : ValueType) :
    Composed known seen fun _ _ => functionName name returnType := by
  unfold ParseM.functionName
  exact .ite (fun _ => .step (.define holds _ _)) fun _ => error rfl _

theorem functionScope : Composed known seen fun _ nested => functionScope nested := by
  unfold ParseM.functionScope
  refine .bind (commaList _ parameter) fun _ => .bind (expect _) fun _ => .bind atBrace fun _ => ?_
  exact .ite (fun _ => .bind skip fun _ => .bind statementsUntilBrace fun _ => .value _)
    fun _ => .value _

theorem closeBody (body? : Option (List Stmt)) : Composed known seen fun _ _ => closeBody body? := by
  cases body? with
  | some body => exact .bind (expect _) fun _ => .value _
  | none => exact .value _

theorem function {name : Terminal} (holds : known name) (returnType : ValueType) :
    Composed known seen fun _ nested => function nested name returnType := by
  simp only [function_eq]
  exact .bind (functionName holds returnType) fun _ => .bind (expect _) fun _ =>
    .bind (.inScope .function functionScope) fun read => .bind (closeBody read.2) fun _ => .value _

theorem variableName {name : Terminal} (holds : known name) (valueType : ValueType) :
    Composed known seen fun _ _ => variableName name valueType := by
  unfold ParseM.variableName
  exact .ite (fun _ => .bind (.step (.define holds _ _)) fun _ => .value _)
    fun _ => .bind (error rfl _) fun _ => .value _

theorem arraySize : Composed known seen fun inner _ => arraySize inner := by
  unfold ParseM.arraySize
  refine .look fun _ _ => .ite (fun _ => ?_) fun _ => .value _
  exact .bind skip fun _ => .bind (optional _) fun _ => .bind (expect _) fun _ => .value _

theorem initialValue (isArray : Bool) :
    Composed known seen fun inner _ => initialValue inner isArray := by
  unfold ParseM.initialValue
  refine .look fun _ _ => .ite (fun _ => ?_) fun _ => .bind (.inner _) fun _ => .value _
  exact .bind skip fun _ => .bind arguments fun _ => .value _

theorem initializer (isArray : Bool) :
    Composed known seen fun inner _ => initializer inner isArray := by
  unfold ParseM.initializer
  refine .look fun _ _ => .ite (fun _ => ?_) fun _ => .value _
  exact .bind skip fun _ => .bind (initialValue isArray) fun _ => .value _

theorem declarator (valueType : ValueType) {name : Terminal} (holds : known name) :
    Composed known seen fun inner _ => declarator inner valueType name := by
  unfold ParseM.declarator
  exact .bind (variableName holds valueType) fun _ => .bind arraySize fun array =>
    .bind (initializer array.1) fun _ => .value _

theorem nextDeclarator (valueType : ValueType) :
    Composed known seen fun inner _ => nextDeclarator inner valueType := by
  unfold ParseM.nextDeclarator
  exact advanceUnlessCloser fun _ holds => declarator valueType holds

theorem variableList (keyword : Terminal) {first : Terminal} (holds : known first)
    (valueType : ValueType) :
    Composed known seen fun inner _ => variableList inner keyword first valueType := by
  unfold ParseM.variableList
  exact .bind (declarator valueType holds) fun declared =>
    .bind (afterCommas (nextDeclarator valueType) declared) fun _ =>
      .bind expectSemicolon fun _ => .value _

theorem declaration (keyword : Terminal) (valueType : ValueType) :
    Composed known seen fun inner nested => declaration inner nested keyword valueType := by
  unfold ParseM.declaration
  exact advanceUnlessCloser fun _ holds => .look fun _ _ =>
    .ite (fun _ => function holds valueType) fun _ => variableList keyword holds valueType

theorem statementForm (terminal : Terminal) (form : StatementForm) :
    Composed known seen fun inner nested => statementForm inner nested terminal form := by
  cases form with
  | block => exact .bind blockBody fun _ => .value _
  | verb => exact verb terminal
  | classDefinition => exact classDefinition terminal
  | returning => exact returning terminal
  | guarded => exact guarded terminal
  | doWhile => exact doWhile terminal
  | ifElse => exact ifElse terminal
  | forLoop => exact forLoop terminal
  | caseLabel => exact caseLabel terminal
  | bare => exact bare terminal
  | declaration valueType => exact declaration terminal valueType

theorem formedStatement (form : StatementForm) :
    Composed known seen fun inner nested => formedStatement inner nested form := by
  unfold ParseM.formedStatement
  exact .take fun terminal holds => .bind (.step (.log rfl)) fun _ =>
    .bind (.step (.reserve holds)) fun _ => statementForm terminal form

theorem expressionStatement : Composed known seen fun inner _ => expressionStatement inner := by
  unfold ParseM.expressionStatement
  exact .bind (.inner _) fun _ => .bind (warningUnless _ rfl _) fun _ =>
    .bind expectSemicolon fun _ => .value _

theorem skipStatement : Composed known seen fun _ _ => skipStatement := by
  unfold ParseM.skipStatement
  exact .bind (recover _) fun _ => .look fun _ _ => .ite (fun _ => skip) fun _ => .value _

theorem statementBody : Composed known seen fun inner nested => statementBody inner nested := by
  unfold ParseM.statementBody
  refine .look fun token _ => ?_
  cases token.denotations.statement? with
  | some form => exact .bind (formedStatement form) fun _ => .value _
  | none =>
      cases token.denotations.operand? with
      | some _ => exact .bind expressionStatement fun _ => .value _
      | none => exact .bind skipStatement fun _ => .value _

theorem afterStrayBrace (statements : List Stmt) :
    Composed known seen fun _ nested => afterStrayBrace nested statements := by
  unfold ParseM.afterStrayBrace
  exact .bind (recover _) fun _ => .bind statementsUntilBrace fun _ => .value _

theorem statements : Composed known seen fun _ nested => statements nested := by
  unfold ParseM.statements
  exact .bind statementsUntilBrace fun first => whileToken _ afterStrayBrace first

end Composed

namespace Built

theorem lookup (name : String) : Built fun _ _ => lookup name := by
  unfold ParseM.lookup
  exact .bind (.step .read) fun _ => .bind (.step .get) fun _ => .value _

theorem takeAction : Built fun _ _ => takeAction := by
  unfold ParseM.takeAction checkAction noteIfUndefined takeAtom
  refine .bind (.bind current fun token => .ite ?_ (.step (.report _))) fun _ => ?_
  · refine .bind (lookup token.text) fun found => ?_
    cases found.isUndefined
    · exact .value ()
    · exact .step (.noteOccurrence token)
  · exact .bind current fun _ => .ite (.value _) (.bind (.step .advance) fun _ => .value _)

theorem plain {known : Terminal → Prop} {α : Type} {action : ParseM α} (plain : Plain known action) :
    Built fun _ _ => action := by
  cases plain with
  | lastSpan => exact .bind (.step .get) fun _ => .value _
  | remaining => exact .bind (.step .get) fun _ => .value _
  | lookup name => exact lookup name
  | @log event => exact .step (.log event)
  | @report diagnostic => exact .step (.report diagnostic)
  | define _ arity valueType? => exact .step (.define _ arity valueType?)
  | reserve => exact .step (.reserve _)

end Built

theorem Composed.built {known : Terminal → Prop} {seen : Option Terminal} {α : Type}
    {reader : Open α} (composed : Composed known seen reader) (all : ∀ terminal, known terminal) :
    Built reader := by
  induction composed with
  | value value => exact .value value
  | bind _ _ firstIH nextIH => exact .bind firstIH nextIH
  | look _ ih => exact .bind .current fun token => ih token (all token)
  | take _ ih => exact .bind (.step .advance) fun terminal => ih terminal (all terminal)
  | takeNoted _ _ ih =>
      exact .bind (.step .advance) fun terminal =>
        .bind (.step (.noteOccurrence terminal)) fun _ => ih terminal (all terminal)
  | takeAction => exact .takeAction
  | step plain => exact .plain plain
  | inner power => exact .inner power
  | nested => exact .nested
  | inScope _ _ ih => exact .inScope ih

namespace Built

theorem of_composed {α : Type} {reader : Open α} (composed : Composed (fun _ => True) none reader) :
    Built reader :=
  composed.built fun _ => trivial

theorem operandForm (terminal : Terminal) (form : OperandForm) :
    Built fun inner _ => operandForm inner terminal form := by
  by_cases undefined : form = .undefinedName
  · subst undefined
    exact .bind (.step (.noteOccurrence terminal)) fun _ => .value _
  · exact .of_composed (.operandForm trivial undefined)

theorem expressionBody (power : Nat) : Built fun inner _ => (do
    let left ← operand inner
    ParseM.whileToken (power < ·.denotations.power) (fold inner) left) :=
  .of_composed (.expressionBody power)

theorem statementBody : Built fun inner nested => statementBody inner nested :=
  .of_composed .statementBody

theorem statements : Built fun _ nested => statements nested :=
  .of_composed .statements

end Built

end ParseM

end Adventure
