import Adventure.Proofs.Accounts
import Adventure.Proofs.Scopes
import Adventure.Proofs.Statements

/-!
Surveys. A survey says what is found of nodes between the state in which they began to be read and the
one in which they were complete, with so much room for nesting. What it finds of the steps and of each
shape of node it finds of whatever readers make, since they read one thing after another.
-/

namespace Adventure

def Node.isOperand (node : Node) : Bool := node.arity == .name || node.arity == .literal

def Expr.leftOperand? : Expr → Option Expr
  | .atom _ => none
  | .unary head operand => if stepIds.contains head.id then some operand else none
  | .binary _ left _ => some left
  | .ternary _ condition _ _ => some condition
  | .call _ callee _ => some callee
  | .methodCall _ object _ _ => some object

theorem Terminal.isCloser_of_opens {terminal : Terminal} (present : terminal.isEnd = false)
    (opens : terminal.id ∉ Word.closers) : terminal.isCloser = false := by
  have none : Word.closers.contains terminal.id = false := by simpa using opens
  rw [isCloser, present, Bool.false_or]
  exact none

namespace ParseM

variable {α β : Type} {context : Context} {tokens : List Token}

theorem Known.isCloser_of_isName {terminal : Terminal} (known : Known context tokens terminal)
    (lexical : ∀ token ∈ tokens, token.Lexical) (named : terminal.isName = true) :
    terminal.isCloser = false := by
  have opens : terminal.id ∉ Word.closers := by
    rw [(known.id named).1]
    exact Word.id_name_closers ((known.isNameText_iff lexical).mpr named)
  have present : terminal.isEnd = false := by
    rw [Terminal.isName, beq_iff_eq] at named
    simp [Terminal.isEnd, named]
  exact Terminal.isCloser_of_opens present opens

theorem Known.isCloser_of_operand {terminal : Terminal} (known : Known context tokens terminal)
    (grammar : context.grammar = Grammar.standard) (lexical : ∀ token ∈ tokens, token.Lexical)
    {form : OperandForm} (acts : terminal.denotations.operand? = some form) :
    terminal.isCloser = false := by
  have idle : ∀ id ∈ "(end)" :: Word.closers, (Grammar.standard.denotations id).operand? = none := by
    decide
  have plain : form = .itself ∨ form = .undefinedName → terminal.isCloser = false := fun names =>
    known.isCloser_of_isName lexical (known.isName_of_operand grammar lexical (by simpa [acts] using names))
  rcases known.acts grammar with same | same | same
  · rw [same] at acts
    have other : terminal.id ∉ "(end)" :: Word.closers := fun member => by
      rw [idle _ member] at acts
      cases acts
    obtain ⟨solid, opens⟩ := not_or.mp (List.mem_cons.not.mp other)
    have present : terminal.isEnd = false := by
      rcases known with rfl | ⟨token, _, _, means⟩
      · exact absurd rfl solid
      · simp [Terminal.isEnd, means.origin]
    exact Terminal.isCloser_of_opens present opens
  · exact plain (.inl (by simpa [same, Denotations.identifier] using acts.symm))
  · exact plain (.inr (by simpa [same, Grammar.undefinedName] using acts.symm))

/-- What is found of nodes between two states of reading. The nodes stand next to each other. -/
structure Survey (context : Context) (tokens : List Token) where
  grammar : context.grammar = Grammar.standard
  lexical : ∀ token ∈ tokens, token.Lexical
  finds : Nat → ParseState → ParseState → List Node → Prop
  /-- Nothing is found where reading stays in place and opens no scope. -/
  still {before after : ParseState} : after.token = before.token → after.pending = before.pending →
    after.scopes.pushes = before.scopes.pushes → finds 0 before after []
  append {room : Nat} {first second third : ParseState} {nodes others : List Node} :
    finds room first second nodes → finds room second third others →
      finds room first third (nodes ++ others)
  deeper {room : Nat} {before after : ParseState} {nodes : List Node} :
    finds room before after nodes → finds (room + 1) before after nodes
  take {state : ParseState} : Understood context tokens state →
    finds 0 state (advance.run context state).2 []
  leaf {state : ParseState} {kind : AtomKind} : Understood context tokens state →
    state.token.isEnd = false → finds 0 state (advance.run context state).2 [(state.token.atom kind).node]
  /-- A placeholder is made of the lookahead, which stays where it is. -/
  placeholder {state : ParseState} : Understood context tokens state →
    finds 0 state state [(state.token.atom .invalid).node]
  grouped {room : Nat} {before after : ParseState} {value : Expr} :
    finds room before after [.expression value] → finds room before after [.expression value.parenthesize]
  /-- A node that begins with its own terminal, and then its children. -/
  headed {room : Nat} {before head after : ParseState} {node : Node} :
    finds 0 before head [] → Understood context tokens head → finds room head after node.children →
      node.head.span = head.token.span → node.isOperand = false → finds (room + 1) before after [node]
  /-- An operator, folded onto its left operand before it reads others. -/
  folded {room : Nat} {before operator after : ParseState} {value left : Expr} {others : List Expr} :
    finds (room + 1) before operator [.expression left] → Understood context tokens operator →
      finds room operator after (others.map .expression) → value.leftOperand? = some left →
        value.children = left :: others → value.head.span = operator.token.span →
          finds (room + 1) before after [.expression value]
  /-- A member access that is called. -/
  method {room : Nat} {before operator after : ParseState} {access head : Head} {object member : Expr}
      {arguments : List Expr} :
    finds (room + 1) before operator [.expression (.binary access object member)] →
      Understood context tokens operator → finds room operator after (arguments.map .expression) →
        head.span = operator.token.span →
          finds (room + 1) before after [.expression (.methodCall head object member arguments)]

def Attains (context : Context) (tokens : List Token) (state : ParseState) (action : ParseM α)
    (reaches : α → ParseState → Prop) : Prop :=
  Understood context tokens state → Understood context tokens (action.run context state).2 ∧
    reaches (action.run context state).1 (action.run context state).2

namespace Attains

variable {state : ParseState} {reaches weaker : α → ParseState → Prop}

theorem given {action : ParseM α}
    (attains : Understood context tokens state → Attains context tokens state action reaches) :
    Attains context tokens state action reaches :=
  fun understood => attains understood understood

theorem value {value : α} (holds : reaches value state) :
    Attains context tokens state (pure value) reaches :=
  fun understood => ⟨understood, holds⟩

theorem bind {first : ParseM α} {next : α → ParseM β} {goal : β → ParseState → Prop}
    (begins : Attains context tokens state first reaches)
    (goes : ∀ value after, reaches value after → Attains context tokens after (next value) goal) :
    Attains context tokens state (first >>= next) goal := by
  intro understood
  obtain ⟨middle, holds⟩ := begins understood
  exact goes _ _ holds middle

theorem look {next : Terminal → ParseM α}
    (goes : Attains context tokens state (next state.token) reaches) :
    Attains context tokens state (current >>= next) reaches :=
  goes

theorem ite {condition : Prop} [Decidable condition] {yes no : ParseM α}
    (holds : condition → Attains context tokens state yes reaches)
    (fails : ¬condition → Attains context tokens state no reaches) :
    Attains context tokens state (if condition then yes else no) reaches := by
  by_cases decided : condition
  · simpa only [decided, if_true] using holds decided
  · simpa only [decided, if_false] using fails decided

theorem imp {action : ParseM α} (attains : Attains context tokens state action reaches)
    (less : ∀ value after, reaches value after → weaker value after) :
    Attains context tokens state action weaker :=
  fun understood => (attains understood).imp_right (less _ _)

theorem whileToken {again : Terminal → Bool} {body : α → ParseM α} {value : α}
    (round : ∀ value state, reaches value state →
      Attains context tokens state (body value) reaches) (holds : reaches value state) :
    Attains context tokens state (whileToken again body value) reaches := by
  intro understood
  have rounds (value : α) (last : ParseState) : (Understood context tokens last ∧ reaches value last) →
      Understood context tokens ((body value).run context last).2 ∧
        reaches ((body value).run context last).1 ((body value).run context last).2 :=
    fun ⟨known, reached⟩ => round value last reached known
  exact whileToken_invariant rounds value state ⟨understood, holds⟩

end Attains

namespace Survey

variable {survey : Survey context tokens} {room : Nat} {state origin : ParseState}

theorem lift {before after : ParseState} {nodes : List Node} (found : survey.finds 0 before after nodes) :
    survey.finds room before after nodes := by
  induction room with
  | zero => exact found
  | succ room ih => exact survey.deeper ih

theorem here : survey.finds room state state [] := lift (survey.still rfl rfl rfl)

theorem since {before middle after : ParseState} {nodes : List Node}
    (passed : survey.finds 0 before middle []) (found : survey.finds room middle after nodes) :
    survey.finds room before after nodes :=
  survey.append (lift passed) found

theorem onTo {before middle after : ParseState} {nodes : List Node}
    (found : survey.finds room before middle nodes) (passed : survey.finds 0 middle after []) :
    survey.finds room before after nodes := by
  simpa only [List.append_nil] using survey.append found (lift passed)

/-- The nodes of what the action makes are found on its way. -/
abbrev Finds (survey : Survey context tokens) (room : Nat) (state : ParseState) (action : ParseM α)
    (nodes : α → List Node) : Prop :=
  Attains context tokens state action fun value after => survey.finds room state after (nodes value)

abbrev Passes (survey : Survey context tokens) (state : ParseState) (action : ParseM α) : Prop :=
  survey.Finds 0 state action fun _ => []

theorem next {first : ParseM α} {next : α → ParseM β} {nodes : α → List Node} {done : List Node}
    {goal : β → ParseState → Prop} (found : survey.finds room origin state done)
    (reads : survey.Finds room state first nodes)
    (goes : ∀ value after, survey.finds room origin after (done ++ nodes value) →
      Attains context tokens after (next value) goal) :
    Attains context tokens state (first >>= next) goal :=
  reads.bind fun value after more => goes value after (survey.append found more)

theorem pass {first : ParseM α} {next : α → ParseM β} {done : List Node} {goal : β → ParseState → Prop}
    (found : survey.finds room origin state done) (passes : survey.Passes state first)
    (goes : ∀ value after, survey.finds room origin after done →
      Attains context tokens after (next value) goal) :
    Attains context tokens state (first >>= next) goal :=
  passes.bind fun value after nothing => goes value after (onTo found nothing)

/-! The small steps. -/

theorem quiet {action : ParseM α} (alike : ∀ state, Alike state (action.run context state).2) :
    survey.Passes state action :=
  fun understood => ⟨Accounts.understood_alike (alike state) understood,
    survey.still (alike state).token (alike state).pending (congrArg _ (alike state).scopes)⟩

theorem error (problem : Problem) (span : Span) : survey.Passes state (error problem span) :=
  quiet fun _ => ⟨rfl, rfl, rfl, rfl⟩

theorem warning (problem : Problem) (span : Span) : survey.Passes state (warning problem span) :=
  quiet fun _ => ⟨rfl, rfl, rfl, rfl⟩

theorem errorUnless (met : Bool) (problem : Problem) (span : Span) :
    survey.Passes state (errorUnless met problem span) :=
  .ite (fun _ => .value here) fun _ => error problem span

theorem warningUnless (met : Bool) (problem : Problem) (span : Span) :
    survey.Passes state (warningUnless met problem span) :=
  .ite (fun _ => .value here) fun _ => warning problem span

theorem log (event : Event) : survey.Passes state (log event) :=
  quiet fun _ => ⟨rfl, rfl, rfl, rfl⟩

theorem noteOccurrence (terminal : Terminal) : survey.Passes state (noteOccurrence terminal) :=
  quiet fun _ => ⟨rfl, rfl, rfl, rfl⟩

theorem enter : survey.Passes state enter :=
  quiet fun _ => ⟨rfl, rfl, rfl, rfl⟩

theorem leave : survey.Passes state leave :=
  quiet fun _ => ⟨rfl, rfl, rfl, rfl⟩

theorem kept (survey : Survey context tokens) :
    Keeps context (Known context tokens) (Understood context tokens) :=
  understood_kept survey.grammar survey.lexical

theorem reserve {terminal : Terminal} (known : Known context tokens terminal) :
    survey.Passes state (reserve terminal) := by
  intro understood
  refine ⟨survey.kept.plain (.reserve known) understood, ?_⟩
  rw [reserve_run]
  exact survey.still rfl rfl (ScopeTree.bound_reserve state.scopes state.scope terminal).pushes

theorem define {terminal : Terminal} (known : Known context tokens terminal) (arity : Arity)
    (valueType? : Option ValueType) : survey.Passes state (define terminal arity valueType?) := by
  intro understood
  refine ⟨survey.kept.plain (.define known arity valueType?) understood, ?_⟩
  rw [define_run]
  exact survey.still rfl rfl (ScopeTree.bound_define ..).pushes

/-- The terminal was the lookahead at the origin. Reading has come past it, unless it closes something. -/
structure Took (survey : Survey context tokens) (origin state : ParseState) (terminal : Terminal) :
    Prop where
  understood : Understood context tokens origin
  same : origin.token = terminal
  passed : survey.finds 0 origin state []
  atom {kind : AtomKind} : kind = .invalid ∨ terminal.isCloser = false →
    survey.finds 0 origin state [(terminal.atom kind).node]

theorem Took.known {terminal : Terminal} (took : survey.Took origin state terminal) :
    Known context tokens terminal :=
  took.same ▸ took.understood.lookahead

theorem Took.span {terminal : Terminal} (took : survey.Took origin state terminal) :
    terminal.head.span = origin.token.span :=
  congrArg Terminal.span took.same.symm

theorem Took.name {terminal : Terminal} (took : survey.Took origin state terminal)
    (named : terminal.isName = true) (kind : AtomKind) :
    survey.finds 0 origin state [(terminal.atom kind).node] :=
  took.atom (.inr (took.known.isCloser_of_isName survey.lexical named))

theorem advance (survey : Survey context tokens) : Attains context tokens state advance fun terminal after =>
    survey.Took state after terminal := by
  intro understood
  have passed := survey.take understood
  refine ⟨survey.kept.take understood, understood, (advance_value state).symm, passed, fun open? => ?_⟩
  rw [advance_value] at open? ⊢
  cases ended : state.token.isEnd with
  | true =>
      simp only [Terminal.isCloser, ended, Bool.true_or, Bool.true_eq_false, or_false] at open?
      exact open? ▸ onTo (survey.placeholder understood) passed
  | false => exact survey.leaf understood ended

theorem advanceUnlessCloser (survey : Survey context tokens) :
    Attains context tokens state advanceUnlessCloser fun terminal after => survey.Took state after terminal :=
  .given fun understood => .look <| .ite
    (fun closes => .value ⟨understood, rfl, here, fun open? => by
      simp only [closes, Bool.true_eq_false, or_false] at open?
      exact open? ▸ survey.placeholder understood⟩)
    fun _ => survey.advance

theorem skip : survey.Passes state skip :=
  .bind survey.advance fun _ _ took => .value took.passed

theorem expect (id : String) : survey.Passes state (expect id) :=
  .look <| pass here (errorUnless _ _ _) fun _ _ passed =>
    .imp survey.advance fun _ _ took => since passed took.passed

theorem expectSemicolon : survey.Passes state expectSemicolon := by
  rw [expectSemicolon_eq]
  exact .look <| .ite (fun _ => skip) fun _ =>
    pass here (quiet fun _ => ⟨rfl, rfl, rfl, rfl⟩) fun _ _ passed =>
      pass passed (error _ _) fun _ _ passed => .value passed

theorem recover (skipped : Terminal → Bool) : survey.Passes state (recover skipped) :=
  .look <| pass here (error _ _) fun _ _ passed =>
    .whileToken (fun _ _ passed => .imp skip fun _ _ nothing => since passed nothing) passed

theorem refuse : Attains context tokens state refuse fun leaf after =>
    survey.finds 0 state after [] ∧ survey.finds 0 state after [leaf.node] :=
  pass here (quiet reportDepth_alike) fun _ _ passed => .look <| .ite
    (fun _ => .given fun understood => .value ⟨passed, since passed (survey.placeholder understood)⟩)
    fun _ => .bind survey.advance fun _ _ took =>
      .value ⟨since passed took.passed, since passed (took.atom (.inl rfl))⟩

/-! Lists between commas. -/

section

variable {item : ParseM α} {nodes : α → List Node} (each : ∀ state, survey.Finds room state item nodes)

include each

theorem afterCommas {first : α} (found : survey.finds room origin state (nodes first)) :
    Attains context tokens state (afterCommas item first) fun values after =>
      survey.finds room origin after (values.flatMap nodes) := by
  have one : survey.finds room origin state ([first].flatMap nodes) := by simpa using found
  refine .whileToken (fun values _ found => ?_) one
  exact pass found (expect ",") fun _ _ found => next found (each _) fun value _ found =>
    .value (by simpa using found)

theorem commaList (closing : String) :
    survey.Finds room state (commaList closing item) fun values => values.flatMap nodes :=
  .look <| .ite (fun _ => .value here) fun _ => (each _).bind fun _ _ found => afterCommas each found

end

/-! Expressions. -/

theorem property : survey.Finds 0 state property fun value => [.expression value] :=
  .look <| .ite
    (fun named => .bind survey.advance fun _ _ took => .value (took.name (took.same ▸ named) _))
    fun _ => pass here (error _ _) fun _ _ passed => .bind survey.advanceUnlessCloser fun _ _ took =>
      .value (since passed (took.atom (.inl rfl)))

theorem checkCallee (call callee : Expr) : survey.Passes state (checkCallee call callee) := by
  cases call with
  | call => exact errorUnless _ _ _
  | _ => exact .value here

theorem calling {operator after : ParseState} {head : Head} {callee : Expr} {arguments : List Expr}
    (found : survey.finds (room + 1) origin operator [.expression callee])
    (understood : Understood context tokens operator)
    (others : survey.finds room operator after (arguments.map .expression))
    (span : head.span = operator.token.span) :
    survey.finds (room + 1) origin after [.expression (callee.calling head arguments)] := by
  have plain : survey.finds (room + 1) origin after [.expression (.call head callee arguments)] :=
    survey.folded found understood others rfl rfl span
  cases callee with
  | binary access object member =>
      simp only [Expr.calling]
      split
      · exact survey.method found understood others span
      · exact plain
  | _ => exact plain

section

variable (inside : ∀ power state, survey.Finds room state (expression room power) fun value =>
  [.expression value])

include inside

theorem operandForm {terminal : Terminal} (took : survey.Took origin state terminal) {form : OperandForm}
    (acts : terminal.denotations.operand? = some form) :
    Attains context tokens state (operandForm (expression room) terminal form) fun value after =>
      survey.finds (room + 1) origin after [.expression value] := by
  have leaf (kind : AtomKind) : survey.finds 0 origin state [(terminal.atom kind).node] :=
    took.atom (.inr (took.known.isCloser_of_operand survey.grammar survey.lexical acts))
  cases form with
  | itself | literal => exact .value (lift (leaf _))
  | undefinedName => exact pass (leaf _) (noteOccurrence _) fun _ _ found => .value (lift found)
  | constant | thisObject | superObject =>
      exact pass (leaf _) (reserve took.known) fun _ _ found => .value (lift found)
  | unaryOperator =>
      exact pass took.passed (reserve took.known) fun _ _ passed => .bind (inside _ _) fun _ _ found =>
        .value (survey.headed here took.understood (since passed found) took.span rfl)
  | group =>
      exact .bind (inside _ _) fun _ _ found => pass (since took.passed found) (expect ")") fun _ _ found =>
        .value (survey.deeper (survey.grouped found))

theorem operand : survey.Finds (room + 1) state (operand (expression room)) fun value =>
    [.expression value] := by
  refine .look ?_
  cases acts : state.token.denotations.operand? with
  | some form => exact .bind survey.advance fun _ _ took => operandForm inside took (took.same ▸ acts)
  | none =>
      exact pass here (error _ _) fun _ _ passed => .bind survey.advanceUnlessCloser fun _ _ took =>
        .value (lift (since passed (took.atom (.inl rfl))))

theorem arguments : survey.Finds room state (arguments (expression room)) fun values =>
    values.map .expression := by
  refine .bind (commaList (inside _) ")") fun values _ found => pass found (expect ")") fun _ _ found =>
    .value ?_
  simpa only [List.map_eq_flatMap] using found

theorem operatorForm {operator : ParseState} {left : Expr} {terminal : Terminal}
    (found : survey.finds (room + 1) origin operator [.expression left])
    (took : survey.Took operator state terminal) {form : OperatorForm}
    (acts : terminal.denotations.operator? = some form) :
    Attains context tokens state (operatorForm (expression room) terminal left form) fun value after =>
      survey.finds (room + 1) origin after [.expression value] := by
  have binary {right : Expr} {after : ParseState}
      (other : survey.finds room state after [.expression right]) :
      survey.finds (room + 1) origin after [.expression (.binary terminal.head left right)] :=
    have right : survey.finds room operator after ([right].map .expression) := since took.passed other
    survey.folded found took.understood right rfl rfl took.span
  cases form with
  | leftAssociative | rightAssociative =>
      exact .bind (inside _ _) fun _ _ other => .value (binary other)
  | assignment =>
      exact pass here (errorUnless _ _ _) fun _ _ passed => .bind (inside _ _) fun _ _ other =>
        .value (binary (since passed other))
  | step =>
      refine pass took.passed (errorUnless _ _ _) fun _ _ passed => .value ?_
      have steps : Expr.stepIds.contains terminal.head.id = true :=
        (took.known.operator_ids survey.grammar acts).2
      have none : survey.finds room operator _ (([] : List Expr).map .expression) := lift passed
      exact survey.folded found took.understood none (if_pos steps) rfl took.span
  | ternary =>
      refine .bind (inside _ _) fun thenValue _ other =>
        pass (since took.passed other) (expect ":") fun _ _ other =>
          next other (inside _ _) fun elseValue _ others => .value ?_
      have values : survey.finds room operator _ ([thenValue, elseValue].map .expression) := others
      exact survey.folded found took.understood values rfl rfl took.span
  | member => exact .bind property fun _ _ other => .value (binary (lift other))
  | index =>
      exact .bind (inside _ _) fun _ _ other => pass other (expect "]") fun _ _ other => .value (binary other)
  | call =>
      exact .bind (arguments inside) fun values _ others =>
        pass (since took.passed others) (checkCallee _ _) fun _ _ others =>
          .value (calling found took.understood others took.span)

theorem fold {left : Expr} (found : survey.finds (room + 1) origin state [.expression left]) :
    Attains context tokens state (fold (expression room) left) fun value after =>
      survey.finds (room + 1) origin after [.expression value] := by
  refine .bind survey.advance fun terminal _ took => ?_
  cases acts : terminal.denotations.operator? with
  | some form => exact operatorForm inside found took acts
  | none => exact pass (onTo found took.passed) (error _ _) fun _ _ found => .value found

end

theorem expression (room power : Nat) (state : ParseState) :
    survey.Finds room state (expression room power) fun value => [.expression value] := by
  induction room generalizing power state with
  | zero => exact .bind refuse fun _ _ found => .value found.2
  | succ room ih =>
      exact pass here enter fun _ _ passed => .bind (operand ih) fun _ _ found =>
        .bind (.whileToken (fun _ _ found => fold ih found) (since passed found)) fun _ _ found =>
          pass found leave fun _ _ found => .value found

end Survey

end ParseM
end Adventure
