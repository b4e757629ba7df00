import Adventure.Proofs.Faults
import Adventure.Proofs.Meaning
import Adventure.Proofs.Reports

/-!
Accounts. A fault of shape is reported as often as the tree shows it: while a reader makes a value, the
number of its reports grows by what is found in the value. What is skipped is no part of a tree, and no
such fault is reported there.
-/

namespace Adventure

namespace Word

theorem denotations_of_bound {word : Word} (bound : word.isFree = false) :
    word.denotations = Grammar.standard.denotations word.id := by
  obtain ⟨kind, text⟩ := word
  cases kind <;> simp [denotations, id, bound]

end Word

namespace Grammar

theorem operator?_ids (id : String) : (standard.denotations id).operator?.all (fun form =>
    Expr.assignmentIds.contains id == (form == .assignment) &&
      Expr.stepIds.contains id == (form == .step)) = true :=
  @denotations_induction standard (fun id made => made.operator?.all (fun form =>
    Expr.assignmentIds.contains id == (form == .assignment) &&
      Expr.stepIds.contains id == (form == .step)) = true) (by simp) (by decide +kernel) id

theorem operand?_ids (id : String) :
    (standard.denotations id).operand? = some .unaryOperator → Expr.stepIds.contains id = false :=
  @denotations_induction standard (fun id made =>
    made.operand? = some .unaryOperator → Expr.stepIds.contains id = false) (by simp)
    (by decide +kernel) id

end Grammar

namespace ParseM

variable {α β : Type} {context : Context} {tokens : List Token} {fault : Diagnostic}
  {seen : Option Terminal}

theorem Known.acts {terminal : Terminal} (known : Known context tokens terminal)
    (grammar : context.grammar = Grammar.standard) :
    terminal.denotations = Grammar.standard.denotations terminal.id ∨
      terminal.denotations = Denotations.identifier ∨
        terminal.denotations = Grammar.undefinedName.denotations := by
  rcases known with rfl | ⟨token, _, _, means⟩
  · refine .inl ?_
    simp only [endTerminal, grammar]
    rfl
  · rcases means.denotations with same | ⟨_, same⟩
    · cases free : token.word.isFree with
      | true => exact .inr (.inr (same.trans (Terminal.Fits.denotations_of_free free)))
      | false => exact .inl (same.trans (means.id ▸ Word.denotations_of_bound free))
    · exact .inr (.inl same)

theorem Known.operator_ids {terminal : Terminal} (known : Known context tokens terminal)
    (grammar : context.grammar = Grammar.standard) {form : OperatorForm}
    (acts : terminal.denotations.operator? = some form) :
    Expr.assignmentIds.contains terminal.id = (form == .assignment) ∧
      Expr.stepIds.contains terminal.id = (form == .step) := by
  have ids := Grammar.operator?_ids terminal.id
  rcases known.acts grammar with same | same | same
  · rw [← same, acts] at ids
    simpa using ids
  · simp [same, Denotations.identifier] at acts
  · simp [same, Grammar.undefinedName] at acts

theorem Known.unary_ids {terminal : Terminal} (known : Known context tokens terminal)
    (grammar : context.grammar = Grammar.standard)
    (acts : terminal.denotations.operand? = some .unaryOperator) :
    Expr.stepIds.contains terminal.id = false := by
  rcases known.acts grammar with same | same | same
  · exact Grammar.operand?_ids terminal.id (same ▸ acts)
  · simp [same, Denotations.identifier] at acts
  · simp [same, Grammar.undefinedName] at acts

structure Audit (context : Context) (tokens : List Token) (fault : Diagnostic) : Prop where
  grammar : context.grammar = Grammar.standard
  lexical : ∀ token ∈ tokens, token.Lexical
  shape : fault.problem.isShape = true

theorem Audit.kept (audit : Audit context tokens fault) :
    Keeps context (Known context tokens) (Understood context tokens) :=
  understood_kept audit.grammar audit.lexical

/-- Where the lookahead is the one that was seen, if one was, the fault is reported as many times as the
value that is made accounts for. -/
def Accounts (context : Context) (tokens : List Token) (fault : Diagnostic) (seen : Option Terminal)
    (action : ParseM α) (makes : α → Nat → Prop) : Prop :=
  Audit context tokens fault → ∀ state, Understood context tokens state →
    (∀ token ∈ seen, state.token = token) →
    Understood context tokens (action.run context state).2 ∧ ∃ count,
      (action.run context state).2.diagnostics.count fault = state.diagnostics.count fault + count ∧
        makes (action.run context state).1 count

/-- The fault is not reported, and the value has the property. -/
abbrev Faultless (context : Context) (tokens : List Token) (fault : Diagnostic) (seen : Option Terminal)
    (action : ParseM α) (makes : α → Prop) : Prop :=
  Accounts context tokens fault seen action fun value count => count = 0 ∧ makes value

theorem count_of_others (shape : fault.problem.isShape = true) {before added : Diagnostics}
    (others : ∀ diagnostic ∈ added, diagnostic.problem.isShape = false) :
    (before ++ added).count fault = before.count fault := by
  have absent : fault ∉ added := by
    intro member
    have other := others fault member
    rw [shape] at other
    cases other
  rw [List.count_append, List.count_eq_zero.mpr absent, Nat.add_zero]

theorem isShape_of_complaints (passed : List Token) :
    ∀ diagnostic ∈ passed.flatMap (Token.complaints context.grammar),
      diagnostic.problem.isShape = false := by
  intro diagnostic member
  obtain ⟨token, _, complaint⟩ := List.mem_flatMap.mp member
  have lexical := token.isLexical_of_complaints context.grammar diagnostic complaint
  cases problem : diagnostic.problem <;> simp_all [Problem.isLexical, Problem.isShape]

namespace Accounts

variable {action : ParseM α} {makes weaker : α → Nat → Prop}

/-! How values are put together. -/

theorem given (accounts : Audit context tokens fault → Accounts context tokens fault seen action makes) :
    Accounts context tokens fault seen action makes :=
  fun audit => accounts audit audit

theorem value {value : α} (holds : makes value 0) :
    Accounts context tokens fault seen (pure value) makes :=
  fun _ _ before _ => ⟨before, 0, rfl, holds⟩

theorem bind {first : ParseM α} {next : α → ParseM β} {others : β → Nat → Prop}
    (begins : Accounts context tokens fault seen first makes)
    (goes : ∀ value count, makes value count → Accounts context tokens fault none (next value)
      fun result more => others result (count + more)) :
    Accounts context tokens fault seen (first >>= next) others := by
  intro audit state before same
  obtain ⟨middle, count, counted, holds⟩ := begins audit state before same
  obtain ⟨last, more, countedMore, made⟩ := goes _ count holds audit _ middle (by simp)
  refine ⟨last, count + more, ?_, made⟩
  rw [run_bind, countedMore, counted, Nat.add_assoc]

theorem after {first : ParseM α} {next : α → ParseM β} {holds : α → Prop} {others : β → Nat → Prop}
    (faultless : Faultless context tokens fault seen first holds)
    (goes : ∀ value, holds value → Accounts context tokens fault none (next value) others) :
    Accounts context tokens fault seen (first >>= next) others := by
  refine bind faultless fun value count counted => ?_
  obtain ⟨rfl, held⟩ := counted
  simpa only [Nat.zero_add] using goes value held

theorem look {next : Terminal → ParseM α}
    (goes : ∀ token, Known context tokens token →
      Accounts context tokens fault (some token) (next token) makes) :
    Accounts context tokens fault seen (current >>= next) makes :=
  fun audit state before _ => goes state.token before.lookahead audit state before (by simp)

theorem take {next : Terminal → ParseM α}
    (goes : ∀ terminal, Known context tokens terminal → (∀ token ∈ seen, terminal = token) →
      Accounts context tokens fault none (next terminal) makes) :
    Accounts context tokens fault seen (advance >>= next) makes := by
  intro audit state before same
  obtain ⟨terminal, passed, pending, events, ran, _⟩ := @advance_run context state
  have middle := audit.kept.take before
  -- What is skipped on the way to the next terminal is only lexically wrong.
  have counted : (advance.run context state).2.diagnostics.count fault = state.diagnostics.count fault := by
    rw [ran]
    exact count_of_others audit.shape (isShape_of_complaints passed)
  obtain ⟨last, more, countedMore, made⟩ :=
    goes state.token before.lookahead same audit _ middle (by simp)
  rw [run_bind, advance_value]
  exact ⟨last, more, by rw [countedMore, counted], made⟩

theorem ite {condition : Prop} [Decidable condition] {yes no : ParseM α}
    (holds : condition → Accounts context tokens fault seen yes makes)
    (fails : ¬condition → Accounts context tokens fault seen no makes) :
    Accounts context tokens fault seen (if condition then yes else no) makes := by
  by_cases decided : condition
  · simpa only [decided, if_true] using holds decided
  · simpa only [decided, if_false] using fails decided

theorem weaken (accounts : Accounts context tokens fault none action makes) :
    Accounts context tokens fault seen action makes :=
  fun audit state before _ => accounts audit state before (by simp)

theorem imp (accounts : Accounts context tokens fault seen action makes)
    (less : ∀ value count, makes value count → weaker value count) :
    Accounts context tokens fault seen action weaker := by
  intro audit state before same
  obtain ⟨last, count, counted, made⟩ := accounts audit state before same
  exact ⟨last, count, counted, less _ _ made⟩

theorem whileToken {again : Terminal → Bool} {body : α → ParseM α} {value : α}
    (round : ∀ value count, makes value count → Accounts context tokens fault none (body value)
      fun result more => makes result (count + more))
    (holds : makes value 0) : Accounts context tokens fault seen (whileToken again body value) makes := by
  intro audit state before _
  have rounds (value : α) (last : ParseState) :
      (Understood context tokens last ∧ ∃ count,
        last.diagnostics.count fault = state.diagnostics.count fault + count ∧ makes value count) →
      Understood context tokens ((body value).run context last).2 ∧ ∃ count,
        ((body value).run context last).2.diagnostics.count fault =
          state.diagnostics.count fault + count ∧ makes ((body value).run context last).1 count := by
    rintro ⟨understood, count, counted, made⟩
    obtain ⟨next, more, countedMore, makesMore⟩ := round value count made audit last understood (by simp)
    exact ⟨next, count + more, by rw [countedMore, counted, Nat.add_assoc], makesMore⟩
  exact whileToken_invariant rounds value state ⟨before, 0, rfl, holds⟩

/-! The small steps. -/

theorem understood_alike {before after : ParseState} (alike : Alike before after)
    (understood : Understood context tokens before) : Understood context tokens after := by
  refine ⟨alike.scopes ▸ understood.bindings, understood.ended.of_eq alike.token alike.pending, ?_,
    alike.token ▸ understood.lookahead⟩
  rw [ParseState.ahead, alike.token, alike.pending]
  exact understood.ahead

theorem report (diagnostic : Diagnostic) : Accounts context tokens fault seen (report diagnostic)
    fun _ count => count = [diagnostic].count fault := by
  intro _ state before _
  refine ⟨understood_alike ?_ before, _, ?_, rfl⟩
  · exact ⟨rfl, rfl, rfl, rfl⟩
  · rw [run_report, List.count_append]

theorem errorUnless (met : Bool) (problem : Problem) (span : Span) :
    Accounts context tokens fault seen (errorUnless met problem span) fun _ count =>
      count = (if met then [] else [⟨problem, span, .error⟩]).count fault := by
  unfold ParseM.errorUnless
  cases met with
  | true => exact value rfl
  | false => exact report _

theorem warningUnless (met : Bool) (problem : Problem) (span : Span) :
    Accounts context tokens fault seen (warningUnless met problem span) fun _ count =>
      count = (if met then [] else [⟨problem, span, .warning⟩]).count fault := by
  unfold ParseM.warningUnless
  cases met with
  | true => exact value rfl
  | false => exact report _

end Accounts

namespace Faultless

open Accounts

theorem still {action : ParseM α} (alike : ∀ state, Alike state (action.run context state).2)
    (others : ∀ state, ∃ added, (action.run context state).2.diagnostics = state.diagnostics ++ added ∧
      ∀ diagnostic ∈ added, diagnostic.problem.isShape = false) :
    Faultless context tokens fault seen action fun _ => True := by
  intro audit state before _
  obtain ⟨added, reported, others⟩ := others state
  refine ⟨understood_alike (alike state) before, 0, ?_, rfl, trivial⟩
  rw [reported, count_of_others audit.shape others, Nat.add_zero]

theorem report {diagnostic : Diagnostic} (other : diagnostic.problem.isShape = false) :
    Faultless context tokens fault seen (report diagnostic) fun _ => True :=
  still (fun _ => ⟨rfl, rfl, rfl, rfl⟩) fun _ => ⟨[diagnostic], rfl, by simpa using other⟩

theorem error {problem : Problem} (other : problem.isShape = false) (span : Span) :
    Faultless context tokens fault seen (error problem span) fun _ => True :=
  report other

theorem warning {problem : Problem} (other : problem.isShape = false) (span : Span) :
    Faultless context tokens fault seen (warning problem span) fun _ => True :=
  report other

theorem errorUnless (met : Bool) {problem : Problem} (other : problem.isShape = false) (span : Span) :
    Faultless context tokens fault seen (errorUnless met problem span) fun _ => True :=
  ite (fun _ => value ⟨rfl, trivial⟩) fun _ => error other span

theorem warningUnless (met : Bool) {problem : Problem} (other : problem.isShape = false) (span : Span) :
    Faultless context tokens fault seen (warningUnless met problem span) fun _ => True :=
  ite (fun _ => value ⟨rfl, trivial⟩) fun _ => warning other span

theorem log (event : Event) : Faultless context tokens fault seen (log event) fun _ => True :=
  still (fun _ => ⟨rfl, rfl, rfl, rfl⟩) fun _ => ⟨[], by simp, by simp⟩

theorem noteOccurrence (terminal : Terminal) :
    Faultless context tokens fault seen (noteOccurrence terminal) fun _ => True :=
  still (fun _ => ⟨rfl, rfl, rfl, rfl⟩) fun _ => ⟨[], by simp [ParseM.noteOccurrence], by simp⟩

theorem enter : Faultless context tokens fault seen enter fun _ => True :=
  still (fun _ => ⟨rfl, rfl, rfl, rfl⟩) fun _ => ⟨[], by simp [ParseM.enter], by simp⟩

theorem leave : Faultless context tokens fault seen leave fun _ => True :=
  still (fun _ => ⟨rfl, rfl, rfl, rfl⟩) fun _ => ⟨[], by simp [ParseM.leave], by simp⟩

theorem lastSpan : Faultless context tokens fault seen lastSpan fun _ => True :=
  still (fun _ => ⟨rfl, rfl, rfl, rfl⟩) fun _ => ⟨[], by simp [ParseM.lastSpan], by simp⟩

theorem reportDepth : Faultless context tokens fault seen reportDepth fun _ => True := by
  refine still reportDepth_alike fun state => ?_
  rw [reportDepth_run]
  cases state.depthReported with
  | true => exact ⟨[], by simp, by simp⟩
  | false => exact ⟨_, rfl, by simp [Problem.isShape]⟩

theorem isShape_of_isBinding {problem : Problem} (binding : problem.isBinding = true) :
    problem.isShape = false := by
  cases problem <;> first | rfl | cases binding

theorem adopt {action : ParseM Unit} {outcome : ParseState → ScopeTree × Option Diagnostic}
    (plain : Plain (Known context tokens) action)
    (ran : ∀ state, (action.run context state).2.diagnostics = state.diagnostics ++ (outcome state).2.toList)
    (binding : ∀ state, ∀ diagnostic ∈ (outcome state).2, diagnostic.problem.isBinding = true) :
    Faultless context tokens fault seen action fun _ => True := by
  intro audit state before _
  refine ⟨audit.kept.plain plain before, 0, ?_, rfl, trivial⟩
  rw [ran, count_of_others audit.shape, Nat.add_zero]
  intro diagnostic member
  exact isShape_of_isBinding (binding state diagnostic (by simpa using member))

theorem define {terminal : Terminal} (known : Known context tokens terminal) (arity : Arity)
    (valueType? : Option ValueType) :
    Faultless context tokens fault seen (define terminal arity valueType?) fun _ => True :=
  adopt (.define known arity valueType?) (fun state => by rw [define_run])
    fun _ => ScopeTree.isBinding_of_define _ _ _

theorem reserve {terminal : Terminal} (known : Known context tokens terminal) :
    Faultless context tokens fault seen (reserve terminal) fun _ => True :=
  adopt (.reserve known) (fun state => by rw [reserve_run]) fun _ => ScopeTree.isBinding_of_reserve _ _ _

theorem advance : Faultless context tokens fault seen advance (Known context tokens) := by
  have taken : Faultless context tokens fault seen (ParseM.advance >>= fun terminal => pure terminal)
      (Known context tokens) := take fun _ known _ => value ⟨rfl, known⟩
  simpa only [bind_pure] using taken

theorem skip : Faultless context tokens fault seen skip fun _ => True :=
  after advance fun _ _ => value ⟨rfl, trivial⟩

theorem expect (id : String) : Faultless context tokens fault seen (expect id) fun _ => True :=
  look fun _ _ => after (errorUnless _ rfl _) fun _ _ => advance.imp fun _ _ made => ⟨made.1, trivial⟩

theorem advanceUnlessCloser :
    Faultless context tokens fault seen advanceUnlessCloser (Known context tokens) :=
  look fun _ known => ite (fun _ => value ⟨rfl, known⟩) fun _ => advance

theorem expectSemicolon : Faultless context tokens fault seen expectSemicolon fun _ => True := by
  rw [expectSemicolon_eq]
  exact look fun _ _ => ite (fun _ => skip) fun _ => after lastSpan fun _ _ => error rfl _

theorem recover (skipped : Terminal → Bool) :
    Faultless context tokens fault seen (recover skipped) fun _ => True :=
  look fun _ _ => after (error rfl _) fun _ _ =>
    Accounts.whileToken (fun _ _ made => skip.imp fun _ _ more => ⟨by rw [made.1, more.1], trivial⟩)
      ⟨rfl, trivial⟩

theorem refuse : Faultless context tokens fault seen refuse fun _ => True :=
  after reportDepth fun _ _ => look fun _ _ => ite (fun _ => value ⟨rfl, trivial⟩) fun _ =>
    after advance fun _ _ => value ⟨rfl, trivial⟩

end Faultless

namespace Accounts

/-! Lists between commas. -/

section

variable {item : ParseM α} {makes : α → Nat → Prop} {makesAll : List α → Nat → Prop}

theorem afterCommas (each : Accounts context tokens fault none item makes)
    (snoc : ∀ values count value more, makesAll values count → makes value more →
      makesAll (values ++ [value]) (count + more)) {first : α} {count : Nat} (one : makesAll [first] count) :
    Accounts context tokens fault seen (afterCommas item first) fun values more =>
      makesAll values (count + more) :=
  whileToken (fun values _ all => after (Faultless.expect ",") fun _ _ => bind each fun next more holds =>
    value (by simpa only [Nat.add_assoc, Nat.add_zero] using snoc values _ next more all holds)) one

theorem commaList (closing : String) (each : Accounts context tokens fault none item makes)
    (snoc : ∀ values count value more, makesAll values count → makes value more →
      makesAll (values ++ [value]) (count + more)) (empty : makesAll [] 0) :
    Accounts context tokens fault seen (commaList closing item) makesAll :=
  look fun _ _ => ite (fun _ => value empty) fun _ => bind each.weaken fun first count holds =>
    afterCommas each snoc (by simpa using snoc [] 0 first count empty holds)

end

theorem inScope {body : Open α} (closable : Closable body) {room : Nat} {makes : α → Nat → Prop}
    (accounts : Accounts context tokens fault none (body (expression room) (statement room)) makes) :
    Accounts context tokens fault seen (inScope (body (expression room) (statement room))) makes := by
  intro audit state before _
  have opened := audit.kept.push before
  obtain ⟨inside, count, counted, made⟩ := accounts audit _ opened (by simp)
  have closed := audit.kept.pop (closable.closing room _) inside
  refine ⟨closed, count, ?_, made⟩
  have silent (last : ParseState) :
      (popScope.run context last).2.diagnostics = last.diagnostics := by
    simp only [popScope, run_get_bind]
    cases last.scopes.pop last.scope <;> rfl
  rw [inScope_run, silent, counted]
  rfl

end Accounts

end ParseM

end Adventure
