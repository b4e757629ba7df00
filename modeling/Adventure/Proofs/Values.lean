import Adventure.Proofs.Invariants

/-!
Values. What readers make is followed together with the state they leave: a discipline says what is known
of the terminals, what holds of the states and how one state may follow on another, and what the text and
the span of a node have to do with each other. All readers that declare nothing keep to any discipline;
those that declare names are left to each discipline.
-/

namespace Adventure

def AllFit (fits : String → Span → Prop) (nodes : List Node) : Prop :=
  ∀ node ∈ nodes, fits node.head.text node.head.span

section

variable {fits : String → Span → Prop} {nodes others : List Node}

@[simp] theorem allFit_nil : AllFit fits [] := by
  simp [AllFit]

@[simp] theorem allFit_cons {node : Node} :
    AllFit fits (node :: nodes) ↔ fits node.head.text node.head.span ∧ AllFit fits nodes :=
  List.forall_mem_cons

@[simp] theorem allFit_append :
    AllFit fits (nodes ++ others) ↔ AllFit fits nodes ∧ AllFit fits others :=
  List.forall_mem_append

@[simp] theorem head_atom (leaf : Atom) : leaf.node.head = leaf.head := rfl

@[simp] theorem head_expression (value : Expr) : (Node.expression value).head = value.head := rfl

theorem AllFit.parenthesize {value : Expr} (all : AllFit fits value.walk) :
    AllFit fits value.parenthesize.walk := by
  cases value <;> simpa [Expr.parenthesize, Expr.walk, Expr.head] using all

theorem AllFit.calling {head : Head} {callee : Expr} {arguments : List Expr}
    (here : fits head.text head.span) (left : AllFit fits callee.walk)
    (inside : AllFit fits (Expr.walkAll arguments)) :
    AllFit fits (callee.calling head arguments).walk := by
  have plain : AllFit fits (Expr.call head callee arguments).walk := by
    simpa [Expr.walk] using ⟨here, left, inside⟩
  cases callee with
  | binary access object member =>
      simp only [Expr.calling]
      split
      · simp only [Expr.walk, allFit_cons, allFit_append] at left ⊢
        exact ⟨here, ⟨left.2.1, left.2.2⟩, inside⟩
      · exact plain
  | _ => exact plain

theorem Expr.walkAll_append (first second : List Expr) :
    Expr.walkAll (first ++ second) = Expr.walkAll first ++ Expr.walkAll second := by
  simp [Expr.walkAll_eq_flatMap]

theorem Stmt.walkAll_append (first second : List Stmt) :
    Stmt.walkAll (first ++ second) = Stmt.walkAll first ++ Stmt.walkAll second := by
  simp [Stmt.walkAll_eq_flatMap]

end

namespace ParseM

/-- What is followed through the readers that declare nothing. -/
structure Discipline (context : Context) where
  /-- Known of the terminals that are read. -/
  known : Terminal → Prop
  /-- Relates the text and the span of a node. -/
  fits : String → Span → Prop
  holds : ParseState → Prop
  /-- How a later state may differ from an earlier one. -/
  follows : ParseState → ParseState → Prop
  refl (state : ParseState) : follows state state
  trans {first second third : ParseState} :
    follows first second → follows second third → follows first third
  fitting {terminal : Terminal} : known terminal → fits terminal.text terminal.span
  lookahead {state : ParseState} : holds state → known state.token
  take {state : ParseState} : holds state →
    holds (advance.run context state).2 ∧ follows state (advance.run context state).2
  still {before after : ParseState} : Alike before after → holds before →
    holds after ∧ follows before after
  reserve {terminal : Terminal} {state : ParseState} : known terminal → holds state →
    holds (reserve terminal |>.run context state).2 ∧
      follows state (reserve terminal |>.run context state).2

variable {α β : Type} {context : Context} {discipline : Discipline context} {seen : Option Terminal}

abbrev Discipline.Sited (discipline : Discipline context) (nodes : List Node) : Prop :=
  AllFit discipline.fits nodes

theorem Discipline.atom (discipline : Discipline context) {terminal : Terminal}
    (known : discipline.known terminal) (kind : AtomKind) :
    discipline.Sited (Expr.atom (terminal.atom kind)).walk :=
  allFit_cons.mpr ⟨discipline.fitting known, allFit_nil⟩

/-- Where the lookahead is the one that was seen, if one was, the reader makes a value with the property,
and the state keeps to the discipline. -/
def Yields (discipline : Discipline context) (seen : Option Terminal) (action : ParseM α)
    (makes : α → Prop) : Prop :=
  ∀ state, discipline.holds state → (∀ token ∈ seen, state.token = token) →
    makes (action.run context state).1 ∧ discipline.holds (action.run context state).2 ∧
      discipline.follows state (action.run context state).2

namespace Yields

variable {makes : α → Prop} {others : β → Prop}

/-! How values are put together. -/

theorem value {value : α} (holds : makes value) : Yields discipline seen (pure value) makes :=
  fun state before _ => ⟨holds, before, discipline.refl state⟩

theorem bind {first : ParseM α} {next : α → ParseM β} (begins : Yields discipline seen first makes)
    (goes : ∀ value, makes value → Yields discipline none (next value) others) :
    Yields discipline seen (first >>= next) others := by
  intro state before same
  obtain ⟨holds, middle, follows⟩ := begins state before same
  obtain ⟨made, last, onward⟩ := goes _ holds _ middle (by simp)
  exact ⟨made, last, discipline.trans follows onward⟩

theorem look {next : Terminal → ParseM α}
    (goes : ∀ token, discipline.known token → Yields discipline (some token) (next token) makes) :
    Yields discipline seen (current >>= next) makes :=
  fun state before _ => goes state.token (discipline.lookahead before) state before (by simp)

theorem again {token : Terminal} {next : Terminal → ParseM α}
    (goes : Yields discipline (some token) (next token) makes) :
    Yields discipline (some token) (current >>= next) makes := by
  intro state before same
  obtain rfl : state.token = token := same token rfl
  exact goes state before same

theorem take {next : Terminal → ParseM α}
    (goes : ∀ terminal, discipline.known terminal → (∀ token ∈ seen, terminal = token) →
      Yields discipline none (next terminal) makes) :
    Yields discipline seen (advance >>= next) makes := by
  intro state before same
  obtain ⟨middle, follows⟩ := discipline.take before
  rw [run_bind, advance_value]
  obtain ⟨made, last, onward⟩ :=
    goes state.token (discipline.lookahead before) same _ middle (by simp)
  exact ⟨made, last, discipline.trans follows onward⟩

theorem ite {condition : Prop} [Decidable condition] {yes no : ParseM α}
    (holds : condition → Yields discipline seen yes makes)
    (fails : ¬condition → Yields discipline seen no makes) :
    Yields discipline seen (if condition then yes else no) makes := by
  by_cases decided : condition
  · simpa only [decided, if_true] using holds decided
  · simpa only [decided, if_false] using fails decided

theorem weaken {action : ParseM α} (yields : Yields discipline none action makes) :
    Yields discipline seen action makes :=
  fun state before _ => yields state before (by simp)

theorem imp {action : ParseM α} {weaker : α → Prop} (yields : Yields discipline seen action makes)
    (less : ∀ value, makes value → weaker value) : Yields discipline seen action weaker :=
  fun state before same => (yields state before same).imp_left (less _)

theorem still {action : ParseM α} (alike : ∀ state, Alike state (action.run context state).2) :
    Yields discipline seen action fun _ => True :=
  fun state before _ => ⟨trivial, discipline.still (alike state) before⟩

theorem pass {first : ParseM α} {next : α → ParseM β}
    (alike : ∀ state, Alike state (first.run context state).2)
    (goes : ∀ value, Yields discipline seen (next value) others) :
    Yields discipline seen (first >>= next) others := by
  intro state before same
  obtain ⟨middle, follows⟩ := discipline.still (alike state) before
  have seen := (alike state).token
  obtain ⟨made, last, onward⟩ := goes _ _ middle fun token found => seen.trans (same token found)
  exact ⟨made, last, discipline.trans follows onward⟩

theorem whileToken {again : Terminal → Bool} {body : α → ParseM α} {value : α}
    (round : ∀ value, makes value → Yields discipline none (body value) makes)
    (holds : makes value) : Yields discipline seen (whileToken again body value) makes := by
  intro state before _
  have rounds (value : α) (last : ParseState) :
      (makes value ∧ discipline.holds last ∧ discipline.follows state last) →
        makes ((body value).run context last).1 ∧
          discipline.holds ((body value).run context last).2 ∧
            discipline.follows state ((body value).run context last).2 := by
    intro reached
    obtain ⟨made, after, onward⟩ := round value reached.1 last reached.2.1 (by simp)
    exact ⟨made, after, discipline.trans reached.2.2 onward⟩
  exact whileToken_invariant rounds value state ⟨holds, before, discipline.refl state⟩

/-! The small steps. -/

theorem error (problem : Problem) (span : Span) :
    Yields discipline seen (error problem span) fun _ => True :=
  still fun _ => ⟨rfl, rfl, rfl, rfl⟩

theorem warning (problem : Problem) (span : Span) :
    Yields discipline seen (warning problem span) fun _ => True :=
  still fun _ => ⟨rfl, rfl, rfl, rfl⟩

theorem errorUnless (met : Bool) (problem : Problem) (span : Span) :
    Yields discipline seen (errorUnless met problem span) fun _ => True :=
  ite (fun _ => value trivial) fun _ => error problem span

theorem warningUnless (met : Bool) (problem : Problem) (span : Span) :
    Yields discipline seen (warningUnless met problem span) fun _ => True :=
  ite (fun _ => value trivial) fun _ => warning problem span

theorem log (event : Event) : Yields discipline seen (log event) fun _ => True :=
  still fun _ => ⟨rfl, rfl, rfl, rfl⟩

theorem noteOccurrence (terminal : Terminal) :
    Yields discipline seen (noteOccurrence terminal) fun _ => True :=
  still fun _ => ⟨rfl, rfl, rfl, rfl⟩

theorem enter : Yields discipline seen enter fun _ => True :=
  still fun _ => ⟨rfl, rfl, rfl, rfl⟩

theorem leave : Yields discipline seen leave fun _ => True :=
  still fun _ => ⟨rfl, rfl, rfl, rfl⟩

theorem reserve {terminal : Terminal} (held : discipline.known terminal) :
    Yields discipline seen (reserve terminal) fun _ => True :=
  fun _ before _ => ⟨trivial, discipline.reserve held before⟩

theorem advance : Yields discipline seen advance discipline.known := by
  have taken : Yields discipline seen (ParseM.advance >>= fun terminal => pure terminal)
      discipline.known := take fun _ held _ => value held
  simpa only [bind_pure] using taken

theorem skip : Yields discipline seen skip fun _ => True :=
  bind advance fun _ _ => value trivial

theorem expect (id : String) : Yields discipline seen (expect id) fun _ => True :=
  look fun _ _ => bind (errorUnless _ _ _) fun _ _ => advance.imp fun _ _ => trivial

theorem advanceUnlessCloser :
    Yields discipline seen advanceUnlessCloser discipline.known :=
  look fun _ held => ite (fun _ => value held) fun _ => advance

theorem expectSemicolon : Yields discipline seen expectSemicolon fun _ => True := by
  rw [expectSemicolon_eq]
  exact look fun _ _ => ite (fun _ => skip) fun _ =>
    bind (still fun _ => ⟨rfl, rfl, rfl, rfl⟩) fun _ _ => error _ _

theorem recover (skipped : Terminal → Bool) :
    Yields discipline seen (recover skipped) fun _ => True :=
  look fun _ _ => bind (error _ _) fun _ _ => whileToken (fun _ _ => skip) trivial

theorem refuse : Yields discipline seen refuse fun leaf =>
    discipline.fits leaf.head.text leaf.head.span :=
  bind (still reportDepth_alike) fun _ _ => look fun _ held =>
    ite (fun _ => value (discipline.fitting held)) fun _ => bind advance fun _ taken =>
      value (discipline.fitting taken)

/-! Lists between commas. -/

section

variable {item : ParseM α} {makesAll : List α → Prop}

theorem afterCommas (each : Yields discipline none item makes)
    (snoc : ∀ values value, makesAll values → makes value → makesAll (values ++ [value]))
    {first : α} (one : makesAll [first]) :
    Yields discipline seen (afterCommas item first) makesAll :=
  whileToken (fun values all => bind (expect ",") fun _ _ => bind each fun next holds =>
    value (snoc values next all holds)) one

theorem commaList (closing : String) (each : Yields discipline none item makes)
    (snoc : ∀ values value, makesAll values → makes value → makesAll (values ++ [value]))
    (empty : makesAll []) : Yields discipline seen (commaList closing item) makesAll :=
  look fun _ _ => ite (fun _ => value empty) fun _ => bind each.weaken fun first holds =>
    afterCommas each snoc (snoc [] first empty holds)

end

/-! Expressions. -/

section

variable {room : Nat}
  (inside : ∀ power, Yields discipline none (expression room power) fun value =>
    discipline.Sited value.walk)

include inside

theorem operandForm {terminal : Terminal} (held : discipline.known terminal) (form : OperandForm) :
    Yields discipline seen (operandForm (expression room) terminal form) fun value =>
      discipline.Sited value.walk := by
  cases form with
  | itself | literal => exact value (discipline.atom held _)
  | undefinedName => exact bind (noteOccurrence terminal) fun _ _ => value (discipline.atom held _)
  | constant | thisObject | superObject => exact bind (reserve held) fun _ _ => value (discipline.atom held _)
  | unaryOperator =>
      exact bind (reserve held) fun _ _ => bind (inside _) fun operand sited =>
        value (by simpa [Expr.walk] using ⟨discipline.fitting held, sited⟩)
  | group =>
      exact bind (inside _).weaken fun grouped sited => bind (expect ")") fun _ _ =>
        value sited.parenthesize

theorem operand : Yields discipline seen (operand (expression room)) fun value =>
    discipline.Sited value.walk := by
  refine look fun token _ => ?_
  cases token.denotations.operand? with
  | some form => exact take fun terminal held _ => operandForm inside held form
  | none =>
      exact bind (error _ _) fun _ _ => bind advanceUnlessCloser fun terminal held =>
        value (discipline.atom held _)

omit inside in
theorem property : Yields discipline seen property fun value =>
    discipline.Sited value.walk := by
  refine look fun token _ => ite (fun _ => ?_) fun _ => ?_
  · exact bind advance fun name held => value (discipline.atom held _)
  · exact bind (error _ _) fun _ _ => bind advanceUnlessCloser fun terminal held =>
      value (discipline.atom held _)

theorem arguments : Yields discipline seen (arguments (expression room)) fun values =>
    discipline.Sited (Expr.walkAll values) := by
  refine bind (commaList ")" (inside _) (fun values next all sited => ?_) ?_) fun values all =>
    bind (expect ")") fun _ _ => value all
  · simpa [Expr.walkAll_append, Expr.walkAll] using ⟨all, sited⟩
  · simp [Expr.walkAll]

omit inside in
theorem checkCallee (call callee : Expr) :
    Yields discipline seen (checkCallee call callee) fun _ => True := by
  cases call with
  | call => exact errorUnless _ _ _
  | _ => exact value trivial

theorem operatorForm {terminal : Terminal} (held : discipline.known terminal) {left : Expr}
    (sited : discipline.Sited left.walk) (form : OperatorForm) :
    Yields discipline seen (operatorForm (expression room) terminal left form) fun value =>
      discipline.Sited value.walk := by
  have binary {right : Expr} (other : discipline.Sited right.walk) :
      discipline.Sited (Expr.binary terminal.head left right).walk := by
    simpa [Expr.walk] using ⟨discipline.fitting held, sited, other⟩
  cases form with
  | leftAssociative | rightAssociative =>
      exact bind (inside _).weaken fun right other => value (binary other)
  | assignment =>
      exact bind (errorUnless _ _ _) fun _ _ => bind (inside _) fun right other =>
        value (binary other)
  | step =>
      exact bind (errorUnless _ _ _) fun _ _ =>
        value (by simpa [Expr.walk] using ⟨discipline.fitting held, sited⟩)
  | ternary =>
      exact bind (inside _).weaken fun thenValue thenSited => bind (expect ":") fun _ _ =>
        bind (inside _) fun elseValue elseSited =>
          value (by simpa [Expr.walk] using ⟨discipline.fitting held, sited, thenSited, elseSited⟩)
  | member => exact bind property fun right other => value (binary other)
  | index =>
      exact bind (inside _).weaken fun right other => bind (expect "]") fun _ _ =>
        value (binary other)
  | call =>
      exact bind (arguments inside) fun values all => bind (checkCallee _ _) fun _ _ =>
        value (AllFit.calling (discipline.fitting held) sited all)

theorem fold {left : Expr} (sited : discipline.Sited left.walk) :
    Yields discipline seen (fold (expression room) left) fun value =>
      discipline.Sited value.walk := by
  refine take fun terminal held _ => ?_
  cases terminal.denotations.operator? with
  | some form => exact operatorForm inside held sited form
  | none => exact bind (error _ _) fun _ _ => value sited

end

theorem expression (room power : Nat) :
    Yields discipline seen (expression room power) fun value =>
      discipline.Sited value.walk := by
  induction room generalizing power seen with
  | zero => exact bind refuse fun leaf fits => value (by simpa [Expr.walk] using fits)
  | succ room ih =>
      exact bind enter fun _ _ => bind (operand fun _ => ih _) fun left sited =>
        bind (whileToken (fun _ sited => fold (fun _ => ih _) sited) sited) fun made final =>
          bind leave fun _ _ => value final

/-! Statements. -/

theorem atBrace : Yields discipline seen atBrace fun _ => True :=
  look fun _ _ => bind (errorUnless _ _ _) fun _ _ => value trivial

theorem parenthesized {room : Nat} : Yields discipline seen (parenthesized (ParseM.expression room))
    fun value => discipline.Sited value.walk :=
  bind (expect "(") fun _ _ => bind (expression room _) fun _ sited =>
    bind (expect ")") fun _ _ => value sited

theorem optional {room : Nat} (closing : String) :
    Yields discipline seen (optional (ParseM.expression room) closing) fun value? =>
      discipline.Sited (value?.toList.flatMap Expr.walk) :=
  look fun _ _ => ite (fun _ => value (by simp)) fun _ => bind (expression room _) fun made sited =>
    value (by simpa using sited)

theorem takeAtom : Yields discipline seen takeAtom fun leaf =>
    discipline.Sited [leaf.node] := by
  refine look fun token held => ite (fun _ => value (discipline.atom held _)) fun _ =>
    bind advance fun terminal taken => value ?_
  unfold atomOf
  split <;> exact discipline.atom taken _

theorem verb {terminal : Terminal} (held : discipline.known terminal) :
    Yields discipline seen (verb terminal) fun made => discipline.Sited made.walk := by
  have noted (token : Terminal) : Yields discipline (some token) (noteIfUndefined token)
      fun _ => True := by
    refine bind (still fun _ => ⟨rfl, rfl, rfl, rfl⟩) fun found _ => ?_
    exact ite (fun _ => noteOccurrence token) fun _ => value trivial
  refine bind (expect "(") fun _ _ => bind (look fun _ _ => errorUnless _ _ _) fun _ _ =>
    bind takeAtom fun word wordSited => bind (expect ",") fun _ _ =>
    bind (look fun _ _ => ite (fun _ => noted _) fun _ => warning _ _) fun _ _ =>
    bind takeAtom fun action actionSited => bind (expect ",") fun _ _ =>
    bind (look fun _ _ => warningUnless _ _ _) fun _ _ =>
    bind takeAtom fun flags flagsSited => bind (expect ")") fun _ _ =>
    bind expectSemicolon fun _ _ => value ?_
  simp only [allFit_cons, allFit_nil, and_true] at wordSited actionSited flagsSited
  simpa [Stmt.walk] using ⟨discipline.fitting held, wordSited, actionSited, flagsSited⟩

theorem abstractModifier : Yields discipline seen abstractModifier fun _ => True :=
  look fun _ _ => ite (fun _ => bind advance fun _ held => bind (reserve held) fun _ _ =>
    value trivial) fun _ => value trivial

theorem superclassName : Yields discipline seen superclassName fun name? =>
    discipline.Sited (name?.toList.map Atom.node) :=
  look fun _ _ => ite (fun _ => bind advance fun name held => bind (noteOccurrence name) fun _ _ =>
    value (discipline.atom held _)) fun _ => bind (error _ _) fun _ _ => value (by simp)

theorem superclass : Yields discipline seen superclass fun name? =>
    discipline.Sited (name?.toList.map Atom.node) :=
  look fun _ _ => ite (fun _ => bind skip fun _ _ => superclassName) fun _ => value (by simp)

theorem returning {terminal : Terminal} (held : discipline.known terminal) :
    Yields discipline seen (returning (ParseM.expression room) terminal) fun made =>
      discipline.Sited made.walk :=
  bind (optional ";") fun _ sited => bind expectSemicolon fun _ _ => look fun _ _ =>
    bind (warningUnless _ _ _) fun _ _ =>
      value (by simpa [Stmt.walk] using ⟨discipline.fitting held, sited⟩)

theorem caseLabel {terminal : Terminal} (held : discipline.known terminal) :
    Yields discipline seen (caseLabel (ParseM.expression room) terminal) fun made =>
      discipline.Sited made.walk :=
  bind parenthesized fun _ sited => bind expectSemicolon fun _ _ =>
    value (by simpa [Stmt.walk] using ⟨discipline.fitting held, sited⟩)

theorem bare {terminal : Terminal} (held : discipline.known terminal) :
    Yields discipline seen (bare terminal) fun made => discipline.Sited made.walk :=
  bind expectSemicolon fun _ _ => value (allFit_cons.mpr ⟨discipline.fitting held, allFit_nil⟩)

theorem arraySize : Yields discipline seen (arraySize (ParseM.expression room)) fun array =>
    discipline.Sited (array.2.toList.flatMap Expr.walk) :=
  look fun _ _ => ite (fun _ => bind skip fun _ _ => bind (optional "]") fun _ sited =>
    bind (expect "]") fun _ _ => value sited) fun _ => value (by simp)

theorem initialValue (isArray : Bool) :
    Yields discipline seen (initialValue (ParseM.expression room) isArray) fun made =>
      discipline.Sited (made.values.flatMap Expr.walk) :=
  look fun _ _ => ite (fun _ => bind skip fun _ _ =>
    bind (arguments fun power => expression room power) fun _ all =>
      value (by simpa [Initializer.values, Expr.walkAll_eq_flatMap] using all)) fun _ =>
    bind (expression room _) fun _ sited => value (by simpa [Initializer.values] using sited)

theorem initializer (isArray : Bool) :
    Yields discipline seen (initializer (ParseM.expression room) isArray) fun made? =>
      discipline.Sited ((made?.elim [] Initializer.values).flatMap Expr.walk) :=
  look fun _ _ => ite (fun _ => bind skip fun _ _ => bind (initialValue isArray) fun _ sited =>
    value sited) fun _ => value (by simp)

theorem expressionStatement :
    Yields discipline seen (expressionStatement (ParseM.expression room)) fun made =>
      discipline.Sited made.walk :=
  bind (expression room _) fun _ sited => bind (warningUnless _ _ _) fun _ _ =>
    bind expectSemicolon fun _ _ => value sited

theorem skipStatement : Yields discipline seen skipStatement fun _ => True :=
  bind (recover _) fun _ _ => look fun _ _ => ite (fun _ => skip) fun _ => value trivial

/-! Statements with others inside them. -/

section

variable {room : Nat}
  (bodies : Yields discipline none (blockBody (statement room)) fun body =>
    discipline.Sited (Stmt.walkAll body))
  (chained : ∀ token, discipline.known token → token.id = "if" →
    Yields discipline (some token) (statement room) fun made =>
      discipline.Sited (Stmt.walkAll made.toList))

include bodies

theorem block : Yields discipline seen (block (statement room)) fun body =>
    discipline.Sited (Stmt.walkAll body) :=
  bind atBrace fun _ _ => ite (fun _ => bind skip fun _ _ => bodies) fun _ =>
    value (by simp [Stmt.walkAll])

theorem guarded {terminal : Terminal} (held : discipline.known terminal) :
    Yields discipline seen (guarded (ParseM.expression room) (statement room) terminal)
      fun made => discipline.Sited made.walk :=
  bind parenthesized fun _ subjectSited => bind (block bodies) fun _ sited =>
    value (by simpa [Stmt.walk] using ⟨discipline.fitting held, subjectSited, sited⟩)

theorem doWhile {terminal : Terminal} (held : discipline.known terminal) :
    Yields discipline seen (doWhile (ParseM.expression room) (statement room) terminal)
      fun made => discipline.Sited made.walk :=
  bind (block bodies) fun _ sited => look fun _ keyword => bind (reserve keyword) fun _ _ =>
    bind (expect "while") fun _ _ => bind parenthesized fun _ conditionSited =>
      bind expectSemicolon fun _ _ =>
        value (by simpa [Stmt.walk] using ⟨discipline.fitting held, sited, conditionSited⟩)

theorem forLoop {terminal : Terminal} (held : discipline.known terminal) :
    Yields discipline seen (forLoop (ParseM.expression room) (statement room) terminal)
      fun made => discipline.Sited made.walk :=
  bind (expect "(") fun _ _ => bind (optional ";") fun _ firstSited => bind (expect ";") fun _ _ =>
    bind (optional ";") fun _ conditionSited => bind (expect ";") fun _ _ =>
      bind (optional ")") fun _ stepSited => bind (expect ")") fun _ _ =>
        bind (block bodies) fun _ sited =>
          value (by
            simpa [Stmt.walk] using
              ⟨discipline.fitting held, firstSited, conditionSited, stepSited, sited⟩)

include chained

theorem alternative : Yields discipline seen (alternative (statement room)) fun body =>
    discipline.Sited (Stmt.walkAll body) :=
  look fun token held => ite (fun isIf => bind (chained token held isIf) fun _ sited => value sited)
    fun _ => block bodies

theorem elseBody : Yields discipline seen (elseBody (statement room)) fun body? =>
    discipline.Sited (Stmt.walkAll? body?) :=
  look fun _ _ => ite (fun _ => bind advance fun _ held => bind (reserve held) fun _ _ =>
    bind (alternative bodies chained) fun _ sited => value sited) fun _ =>
      value (by simp [Stmt.walkAll?])

theorem ifElse {terminal : Terminal} (held : discipline.known terminal) :
    Yields discipline seen (ifElse (ParseM.expression room) (statement room) terminal)
      fun made => discipline.Sited made.walk :=
  bind parenthesized fun _ conditionSited => bind (block bodies) fun _ thenSited =>
    bind (elseBody bodies chained) fun _ elseSited =>
      value (by simpa [Stmt.walk] using ⟨discipline.fitting held, conditionSited, thenSited, elseSited⟩)

theorem plainForm {terminal : Terminal} (held : discipline.known terminal) {form : StatementForm}
    (other : form ≠ .classDefinition) (others : ∀ valueType, form ≠ .declaration valueType) :
    Yields discipline seen
      (statementForm (ParseM.expression room) (statement room) terminal form) fun made =>
        discipline.Sited made.walk := by
  cases form with
  | classDefinition => exact absurd rfl other
  | declaration valueType => exact absurd rfl (others valueType)
  | block =>
      exact bind bodies.weaken fun _ sited =>
        value (by simpa [Stmt.walk] using ⟨discipline.fitting held, sited⟩)
  | verb => exact verb held
  | returning => exact returning held
  | guarded => exact guarded bodies held
  | doWhile => exact doWhile bodies held
  | ifElse => exact ifElse bodies chained held
  | forLoop => exact forLoop bodies held
  | caseLabel => exact caseLabel held
  | bare => exact bare held

end

end Yields

end ParseM

end Adventure
