import Adventure.Proofs.Surveys

/-!
Statements, surveyed. A statement's node begins with the terminal that the statement was told by, or with
the name that it introduces, and the nodes below it are found after that one after the other.
-/

namespace Adventure.ParseM.Survey

variable {α : Type} {context : Context} {tokens : List Token} {survey : Survey context tokens} {room : Nat}
  {state origin : ParseState}

/-! Statements without others inside them. -/

theorem atBrace : survey.Passes state atBrace :=
  .look <| pass here (errorUnless _ _ _) fun _ _ passed => .value passed

theorem parenthesized : survey.Finds room state (parenthesized (ParseM.expression room)) fun value =>
    [.expression value] :=
  pass here (expect "(") fun _ _ passed => next passed (expression room _ _) fun _ _ found =>
    pass found (expect ")") fun _ _ found => .value found

theorem optional (closing : String) :
    survey.Finds room state (optional (ParseM.expression room) closing) fun value? =>
      value?.toList.map .expression :=
  .look <| .ite (fun _ => .value here) fun _ => .bind (expression room _ _) fun _ _ found => .value found

theorem takeAtom : survey.Finds 0 state takeAtom fun leaf => [leaf.node] := by
  refine .given fun understood => .look <| .ite (fun _ => .value (survey.placeholder understood)) fun opens =>
    .bind survey.advance fun terminal _ took => .value ?_
  have opens : terminal.isCloser = false := by
    rw [← took.same]
    simpa using opens
  unfold atomOf
  split <;> exact took.atom (.inr opens)

theorem Took.past {terminal : Terminal} {later : ParseState} (took : survey.Took origin state terminal)
    (passed : survey.finds 0 state later []) : survey.Took origin later terminal :=
  ⟨took.understood, took.same, onTo took.passed passed, fun open? => onTo (took.atom open?) passed⟩

theorem Took.node {terminal : Terminal} {after : ParseState} {node : Node}
    (took : survey.Took origin state terminal) (found : survey.finds room origin after node.children)
    (same : node.head = terminal.head) (other : node.isOperand = false) :
    survey.finds (room + 1) origin after [node] :=
  survey.headed here took.understood found (same ▸ took.span) other

theorem verb {terminal : Terminal} (took : survey.Took origin state terminal) :
    Attains context tokens state (verb terminal) fun made after =>
      survey.finds (room + 1) origin after [made.node] :=
  pass took.passed (expect "(") fun _ _ found => pass found (.look (errorUnless _ _ _)) fun _ _ found =>
    next found takeAtom fun _ _ found => pass found (expect ",") fun _ _ found =>
    pass found (quiet checkAction_alike) fun _ _ found =>
    next found takeAtom fun _ _ found => pass found (expect ",") fun _ _ found =>
    pass found (.look (warningUnless _ _ _)) fun _ _ found =>
    next found takeAtom fun _ _ found => pass found (expect ")") fun _ _ found =>
    pass found expectSemicolon fun _ _ found => .value (took.node (lift found) rfl rfl)

theorem returning {terminal : Terminal} (took : survey.Took origin state terminal) :
    Attains context tokens state (returning (ParseM.expression room) terminal) fun made after =>
      survey.finds (room + 1) origin after [made.node] :=
  next (lift took.passed) (optional ";") fun _ _ found => pass found expectSemicolon fun _ _ found =>
    .look <| pass found (warningUnless _ _ _) fun _ _ found => .value (took.node found rfl rfl)

theorem caseLabel {terminal : Terminal} (took : survey.Took origin state terminal) :
    Attains context tokens state (caseLabel (ParseM.expression room) terminal) fun made after =>
      survey.finds (room + 1) origin after [made.node] :=
  next (lift took.passed) parenthesized fun _ _ found => pass found expectSemicolon fun _ _ found =>
    .value (took.node found rfl rfl)

theorem bare {terminal : Terminal} (took : survey.Took origin state terminal) :
    Attains context tokens state (bare terminal) fun made after =>
      survey.finds (room + 1) origin after [made.node] :=
  pass took.passed expectSemicolon fun _ _ found => .value (took.node (lift found) rfl rfl)

theorem expressionStatement :
    survey.Finds room state (expressionStatement (ParseM.expression room)) fun made => [made.node] :=
  .bind (expression room _ _) fun _ _ found => pass found (warningUnless _ _ _) fun _ _ found =>
    pass found expectSemicolon fun _ _ found => .value found

theorem skipStatement : survey.Passes state skipStatement :=
  pass here (recover _) fun _ _ passed => .look <| .ite
    (fun _ => .imp skip fun _ _ nothing => since passed nothing) fun _ => .value passed

/-! Declarations of names. -/

theorem parameterName (valueType? : Option ValueType) :
    survey.Finds 0 state (parameterName valueType?) fun parameter => [parameter.name.node] :=
  .look <| .ite
    (fun named => .bind survey.advance fun _ _ took =>
      pass (took.name (took.same ▸ named) _) (define took.known _ _) fun _ _ found => .value found)
    fun _ => pass here (error _ _) fun _ _ passed => .bind survey.advanceUnlessCloser fun _ _ took =>
      .value (since passed (took.atom (.inl rfl)))

theorem untypedParameter {first : Terminal} (took : survey.Took origin state first) :
    Attains context tokens state (untypedParameter first) fun parameter after =>
      survey.finds 0 origin after [parameter.name.node] := by
  refine .bind (error _ _) fun _ _ nothing => .look <| .ite (fun alone => ?_) fun _ =>
    .imp (parameterName none) fun _ _ found => since (took.past nothing).passed found
  simp only [Bool.and_eq_true] at alone
  exact pass ((took.past nothing).name alone.1 _) (define took.known _ _) fun _ _ found => .value found

theorem parameter : survey.Finds 0 state parameter fun parameter => [parameter.name.node] := by
  refine .given fun understood => .look <| .ite
    (fun _ => pass (survey.placeholder understood) (error _ _) fun _ _ found => .value found)
    fun _ => .bind survey.advance fun first _ took => ?_
  cases parameterType? first with
  | some valueType => exact .imp (parameterName _) fun _ _ found => since took.passed found
  | none => exact untypedParameter took

theorem parameters :
    survey.Finds 0 state (ParseM.commaList ")" ParseM.parameter) fun made =>
      made.map (·.name.node) := by
  have read : survey.Finds 0 state (ParseM.commaList ")" ParseM.parameter) _ :=
    commaList (fun _ => parameter) ")"
  simpa only [List.map_eq_flatMap] using read

theorem variableName {name : Terminal} (took : survey.Took origin state name) (valueType : ValueType) :
    Attains context tokens state (variableName name valueType) fun atom after =>
      survey.finds 0 origin after [atom.node] :=
  .ite (fun named => pass (took.name named _) (define took.known _ _) fun _ _ found => .value found)
    fun _ => pass (took.atom (.inl rfl)) (error _ _) fun _ _ found => .value found

theorem arraySize : survey.Finds room state (arraySize (ParseM.expression room)) fun array =>
    array.2.toList.map .expression :=
  .look <| .ite
    (fun _ => pass here skip fun _ _ passed => next passed (optional "]") fun _ _ found =>
      pass found (expect "]") fun _ _ found => .value found)
    fun _ => .value here

theorem initialValue (isArray : Bool) :
    survey.Finds room state (initialValue (ParseM.expression room) isArray) fun made =>
      made.values.map .expression :=
  .look <| .ite
    (fun _ => pass here skip fun _ _ passed => next passed (arguments (expression room)) fun _ _ found =>
      .value found)
    fun _ => .bind (expression room _ _) fun _ _ found => .value found

theorem initializer (isArray : Bool) :
    survey.Finds room state (initializer (ParseM.expression room) isArray) fun made? =>
      (made?.elim [] Initializer.values).map .expression :=
  .look <| .ite
    (fun _ => pass here skip fun _ _ passed => next passed (initialValue isArray) fun _ _ found =>
      .value found)
    fun _ => .value here

theorem declarator {name : Terminal} (took : survey.Took origin state name) (valueType : ValueType) :
    Attains context tokens state (declarator (ParseM.expression room) valueType name) fun made after =>
      survey.finds room origin after made.nodes :=
  .bind (variableName took valueType) fun _ _ found => next (lift found) arraySize fun _ _ found =>
    next found (initializer _) fun _ _ found => .value (by simpa [Declarator.nodes] using found)

theorem nextDeclarator (valueType : ValueType) :
    survey.Finds room state (nextDeclarator (ParseM.expression room) valueType) Declarator.nodes :=
  .bind survey.advanceUnlessCloser fun _ _ took => declarator took valueType

theorem variableList {middle : ParseState} {keyword first : Terminal}
    (took : survey.Took origin middle keyword) (tookFirst : survey.Took middle state first)
    (valueType : ValueType) :
    Attains context tokens state (variableList (ParseM.expression room) keyword first valueType)
      fun made after => survey.finds (room + 1) origin after [made.node] :=
  .bind (declarator tookFirst valueType) fun _ _ found =>
    .bind (afterCommas (fun _ => nextDeclarator valueType) (since took.passed found)) fun _ _ found =>
      pass found expectSemicolon fun _ _ found => .value (took.node found rfl rfl)

theorem functionName {name : Terminal} (known : Known context tokens name) (returnType : ValueType) :
    survey.Passes state (functionName name returnType) :=
  .ite (fun _ => define known _ _) fun _ => error _ _

theorem abstractModifier : survey.Passes state abstractModifier :=
  .look <| .ite (fun _ => .bind survey.advance fun _ _ took =>
    pass took.passed (reserve took.known) fun _ _ passed => .value passed) fun _ => .value here

theorem className {keyword : Terminal} {middle : ParseState} (took : survey.Took origin middle keyword)
    (passed : survey.finds 0 middle state []) :
    Attains context tokens state (className keyword) fun name after =>
      ∃ place, survey.finds 0 origin place [] ∧ survey.Took place after name := by
  refine .look <| .ite (fun _ => .bind survey.advance fun name _ tookName => ?_) fun _ =>
    pass passed (error _ _) fun _ _ passed => .ite (fun _ => .value ⟨_, here, took.past passed⟩) fun _ =>
      .imp survey.advance fun _ _ tookName => ⟨_, onTo took.passed passed, tookName⟩
  exact .bind (define tookName.known _ _) fun _ _ nothing =>
    .value ⟨_, onTo took.passed passed, tookName.past nothing⟩

theorem superclassName : survey.Finds 0 state superclassName fun name? => name?.toList.map Atom.node :=
  .look <| .ite
    (fun named => .bind survey.advance fun _ _ took =>
      pass (took.name (took.same ▸ named) _) (noteOccurrence _) fun _ _ found => .value found)
    fun _ => pass here (error _ _) fun _ _ passed => .value passed

theorem superclass : survey.Finds 0 state superclass fun name? => name?.toList.map Atom.node :=
  .look <| .ite
    (fun _ => pass here skip fun _ _ passed => .imp superclassName fun _ _ found => since passed found)
    fun _ => .value here

/-! Statements with others inside them. -/

structure Scopeless (survey : Survey context tokens) : Prop where
  opens {state : ParseState} : survey.finds 0 state (pushScope.run context state).2 []
  closes {state : ParseState} : survey.finds 0 state (popScope.run context state).2 []

theorem inScope (scopeless : survey.Scopeless) {reader : Open α} (closable : Closable reader)
    {nodes : α → List Node}
    (inside : ∀ state, survey.Finds room state (reader (ParseM.expression room) (statement room)) nodes) :
    survey.Finds room state (inScope (reader (ParseM.expression room) (statement room))) nodes := by
  intro understood
  obtain ⟨last, found⟩ := inside (pushScope.run context state).2 (survey.kept.push understood)
  have closing : Closing ((reader (ParseM.expression room) (statement room)).run context
      (pushScope.run context state).2).2 := closable.closing room _
  exact ⟨survey.kept.pop closing last, onTo (since scopeless.opens found) scopeless.closes⟩

section

variable (within : ∀ state, survey.Finds room state (statement room) fun made => made.toList.map Stmt.node)

include within

theorem statementsUntilBrace :
    survey.Finds room state (statementsUntilBrace (statement room)) fun body => body.map Stmt.node :=
  .whileToken (fun _ _ found => next found (within _) fun _ _ found => .value (by simpa using found)) here

theorem functionScope :
    survey.Finds room state (functionScope (statement room)) fun read =>
      read.1.map (·.name.node) ++ (read.2.getD []).map Stmt.node := by
  exact .bind parameters fun _ _ found => pass (lift found) (expect ")") fun _ _ found =>
    pass found atBrace fun _ _ found => .ite
      (fun _ => pass found skip fun _ _ found => next found (statementsUntilBrace within) fun _ _ found =>
        .value found)
      fun _ => .value (by simpa using found)

variable (scopeless : survey.Scopeless)

include scopeless

theorem blockBody : survey.Finds room state (blockBody (statement room)) fun body => body.map Stmt.node := by
  rw [blockBody_eq]
  exact .bind (inScope scopeless .statements fun _ => statementsUntilBrace within) fun _ _ found =>
    pass found (expect "\x7d") fun _ _ found => .value found

theorem block : survey.Finds room state (block (statement room)) fun body => body.map Stmt.node :=
  .bind atBrace fun _ _ passed => .ite
    (fun _ => pass passed skip fun _ _ passed => .imp (blockBody within scopeless) fun _ _ found =>
      since passed found)
    fun _ => .value (lift passed)

theorem classDefinition {terminal : Terminal} (took : survey.Took origin state terminal) :
    Attains context tokens state (classDefinition (statement room) terminal) fun made after =>
      survey.finds (room + 1) origin after [made.node] :=
  .bind abstractModifier fun _ _ passed => .bind (className took passed) fun _ _ ⟨_, onward, tookName⟩ =>
    next tookName.passed superclass fun _ _ found =>
    next (lift found) (block within scopeless) fun _ _ found =>
      .value (survey.headed onward tookName.understood found tookName.span rfl)

theorem guarded {terminal : Terminal} (took : survey.Took origin state terminal) :
    Attains context tokens state (guarded (ParseM.expression room) (statement room) terminal)
      fun made after => survey.finds (room + 1) origin after [made.node] :=
  next (lift took.passed) parenthesized fun _ _ found => next found (block within scopeless) fun _ _ found =>
    .value (took.node found rfl rfl)

theorem doWhile {terminal : Terminal} (took : survey.Took origin state terminal) :
    Attains context tokens state (doWhile (ParseM.expression room) (statement room) terminal)
      fun made after => survey.finds (room + 1) origin after [made.node] :=
  next (lift took.passed) (block within scopeless) fun _ _ found => .given fun understood => .look <|
    pass found (reserve understood.lookahead) fun _ _ found => pass found (expect "while") fun _ _ found =>
      next found parenthesized fun _ _ found => pass found expectSemicolon fun _ _ found =>
        .value (took.node found rfl rfl)

theorem alternative :
    survey.Finds room state (alternative (statement room)) fun body => body.map Stmt.node :=
  .look <| .ite (fun _ => .bind (within _) fun _ _ found => .value found) fun _ => block within scopeless

theorem elseBody :
    survey.Finds room state (elseBody (statement room)) fun body? => (body?.getD []).map Stmt.node :=
  .look <| .ite
    (fun _ => .bind survey.advance fun _ _ took => pass took.passed (reserve took.known) fun _ _ passed =>
      .bind (alternative within scopeless) fun _ _ found => .value (since passed found))
    fun _ => .value here

theorem ifElse {terminal : Terminal} (took : survey.Took origin state terminal) :
    Attains context tokens state (ifElse (ParseM.expression room) (statement room) terminal)
      fun made after => survey.finds (room + 1) origin after [made.node] :=
  next (lift took.passed) parenthesized fun _ _ found => next found (block within scopeless) fun _ _ found =>
    next found (elseBody within scopeless) fun _ _ found =>
      .value (took.node (by simpa [Node.children, Stmt.node, Stmt.children] using found) rfl rfl)

theorem forLoop {terminal : Terminal} (took : survey.Took origin state terminal) :
    Attains context tokens state (forLoop (ParseM.expression room) (statement room) terminal)
      fun made after => survey.finds (room + 1) origin after [made.node] :=
  pass took.passed (expect "(") fun _ _ found => next (lift found) (optional ";") fun _ _ found =>
    pass found (expect ";") fun _ _ found => next found (optional ";") fun _ _ found =>
    pass found (expect ";") fun _ _ found => next found (optional ")") fun _ _ found =>
    pass found (expect ")") fun _ _ found => next found (block within scopeless) fun _ _ found =>
      .value (took.node (by simpa [Node.children, Stmt.node, Stmt.children] using found) rfl rfl)

theorem function {middle : ParseState} {name : Terminal} (onward : survey.finds 0 origin middle [])
    (took : survey.Took middle state name) (returnType : ValueType) :
    Attains context tokens state (function (statement room) name returnType) fun made after =>
      survey.finds (room + 1) origin after [made.node] := by
  have closed (body? : Option (List Stmt)) (state : ParseState) :
      Attains context tokens state (closeBody body?) fun body after =>
        body = body?.getD [] ∧ survey.finds 0 state after [] := by
    cases body? with
    | none => exact .value ⟨rfl, here⟩
    | some body => exact .bind (expect "\x7d") fun _ _ nothing => .value ⟨rfl, nothing⟩
  rw [function_eq]
  refine pass took.passed (functionName took.known returnType) fun _ _ found =>
    pass found (expect "(") fun _ _ found =>
      next (lift found) (inScope scopeless .function fun _ => functionScope within) fun read _ found =>
        .bind (closed read.2 _) fun body _ ⟨same, nothing⟩ => .value ?_
  subst same
  exact survey.headed onward took.understood (onTo found nothing) took.span rfl

theorem declaration {keyword : Terminal} (took : survey.Took origin state keyword) (valueType : ValueType) :
    Attains context tokens state
      (declaration (ParseM.expression room) (statement room) keyword valueType) fun made after =>
        survey.finds (room + 1) origin after [made.node] :=
  .bind survey.advanceUnlessCloser fun _ _ tookName => .look <| .ite
    (fun _ => function within scopeless took.passed tookName valueType)
    fun _ => variableList took tookName valueType

theorem statementForm {terminal : Terminal} (took : survey.Took origin state terminal)
    (form : StatementForm) :
    Attains context tokens state
      (statementForm (ParseM.expression room) (statement room) terminal form) fun made after =>
        survey.finds (room + 1) origin after [made.node] := by
  cases form with
  | block =>
      exact next (lift took.passed) (blockBody within scopeless) fun _ _ found =>
        .value (took.node found rfl rfl)
  | verb => exact verb took
  | classDefinition => exact classDefinition within scopeless took
  | returning => exact returning took
  | guarded => exact guarded within scopeless took
  | doWhile => exact doWhile within scopeless took
  | ifElse => exact ifElse within scopeless took
  | forLoop => exact forLoop within scopeless took
  | caseLabel => exact caseLabel took
  | bare => exact bare took
  | declaration valueType => exact declaration within scopeless took valueType

theorem formedStatement (form : StatementForm) :
    survey.Finds (room + 1) state
      (formedStatement (ParseM.expression room) (statement room) form) fun made => [made.node] :=
  .bind survey.advance fun _ _ took => pass here (log _) fun _ _ passed =>
    pass passed (reserve took.known) fun _ _ passed => statementForm within scopeless (took.past passed) form

theorem statementBody :
    survey.Finds (room + 1) state (statementBody (ParseM.expression room) (statement room)) fun made? =>
      made?.toList.map Stmt.node := by
  refine .look ?_
  cases state.token.denotations.statement? with
  | some form => exact .bind (formedStatement within scopeless form) fun _ _ found => .value found
  | none =>
      cases state.token.denotations.operand? with
      | some form => exact .bind expressionStatement fun _ _ found => .value (survey.deeper found)
      | none => exact .bind skipStatement fun _ _ nothing => .value (lift nothing)

end

/-- What is found of a statement, by induction on the room for what is inside it. -/
theorem statement (scopeless : survey.Scopeless) (room : Nat) (state : ParseState) :
    survey.Finds room state (statement room) fun made? => made?.toList.map Stmt.node := by
  induction room generalizing state with
  | zero => exact .bind refuse fun _ _ found => .value found.1
  | succ room ih =>
      exact pass here enter fun _ _ passed => .bind (statementBody ih scopeless) fun _ _ found =>
        pass (since passed found) leave fun _ _ found => .value found

theorem statements (scopeless : survey.Scopeless) (room : Nat) (state : ParseState) :
    survey.Finds room state (statements (ParseM.statement room)) fun made => made.map Stmt.node := by
  refine .bind (statementsUntilBrace (statement scopeless room)) fun _ _ found => .whileToken
    (fun _ _ found => pass found (recover _) fun _ _ found =>
      next found (statementsUntilBrace (statement scopeless room)) fun _ _ found =>
        .value (by simpa using found)) found

end Adventure.ParseM.Survey
