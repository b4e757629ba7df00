import Adventure.Proofs.Naturality

/-!
Naturality of statements. The readers of statements go by what the terminals are and never by where they
stand, so they read the same statements at other places.
-/

namespace Adventure.ParseM.Natural

variable {place : Span → Span} {room : Nat}

theorem atBrace : Natural place atBrace atBrace :=
  bind current fun token => bind (errorUnless (token.id == "\x7b") _ _) fun _ => pure rfl

theorem parenthesized (room : Nat) :
    Natural place (parenthesized (ParseM.expression room))
      (ParseM.parenthesized (ParseM.expression room)) :=
  bind (expect _) fun _ => bind (expression room _) fun _ => bind (expect _) fun _ => pure rfl

theorem optional (room : Nat) (closing : String) :
    Natural place (optional (ParseM.expression room) closing)
      (ParseM.optional (ParseM.expression room) closing) :=
  bind current fun _ => ite (pure rfl) (bind (expression room _) fun _ => pure rfl)

theorem atomOf_respan (terminal : Terminal) :
    atomOf (respan place terminal) = respan place (atomOf terminal) := by
  have arity : (respan place terminal).arity? = terminal.arity? := rfl
  unfold atomOf
  rw [arity]
  split <;> rfl

theorem takeAtom : Natural place takeAtom takeAtom :=
  bind current fun _ => ite (pure rfl) (bind advance fun terminal => pure (atomOf_respan terminal))

theorem checkWord : Natural place checkWord checkWord :=
  bind current fun token => errorUnless (token.origin == some .string) _ _

theorem checkAction : Natural place checkAction checkAction :=
  bind current fun token => ite (noteIfUndefined token) (warning _ _)

theorem checkFlags : Natural place checkFlags checkFlags :=
  bind current fun token => warningUnless (token.origin == some .integer) _ _

theorem verb (terminal : Terminal) :
    Natural place (verb terminal) (verb (respan place terminal)) :=
  bind (expect _) fun _ => bind checkWord fun _ => bind takeAtom fun _ =>
    bind (expect _) fun _ => bind checkAction fun _ => bind takeAtom fun _ =>
      bind (expect _) fun _ => bind checkFlags fun _ => bind takeAtom fun _ =>
        bind (expect _) fun _ => bind expectSemicolon fun _ => pure rfl

theorem abstractModifier : Natural place abstractModifier abstractModifier :=
  bind current fun _ =>
    ite (bind advance fun modifier => bind (reserve modifier) fun _ => pure rfl) (pure rfl)

theorem className (keyword : Terminal) :
    Natural place (className keyword) (className (respan place keyword)) :=
  bind current fun token =>
    ite (bind advance fun name => bind (define name .classDefinition none) fun _ => pure rfl)
      (bind (error .expectedClassName token.span) fun _ => ite (pure rfl) advance)

theorem superclassName : Natural place superclassName superclassName :=
  bind current fun token =>
    ite (bind advance fun name => bind (noteOccurrence name) fun _ => pure rfl)
      (bind (error .expectedSuperClassName token.span) fun _ => pure rfl)

theorem superclass : Natural place superclass superclass :=
  bind current fun _ => ite (bind skip fun _ => superclassName) (pure rfl)

theorem returning (room : Nat) (terminal : Terminal) :
    Natural place (returning (ParseM.expression room) terminal)
      (ParseM.returning (ParseM.expression room) (respan place terminal)) :=
  bind (optional room _) fun _ => bind expectSemicolon fun _ => bind current fun token =>
    bind (warningUnless (endsPath token) .unreachableCode terminal.span) fun _ => pure rfl

theorem caseLabel (room : Nat) (terminal : Terminal) :
    Natural place (caseLabel (ParseM.expression room) terminal)
      (ParseM.caseLabel (ParseM.expression room) (respan place terminal)) :=
  bind (parenthesized room) fun _ => bind expectSemicolon fun _ => pure rfl

theorem bare (terminal : Terminal) : Natural place (bare terminal) (bare (respan place terminal)) :=
  bind expectSemicolon fun _ => pure rfl

/-! Declarations. -/

theorem parameterName (valueType? : Option ValueType) :
    Natural place (parameterName valueType?) (parameterName valueType?) :=
  bind current fun token =>
    ite (bind advance fun name => bind (define name .name valueType?) fun _ => pure rfl)
      (bind (error .expectedParameterName token.span) fun _ =>
        bind advanceUnlessCloser fun _ => pure rfl)

theorem untypedParameter (first : Terminal) :
    Natural place (untypedParameter first) (untypedParameter (respan place first)) :=
  bind (error (.invalidParameterType first.text) first.span) fun _ => bind current fun _ =>
    ite (bind (define first .name none) fun _ => pure rfl) (parameterName none)

theorem parameter : Natural place parameter parameter := by
  refine bind current fun token =>
    ite (bind (error .expectedParameterName token.span) fun _ => pure rfl) ?_
  refine bind advance fun first => ?_
  have named : parameterType? (respan place first) = parameterType? first := rfl
  rw [named]
  cases parameterType? first with
  | some valueType => exact parameterName (some valueType)
  | none => exact untypedParameter first

theorem functionName (name : Terminal) (returnType : ValueType) :
    Natural place (functionName name returnType) (functionName (respan place name) returnType) :=
  ite (define name .function (some returnType)) (error .expectedFunctionName name.span)

theorem variableName (name : Terminal) (valueType : ValueType) :
    Natural place (variableName name valueType) (variableName (respan place name) valueType) :=
  ite (bind (define name .name (some valueType)) fun _ => pure rfl)
    (bind (error .expectedVariableName name.span) fun _ => pure rfl)

theorem arraySize (room : Nat) :
    Natural place (arraySize (ParseM.expression room)) (ParseM.arraySize (ParseM.expression room)) :=
  bind current fun _ =>
    ite (bind skip fun _ => bind (optional room _) fun _ => bind (expect _) fun _ => pure rfl) (pure rfl)

theorem initialValue (room : Nat) (isArray : Bool) :
    Natural place (initialValue (ParseM.expression room) isArray)
      (ParseM.initialValue (ParseM.expression room) isArray) :=
  bind current fun _ =>
    ite (bind skip fun _ => bind (arguments (expression room)) fun _ => pure rfl)
      (bind (expression room _) fun _ => pure rfl)

theorem initializer (room : Nat) (isArray : Bool) :
    Natural place (initializer (ParseM.expression room) isArray)
      (ParseM.initializer (ParseM.expression room) isArray) :=
  bind current fun _ =>
    ite (bind skip fun _ => bind (initialValue room isArray) fun _ => pure rfl) (pure rfl)

theorem declarator (room : Nat) (valueType : ValueType) (name : Terminal) :
    Natural place (declarator (ParseM.expression room) valueType name)
      (ParseM.declarator (ParseM.expression room) valueType (respan place name)) :=
  bind (variableName name valueType) fun _ => bind (arraySize room) fun array =>
    bind (initializer room array.1) fun _ => pure rfl

theorem nextDeclarator (room : Nat) (valueType : ValueType) :
    Natural place (nextDeclarator (ParseM.expression room) valueType)
      (ParseM.nextDeclarator (ParseM.expression room) valueType) :=
  bind advanceUnlessCloser fun name => declarator room valueType name

theorem variableList (room : Nat) (keyword first : Terminal) (valueType : ValueType) :
    Natural place (variableList (ParseM.expression room) keyword first valueType)
      (ParseM.variableList (ParseM.expression room) (respan place keyword) (respan place first)
        valueType) :=
  bind (declarator room valueType first) fun declared =>
    bind (afterCommas (nextDeclarator room valueType)
      (fun _ => afterComma_advances (.of_composed (.nextDeclarator valueType)) room) declared) fun _ =>
        bind expectSemicolon fun _ => pure rfl

/-! Statements, where those inside are natural. -/

section

variable (nested : Natural place (ParseM.statement room) (ParseM.statement room))

include nested

theorem anotherStatement (statements : List Stmt) :
    Natural place (anotherStatement (ParseM.statement room) statements)
      (ParseM.anotherStatement (ParseM.statement room) (respan place statements)) :=
  bind nested fun next => pure <| by rw [Spanned.toList_respan, Spanned.respan_append]

theorem statementsUntilBrace :
    Natural place (statementsUntilBrace (ParseM.statement room))
      (ParseM.statementsUntilBrace (ParseM.statement room)) :=
  whileToken (fun _ => rfl) (anotherStatement nested) (fun _ => anotherStatement_advances room) []

theorem blockBody :
    Natural place (blockBody (ParseM.statement room)) (ParseM.blockBody (ParseM.statement room)) :=
  bind pushScope fun _ => bind (statementsUntilBrace nested) fun _ => bind popScope fun _ =>
    bind (expect _) fun _ => pure rfl

theorem block :
    Natural place (block (ParseM.statement room)) (ParseM.block (ParseM.statement room)) :=
  bind atBrace fun _ => ite (bind skip fun _ => blockBody nested) (pure rfl)

theorem functionBody :
    Natural place (functionBody (ParseM.statement room))
      (ParseM.functionBody (ParseM.statement room)) :=
  bind atBrace fun _ =>
    ite (bind skip fun _ => bind (statementsUntilBrace nested) fun _ => bind popScope fun _ =>
      bind (expect _) fun _ => pure rfl) (bind popScope fun _ => pure rfl)

theorem function (name : Terminal) (returnType : ValueType) :
    Natural place (function (ParseM.statement room) name returnType)
      (ParseM.function (ParseM.statement room) (respan place name) returnType) :=
  bind (functionName name returnType) fun _ => bind (expect _) fun _ => bind pushScope fun _ =>
    bind (commaList _ parameter fun _ => afterComma_advances (.of_composed .parameter) room)
      fun parameters => bind (expect _) fun _ => bind (functionBody nested) fun body =>
        pure (Stmt.respan_function place name.head returnType parameters body).symm

theorem classDefinition (terminal : Terminal) :
    Natural place (classDefinition (ParseM.statement room) terminal)
      (ParseM.classDefinition (ParseM.statement room) (respan place terminal)) :=
  bind abstractModifier fun isAbstract => bind (className terminal) fun name =>
    bind superclass fun superclass? => bind (block nested) fun body =>
      pure (Stmt.respan_classDefinition place name.head isAbstract superclass? body).symm

theorem guarded (terminal : Terminal) :
    Natural place (guarded (ParseM.expression room) (ParseM.statement room) terminal)
      (ParseM.guarded (ParseM.expression room) (ParseM.statement room) (respan place terminal)) :=
  bind (parenthesized room) fun subject => bind (block nested) fun body =>
    pure (Stmt.respan_guarded place terminal.head subject body).symm

theorem doWhile (terminal : Terminal) :
    Natural place (doWhile (ParseM.expression room) (ParseM.statement room) terminal)
      (ParseM.doWhile (ParseM.expression room) (ParseM.statement room) (respan place terminal)) :=
  bind (block nested) fun body => bind current fun keyword => bind (reserve keyword) fun _ =>
    bind (expect _) fun _ => bind (parenthesized room) fun condition =>
      bind expectSemicolon fun _ =>
        pure (Stmt.respan_doWhile place terminal.head body condition).symm

theorem alternative :
    Natural place (alternative (ParseM.statement room))
      (ParseM.alternative (ParseM.statement room)) :=
  bind current fun _ =>
    ite (bind nested fun next => pure (Spanned.toList_respan place next)) (block nested)

theorem elseBody :
    Natural place (elseBody (ParseM.statement room)) (ParseM.elseBody (ParseM.statement room)) :=
  bind current fun _ =>
    ite (bind advance fun keyword => bind (reserve keyword) fun _ =>
      bind (alternative nested) fun _ => pure rfl) (pure rfl)

theorem ifElse (terminal : Terminal) :
    Natural place (ifElse (ParseM.expression room) (ParseM.statement room) terminal)
      (ParseM.ifElse (ParseM.expression room) (ParseM.statement room) (respan place terminal)) :=
  bind (parenthesized room) fun condition => bind (block nested) fun thenBody =>
    bind (elseBody nested) fun elseBody? =>
      pure (Stmt.respan_ifElse place terminal.head condition thenBody elseBody?).symm

theorem forLoop (terminal : Terminal) :
    Natural place (forLoop (ParseM.expression room) (ParseM.statement room) terminal)
      (ParseM.forLoop (ParseM.expression room) (ParseM.statement room) (respan place terminal)) :=
  bind (expect _) fun _ => bind (optional room _) fun first? => bind (expect _) fun _ =>
    bind (optional room _) fun condition? => bind (expect _) fun _ =>
      bind (optional room _) fun step? => bind (expect _) fun _ => bind (block nested) fun body =>
        pure (Stmt.respan_forLoop place terminal.head first? condition? step? body).symm

theorem declaration (keyword : Terminal) (valueType : ValueType) :
    Natural place (declaration (ParseM.expression room) (ParseM.statement room) keyword valueType)
      (ParseM.declaration (ParseM.expression room) (ParseM.statement room) (respan place keyword)
        valueType) :=
  bind advanceUnlessCloser fun name => bind current fun _ =>
    ite (function nested name valueType) (variableList room keyword name valueType)

theorem statementForm (terminal : Terminal) (form : StatementForm) :
    Natural place
      (statementForm (ParseM.expression room) (ParseM.statement room) terminal form)
      (ParseM.statementForm (ParseM.expression room) (ParseM.statement room) (respan place terminal)
        form) := by
  cases form with
  | block =>
      exact bind (blockBody nested) fun body =>
        pure (Stmt.respan_block place terminal.head body).symm
  | verb => exact verb terminal
  | classDefinition => exact classDefinition nested terminal
  | returning => exact returning room terminal
  | guarded => exact guarded nested terminal
  | doWhile => exact doWhile nested terminal
  | ifElse => exact ifElse nested terminal
  | forLoop => exact forLoop nested terminal
  | caseLabel => exact caseLabel room terminal
  | bare => exact bare terminal
  | declaration valueType => exact declaration nested terminal valueType

theorem formedStatement (form : StatementForm) :
    Natural place (formedStatement (ParseM.expression room) (ParseM.statement room) form)
      (ParseM.formedStatement (ParseM.expression room) (ParseM.statement room) form) :=
  bind advance fun terminal => bind (log _ _) fun _ => bind (reserve terminal) fun _ =>
    statementForm nested terminal form

omit nested in
theorem expressionStatement :
    Natural place (expressionStatement (ParseM.expression room))
      (ParseM.expressionStatement (ParseM.expression room)) := by
  refine bind (expression room _) fun value => ?_
  rw [Expr.isAssignment_respan, Expr.isCall_respan, Expr.isInvalid_respan, Expr.head_respan]
  exact bind (warningUnless _ _ _) fun _ => bind expectSemicolon fun _ => pure rfl

omit nested in
theorem skipStatement : Natural place skipStatement skipStatement :=
  bind (recover fun _ => rfl) fun _ => bind current fun _ => ite skip (pure rfl)

theorem statementBody :
    Natural place (statementBody (ParseM.expression room) (ParseM.statement room))
      (ParseM.statementBody (ParseM.expression room) (ParseM.statement room)) := by
  refine bind current fun token => ?_
  rw [Terminal.denotations_respan]
  cases token.denotations.statement? with
  | some form => exact bind (formedStatement nested form) fun _ => pure rfl
  | none =>
      cases token.denotations.operand? with
      | some form => exact bind expressionStatement fun _ => pure rfl
      | none => exact bind skipStatement fun _ => pure rfl

theorem afterStrayBrace (statements : List Stmt) :
    Natural place (afterStrayBrace (ParseM.statement room) statements)
      (ParseM.afterStrayBrace (ParseM.statement room) (respan place statements)) :=
  bind (recover fun _ => rfl) fun _ => bind (statementsUntilBrace nested) fun more =>
    pure (Spanned.respan_append place statements more).symm

end

theorem statement (room : Nat) : Natural place (statement room) (statement room) := by
  induction room with
  | zero => exact bind refuse fun _ => pure rfl
  | succ room nested =>
      exact bind enter fun _ => bind (statementBody nested) fun _ => bind leave fun _ => pure rfl

theorem statements (room : Nat) :
    Natural place (statements (ParseM.statement room)) (ParseM.statements (ParseM.statement room)) :=
  bind (statementsUntilBrace (statement room)) fun first =>
    whileToken (fun _ => rfl) (afterStrayBrace (statement room))
      (fun _ => afterStrayBrace_advances room) first

end Adventure.ParseM.Natural
