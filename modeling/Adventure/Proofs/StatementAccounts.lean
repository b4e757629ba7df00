import Adventure.Proofs.ExpressionAccounts

/-!
Statements, accounted for. No recovery drops a statement or an expression that was read, and none is kept
twice, so all that was reported about their shape can be found again in the tree.
-/

namespace Adventure.ParseM

variable {context : Context} {tokens : List Token} {fault : Diagnostic} {seen : Option Terminal} {room : Nat}

namespace Faultless

open Accounts

/-! What stands in a statement and is no expression has no fault of shape. -/

theorem atBrace : Faultless context tokens fault seen atBrace fun _ => True :=
  look fun _ _ => after (errorUnless _ rfl _) fun _ _ => value ⟨rfl, trivial⟩

theorem takeAtom : Faultless context tokens fault seen takeAtom fun _ => True :=
  look fun _ _ => ite (fun _ => value ⟨rfl, trivial⟩) fun _ => after advance fun _ _ => value ⟨rfl, trivial⟩

theorem checkAction : Faultless context tokens fault seen checkAction fun _ => True := by
  refine look fun token _ => ite (fun _ => ?_) fun _ => warning rfl _
  refine still (fun state => ?_) fun state => ⟨[], ?_, by simp⟩
  · rw [noteIfUndefined_run]
    split <;> exact ⟨rfl, rfl, rfl, rfl⟩
  · rw [noteIfUndefined_run]
    split <;> exact (List.append_nil _).symm

theorem abstractModifier : Faultless context tokens fault seen abstractModifier fun _ => True :=
  look fun _ _ => ite (fun _ => after advance fun _ known => after (reserve known) fun _ _ =>
    value ⟨rfl, trivial⟩) fun _ => value ⟨rfl, trivial⟩

theorem className (keyword : Terminal) :
    Faultless context tokens fault seen (className keyword) fun _ => True :=
  look fun _ _ => ite
    (fun _ => after advance fun _ known => after (define known _ _) fun _ _ => value ⟨rfl, trivial⟩)
    fun _ => after (error rfl _) fun _ _ => ite (fun _ => value ⟨rfl, trivial⟩) fun _ =>
      advance.imp fun _ _ made => ⟨made.1, trivial⟩

theorem superclass : Faultless context tokens fault seen superclass fun _ => True := by
  have named : Faultless context tokens fault none superclassName fun _ => True :=
    look fun _ _ => ite (fun _ => after advance fun _ _ => after (noteOccurrence _) fun _ _ =>
      value ⟨rfl, trivial⟩) fun _ => after (error rfl _) fun _ _ => value ⟨rfl, trivial⟩
  exact look fun _ _ => ite (fun _ => after skip fun _ _ => named) fun _ => value ⟨rfl, trivial⟩

theorem parameterName (valueType? : Option ValueType) :
    Faultless context tokens fault seen (parameterName valueType?) fun _ => True :=
  look fun _ _ => ite
    (fun _ => after advance fun _ known => after (define known _ _) fun _ _ => value ⟨rfl, trivial⟩)
    fun _ => after (error rfl _) fun _ _ => after advanceUnlessCloser fun _ _ => value ⟨rfl, trivial⟩

theorem parameter : Faultless context tokens fault seen parameter fun _ => True := by
  refine look fun _ _ => ite (fun _ => after (error rfl _) fun _ _ => value ⟨rfl, trivial⟩) fun _ =>
    after advance fun first known => ?_
  cases parameterType? first with
  | some valueType => exact parameterName _
  | none =>
      exact after (error rfl _) fun _ _ => look fun _ _ => ite
        (fun _ => after (define known _ _) fun _ _ => value ⟨rfl, trivial⟩) fun _ => parameterName _

theorem parameters :
    Faultless context tokens fault seen (ParseM.commaList ")" ParseM.parameter) fun _ => True :=
  Accounts.commaList ")" parameter (fun _ _ _ _ all one => ⟨by rw [all.1, one.1], trivial⟩) ⟨rfl, trivial⟩

theorem functionName {name : Terminal} (known : Known context tokens name) (returnType : ValueType) :
    Faultless context tokens fault seen (functionName name returnType) fun _ => True :=
  ite (fun _ => define known _ _) fun _ => error rfl _

theorem skipStatement : Faultless context tokens fault seen skipStatement fun _ => True :=
  after (recover _) fun _ _ => look fun _ _ => ite (fun _ => skip) fun _ => value ⟨rfl, trivial⟩

end Faultless

namespace Accounts

/-! Statements with expressions in them. -/

theorem parenthesized : Accounts context tokens fault seen (parenthesized (ParseM.expression room))
    fun value count => Tally fault value.walk [] count :=
  after (Faultless.expect "(") fun _ _ => bind (expression room _) fun _ _ tally =>
    after (Faultless.expect ")") fun _ _ => value tally

theorem optional (closing : String) :
    Accounts context tokens fault seen (optional (ParseM.expression room) closing) fun value? count =>
      Tally fault (value?.toList.flatMap Expr.walk) [] count :=
  look fun _ _ => ite (fun _ => value Tally.nil) fun _ => bind (expression room _) fun made _ tally =>
    value (by simpa using tally)

theorem verb (terminal : Terminal) : Accounts context tokens fault seen (verb terminal) fun made count =>
    made.Tallied fault count :=
  after (Faultless.expect "(") fun _ _ => after (look fun _ _ => Faultless.errorUnless _ rfl _) fun _ _ =>
    after Faultless.takeAtom fun word _ => after (Faultless.expect ",") fun _ _ =>
    after Faultless.checkAction fun _ _ => after Faultless.takeAtom fun action _ =>
    after (Faultless.expect ",") fun _ _ => after (look fun _ _ => Faultless.warningUnless _ rfl _) fun _ _ =>
    after Faultless.takeAtom fun flags _ => after (Faultless.expect ")") fun _ _ =>
    after Faultless.expectSemicolon fun _ _ => value ((Tally.atoms [word, action, flags]).sound rfl rfl)

theorem returning (terminal : Terminal) :
    Accounts context tokens fault seen (returning (ParseM.expression room) terminal) fun made count =>
      made.Tallied fault count :=
  bind (optional ";") fun _ _ tally => after Faultless.expectSemicolon fun _ _ => look fun _ _ =>
    after (Faultless.warningUnless _ rfl _) fun _ _ => value (tally.sound rfl rfl)

theorem caseLabel (terminal : Terminal) :
    Accounts context tokens fault seen (caseLabel (ParseM.expression room) terminal) fun made count =>
      made.Tallied fault count :=
  bind parenthesized fun _ _ tally => after Faultless.expectSemicolon fun _ _ => value (tally.sound rfl rfl)

theorem bare (terminal : Terminal) : Accounts context tokens fault seen (bare terminal) fun made count =>
    made.Tallied fault count :=
  after Faultless.expectSemicolon fun _ _ => value (Tally.nil.sound rfl rfl)

theorem arraySize : Accounts context tokens fault seen (arraySize (ParseM.expression room)) fun array count =>
    Tally fault (array.2.toList.flatMap Expr.walk) [] count :=
  look fun _ _ => ite (fun _ => after Faultless.skip fun _ _ => bind (optional "]") fun _ _ tally =>
    after (Faultless.expect "]") fun _ _ => value tally) fun _ => value Tally.nil

theorem initialValue (isArray : Bool) :
    Accounts context tokens fault seen (initialValue (ParseM.expression room) isArray) fun made count =>
      Tally fault (made.values.flatMap Expr.walk) [] count :=
  look fun _ _ => ite (fun _ => after Faultless.skip fun _ _ =>
    bind (arguments fun power => expression room power) fun _ _ all =>
      value (by simpa [Initializer.values, Expr.walkAll_eq_flatMap] using all)) fun _ =>
    bind (expression room _) fun _ _ tally => value (by simpa [Initializer.values] using tally)

theorem initializer (isArray : Bool) :
    Accounts context tokens fault seen (initializer (ParseM.expression room) isArray) fun made? count =>
      Tally fault ((made?.elim [] Initializer.values).flatMap Expr.walk) [] count :=
  look fun _ _ => ite (fun _ => after Faultless.skip fun _ _ => bind (initialValue isArray) fun _ _ tally =>
    value tally) fun _ => value Tally.nil

theorem variableName {name : Terminal} (known : Known context tokens name) (valueType : ValueType) :
    Accounts context tokens fault seen (variableName name valueType) fun leaf count =>
      count = leaf.faults.count fault :=
  ite (fun _ => after (Faultless.define known _ _) fun _ _ => value rfl) fun _ =>
    bind (report _) fun _ _ counted => value counted

theorem declarator (valueType : ValueType) {name : Terminal} (known : Known context tokens name) :
    Accounts context tokens fault seen (declarator (ParseM.expression room) valueType name) fun made count =>
      Tally fault made.walk made.name.faults count :=
  bind (variableName known valueType) fun leaf _ counted => bind arraySize fun _ _ tallySize =>
    bind (initializer _) fun _ _ tally =>
      value ((((tallySize.append tally).sound rfl rfl).known leaf.faults).of_eq (by rw [counted]; rfl))

theorem variableList (keyword : Terminal) {first : Terminal} (known : Known context tokens first)
    (valueType : ValueType) :
    Accounts context tokens fault seen (variableList (ParseM.expression room) keyword first valueType)
      fun made count => made.Tallied fault count := by
  have others : Accounts context tokens fault none (nextDeclarator (ParseM.expression room) valueType)
      fun made count => Tally fault made.walk made.name.faults count :=
    after Faultless.advanceUnlessCloser fun _ known => declarator valueType known
  have list {first : Declarator} {count : Nat} (tally : Tally fault first.walk first.name.faults count) :
      Accounts context tokens fault none
        (ParseM.afterCommas (nextDeclarator (ParseM.expression room) valueType) first)
        fun declarators more => Tally fault (declarators.flatMap Declarator.walk)
          (declarators.flatMap (·.name.faults)) (count + more) := by
    refine afterCommas others (fun _ _ _ _ all one => ?_) (by simpa using tally)
    simpa using all.append one
  refine bind (declarator valueType known) fun first _ tally => bind (list tally) fun declarators _ all =>
    after Faultless.expectSemicolon fun _ _ => value ?_
  have own : (Stmt.declaration keyword.head valueType declarators).standing.flatMap Stmt.faults =
      declarators.flatMap (·.name.faults) := by
    simp [Stmt.standing, Stmt.faults_declaration]
  rw [Stmt.Tallied, own]
  exact all.sound rfl rfl

theorem expressionStatement :
    Accounts context tokens fault seen (expressionStatement (ParseM.expression room)) fun made count =>
      made.Tallied fault count := by
  refine bind (expression room _) fun made before tally => bind (warningUnless _ _ _) fun _ _ counted =>
    after Faultless.expectSemicolon fun _ _ => value ((tally.known _).of_eq ?_)
  rw [← Expr.not_isIdle] at counted
  have own : (Stmt.expression made).standing.flatMap Stmt.faults =
      if !made.isIdle then [] else [⟨.badExpressionStatement, made.head.span, .warning⟩] := by
    simp only [Stmt.standing, List.flatMap_cons, List.flatMap_nil, List.append_nil, Stmt.faults_expression]
    cases made.isIdle <;> rfl
  rw [own, ← counted]
  omega

/-! Statements with others inside them. -/

section

variable (within : Accounts context tokens fault none (statement room) fun made count =>
  Stmt.TalliedAll fault made.toList count)

include within

theorem statementsUntilBrace :
    Accounts context tokens fault seen (statementsUntilBrace (statement room)) fun body count =>
      Stmt.TalliedAll fault body count :=
  whileToken (fun _ _ all => bind within fun _ _ tally => value (all.append tally)) Tally.nil

theorem blockBody : Accounts context tokens fault seen (blockBody (statement room)) fun body count =>
    Stmt.TalliedAll fault body count := by
  rw [blockBody_eq]
  exact bind (inScope .statements (statementsUntilBrace within)) fun _ _ tally =>
    after (Faultless.expect "\x7d") fun _ _ => value tally

theorem block : Accounts context tokens fault seen (block (statement room)) fun body count =>
    Stmt.TalliedAll fault body count :=
  after Faultless.atBrace fun _ _ => ite (fun _ => after Faultless.skip fun _ _ => blockBody within) fun _ =>
    value Tally.nil

theorem guarded (terminal : Terminal) :
    Accounts context tokens fault seen (guarded (ParseM.expression room) (statement room) terminal)
      fun made count => made.Tallied fault count :=
  bind parenthesized fun _ _ subject => bind (block within) fun _ _ tally =>
    value ((subject.append tally).sound rfl rfl)

theorem doWhile (terminal : Terminal) :
    Accounts context tokens fault seen (doWhile (ParseM.expression room) (statement room) terminal)
      fun made count => made.Tallied fault count := by
  refine bind (block within) fun body _ tally => look fun _ known =>
    after (Faultless.reserve known) fun _ _ =>
    after (Faultless.expect "while") fun _ _ => bind parenthesized fun condition _ last =>
      after Faultless.expectSemicolon fun _ _ => value ?_
  have whole := Tally.append tally last
  rw [List.append_nil] at whole
  exact whole.sound rfl rfl

theorem elseBody : Accounts context tokens fault seen (elseBody (statement room)) fun body? count =>
    Tally fault (Stmt.walkAll? body?) ((Stmt.standingAll? body?).flatMap Stmt.faults) count := by
  have alternative : Accounts context tokens fault none (alternative (statement room)) fun body count =>
      Stmt.TalliedAll fault body count :=
    look fun _ _ => ite (fun _ => bind within.weaken fun _ _ tally => value tally) fun _ => block within
  exact look fun _ _ => ite (fun _ => after Faultless.advance fun _ known =>
    after (Faultless.reserve known) fun _ _ => bind alternative fun _ _ tally => value tally) fun _ =>
      value Tally.nil

theorem ifElse (terminal : Terminal) :
    Accounts context tokens fault seen (ifElse (ParseM.expression room) (statement room) terminal)
      fun made count => made.Tallied fault count := by
  refine bind parenthesized fun condition _ subject => bind (block within) fun thenBody _ yes =>
    bind (elseBody within) fun elseBody? _ no => value ?_
  have whole := (subject.append yes).append no
  rw [List.nil_append, ← List.flatMap_append] at whole
  exact (whole.sound rfl rfl).of_eq (Nat.add_assoc _ _ _)

theorem forLoop (terminal : Terminal) :
    Accounts context tokens fault seen (forLoop (ParseM.expression room) (statement room) terminal)
      fun made count => made.Tallied fault count := by
  refine after (Faultless.expect "(") fun _ _ => bind (optional ";") fun _ _ first =>
    after (Faultless.expect ";") fun _ _ => bind (optional ";") fun _ _ condition =>
    after (Faultless.expect ";") fun _ _ => bind (optional ")") fun _ _ step =>
    after (Faultless.expect ")") fun _ _ => bind (block within) fun _ _ tally => value ?_
  have whole := ((first.append condition).append step).append tally
  exact (whole.sound rfl rfl).of_eq (by omega)

theorem classDefinition (terminal : Terminal) :
    Accounts context tokens fault seen (classDefinition (statement room) terminal) fun made count =>
      made.Tallied fault count :=
  after Faultless.abstractModifier fun _ _ => after (Faultless.className terminal) fun _ _ =>
    after Faultless.superclass fun superclass? _ => bind (block within) fun _ _ tally =>
      value ((tally.afterAtoms superclass?.toList).sound rfl rfl)

theorem functionScope : Accounts context tokens fault seen (functionScope (statement room)) fun read count =>
    Stmt.TalliedAll fault (read.2.getD []) count :=
  after Faultless.parameters fun _ _ => after (Faultless.expect ")") fun _ _ =>
    after Faultless.atBrace fun _ _ =>
    ite (fun _ => after Faultless.skip fun _ _ => bind (statementsUntilBrace within) fun _ _ tally =>
      value tally) fun _ => value Tally.nil

theorem function {name : Terminal} (known : Known context tokens name) (returnType : ValueType) :
    Accounts context tokens fault seen (function (statement room) name returnType) fun made count =>
      made.Tallied fault count := by
  have closed (body? : Option (List Stmt)) :
      Faultless context tokens fault none (closeBody body?) fun body => body = body?.getD [] := by
    cases body? with
    | none => exact value ⟨rfl, rfl⟩
    | some body => exact after (Faultless.expect "\x7d") fun _ _ => value ⟨rfl, rfl⟩
  rw [function_eq]
  refine after (Faultless.functionName known returnType) fun _ _ => after (Faultless.expect "(") fun _ _ =>
    bind (inScope .function (functionScope within)) fun read _ tally =>
      after (closed read.2) fun body same => value ?_
  subst same
  have whole := tally.afterAtoms (read.1.map (·.name))
  rw [List.map_map] at whole
  exact whole.sound rfl rfl

theorem declaration (keyword : Terminal) (valueType : ValueType) :
    Accounts context tokens fault seen
      (declaration (ParseM.expression room) (statement room) keyword valueType) fun made count =>
        made.Tallied fault count :=
  after Faultless.advanceUnlessCloser fun _ known => look fun _ _ =>
    ite (fun _ => function within known valueType) fun _ => variableList keyword known valueType

theorem statementForm (terminal : Terminal) (form : StatementForm) :
    Accounts context tokens fault seen
      (statementForm (ParseM.expression room) (statement room) terminal form) fun made count =>
        made.Tallied fault count := by
  cases form with
  | block => exact bind (blockBody within) fun _ _ tally => value (tally.sound rfl rfl)
  | verb => exact verb terminal
  | classDefinition => exact classDefinition within terminal
  | returning => exact returning terminal
  | guarded => exact guarded within terminal
  | doWhile => exact doWhile within terminal
  | ifElse => exact ifElse within terminal
  | forLoop => exact forLoop within terminal
  | caseLabel => exact caseLabel terminal
  | bare => exact bare terminal
  | declaration valueType => exact declaration within terminal valueType

theorem statementBody :
    Accounts context tokens fault seen (statementBody (ParseM.expression room) (statement room))
      fun made count => Stmt.TalliedAll fault made.toList count := by
  refine look fun token _ => ?_
  cases token.denotations.statement? with
  | some form =>
      exact bind (after Faultless.advance fun terminal known => after (Faultless.log _) fun _ _ =>
        after (Faultless.reserve known) fun _ _ => statementForm within terminal form) fun _ _ tally =>
          value tally.single
  | none =>
      cases token.denotations.operand? with
      | some form => exact bind expressionStatement fun _ _ tally => value tally.single
      | none => exact after Faultless.skipStatement fun _ _ => value Tally.nil

end

/-- A statement is accounted for, by induction on the room for what is inside it. -/
theorem statement (room : Nat) :
    Accounts context tokens fault seen (statement room) fun made count =>
      Stmt.TalliedAll fault made.toList count := by
  induction room generalizing seen with
  | zero => exact after Faultless.refuse fun _ _ => value Tally.nil
  | succ room ih =>
      exact after Faultless.enter fun _ _ => bind (statementBody ih) fun _ _ tally =>
        after Faultless.leave fun _ _ => value tally

theorem statements (room : Nat) :
    Accounts context tokens fault seen (statements (ParseM.statement room)) fun body count =>
      Stmt.TalliedAll fault body count := by
  have list {seen : Option Terminal} := @statementsUntilBrace context tokens fault seen room (statement room)
  refine bind list fun first before tally => whileToken (fun body count all => ?_) tally
  refine after (Faultless.recover _) fun _ _ => bind list fun more added others => value ?_
  exact (all.append others).of_eq (Nat.add_assoc _ _ _)

end Accounts

end Adventure.ParseM
