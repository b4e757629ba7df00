import Adventure.Proofs.Standing

/-!
Declarations. A statement that introduces names binds them in the scope where it stands, so those that
the statements of a document introduce are bound at the root and found from everywhere.
-/

namespace Adventure

def declaredNames (declarators : List Declarator) : List String :=
  declarators.map (·.name.head.text)

/-- The names that a statement introduces where it stands. -/
def Stmt.introduced : Stmt → List String
  | .declaration _ _ declarators => declaredNames declarators
  | .function head .. => [head.text]
  | .classDefinition head .. => [head.text]
  | _ => []

namespace ScopeTree

/-- The scope binds the name, if nothing else gives it a meaning. -/
def Supplies (tree : ScopeTree) (scope : Nat) (name : String) : Prop :=
  Word.isNameText name = true → Grammar.standard.get? name = none →
    ∃ found, tree.get? scope = some found ∧ (found.get? name).isSome

variable {before after : ScopeTree} {scope : Nat} {name : String}

theorem Supplies.mono (supplies : before.Supplies scope name) (extended : before.Extends after) :
    after.Supplies scope name := by
  intro text unknown
  obtain ⟨found, present, bound⟩ := supplies text unknown
  obtain ⟨later, there, _, kept⟩ := extended _ _ present
  exact ⟨later, there, kept name bound⟩

theorem supplies_define (tree : ScopeTree) {scope : Nat} (present : scope < tree.size)
    (definition : Definition) :
    (tree.define scope definition).1.Supplies scope definition.name := by
  intro _ _
  obtain ⟨found, there⟩ := get?_of_lt present
  refine ⟨found.insert definition, ?_, by simp⟩
  simp [define, there]

end ScopeTree

namespace ParseM

variable {α : Type} {context : Context} {tokens : List Token} {state : ParseState} {scope : Nat}

/-- The scope in which reading began supplies all of `names`. -/
structure Introduces (context : Context) (tokens : List Token) (scope : Nat) (names : List String)
    (after : ParseState) : Prop where
  standing : Standing context tokens scope after
  supplied : ∀ name ∈ names, after.scopes.Supplies scope name

theorem Known.classKeyword {terminal : Terminal} (known : Known context tokens terminal)
    (grammar : context.grammar = Grammar.standard)
    (starts : terminal.denotations.statement? = some .classDefinition) :
    Grammar.standard.get? terminal.text ≠ none := by
  intro unknown
  have idle : (Grammar.standard.denotations terminal.text).statement? = none := by
    simp [Grammar.denotations, unknown]
  have literal : (Grammar.standard.denotations "(literal)").statement? = none := by decide
  rcases known with rfl | ⟨token, _, _, means⟩
  · have ended : (Grammar.standard.denotations "(end)").statement? = none := by decide
    simp only [endTerminal, grammar] at starts
    exact absurd (ended.symm.trans starts) (by simp)
  · rcases means.denotations with same | ⟨_, same⟩
    · rw [same, Word.denotations] at starts
      rw [means.text] at idle
      split at starts
      · simp [literal] at starts
      · simp [literal] at starts
      · split at starts
        · cases starts
        · simp [idle] at starts
    · simp [same, Denotations.identifier] at starts

theorem statementForm_introduced (terminal : Terminal) {form : StatementForm} (room : Nat)
    (other : form ≠ .classDefinition) (others : ∀ valueType, form ≠ .declaration valueType) :
    ((statementForm (expression room) (statement room) terminal form).run context state).1.introduced
      = [] := by
  cases form with
  | classDefinition => exact absurd rfl other
  | declaration valueType => exact absurd rfl (others valueType)
  | block => simp only [statementForm, run_bind, run_pure, Stmt.introduced]
  | verb => simp only [statementForm, verb, run_bind, run_pure, Stmt.introduced]
  | returning => simp only [statementForm, returning, run_bind, run_pure, Stmt.introduced]
  | guarded => simp only [statementForm, guarded, run_bind, run_pure, Stmt.introduced]
  | doWhile => simp only [statementForm, doWhile, run_bind, run_pure, Stmt.introduced]
  | ifElse => simp only [statementForm, ifElse, run_bind, run_pure, Stmt.introduced]
  | forLoop => simp only [statementForm, forLoop, run_bind, run_pure, Stmt.introduced]
  | caseLabel => simp only [statementForm, caseLabel, run_bind, run_pure, Stmt.introduced]
  | bare => simp only [statementForm, bare, run_bind, run_pure, Stmt.introduced]

theorem Standing.introduces (standing : Standing context tokens scope state) :
    Introduces context tokens scope [] state := ⟨standing, by simp⟩

section

variable (lexical : ∀ token ∈ tokens, token.Lexical)
include lexical

theorem Known.supplies {terminal : Terminal} (known : Known context tokens terminal)
    (other : ¬terminal.isName = true) (tree : ScopeTree) : tree.Supplies scope terminal.text :=
  fun text _ => absurd ((known.isNameText_iff lexical).mp text) other

variable (grammar : context.grammar = Grammar.standard)
include grammar

theorem Introduces.reader {names : List String} (introduces : Introduces context tokens scope names state)
    {reader : Open α} (composed : Composed (Known context tokens) none reader) (built : Built reader)
    (room : Nat) : Introduces context tokens scope names
      ((reader (expression room) (statement room)).run context state).2 := by
  obtain ⟨standing, extended⟩ := introduces.standing.reader grammar lexical composed built room
  exact ⟨standing, fun name member => (introduces.supplied name member).mono extended⟩

theorem Introduces.append {names others : List String}
    (introduces : Introduces context tokens scope names state) {reader : Open α}
    (composed : Composed (Known context tokens) none reader) (built : Built reader) (room : Nat)
    (next : Introduces context tokens scope others
      ((reader (expression room) (statement room)).run context state).2) :
    Introduces context tokens scope (names ++ others)
      ((reader (expression room) (statement room)).run context state).2 := by
  have kept := introduces.reader lexical grammar composed built room
  refine ⟨kept.standing, fun name member => ?_⟩
  rcases List.mem_append.mp member with before | last
  · exact kept.supplied name before
  · exact next.supplied name last

theorem define_introduces (standing : Standing context tokens scope state) {terminal : Terminal}
    (known : Known context tokens terminal) (arity : Arity) (valueType? : Option ValueType) :
    Introduces context tokens scope [terminal.text]
      ((define terminal arity valueType?).run context state).2 := by
  have composed : Composed (Known context tokens) none
      fun _ _ => define terminal arity valueType? := .step (.define known arity valueType?)
  have after := standing.reader grammar lexical composed (.step (.define terminal arity valueType?)) 0
  refine ⟨after.1, fun name member => ?_⟩
  rw [List.mem_singleton.mp member, define_run]
  have supplied := ScopeTree.supplies_define state.scopes standing.grounded.current
    (declared terminal arity valueType? state.scope)
  rw [standing.scope] at supplied ⊢
  exact supplied

theorem Standing.advance (standing : Standing context tokens scope state) :
    Standing context tokens scope (advance.run context state).2 :=
  (standing.reader grammar lexical .advance (.step .advance) 0).1

theorem Standing.error (standing : Standing context tokens scope state) {problem : Problem}
    (ordinary : problem.isOrdinary = true) (span : Span) :
    Standing context tokens scope ((error problem span).run context state).2 :=
  (standing.reader grammar lexical (.error ordinary span) (.error problem span) 0).1

theorem error_introduces (standing : Standing context tokens scope state) {terminal : Terminal}
    (known : Known context tokens terminal) (other : ¬terminal.isName = true) {problem : Problem}
    (ordinary : problem.isOrdinary = true) (span : Span) :
    Introduces context tokens scope [terminal.text] ((error problem span).run context state).2 := by
  refine ⟨standing.error lexical grammar ordinary span, fun name member => ?_⟩
  rw [List.mem_singleton.mp member]
  exact known.supplies lexical other _

theorem className_introduces (standing : Standing context tokens scope state) {keyword : Terminal}
    (bound : Grammar.standard.get? keyword.text ≠ none) :
    let last := (className keyword).run context state
    Introduces context tokens scope [last.1.text] last.2 := by
  have known := standing.understood.lookahead
  have taken := standing.advance lexical grammar
  simp only [className, run_current_bind, run_ite]
  split
  · have defined := define_introduces lexical grammar taken known .classDefinition none
    rw [run_bind, advance_value]
    exact defined
  · rename_i other
    have reported : Introduces context tokens scope [state.token.text]
        ((error .expectedClassName state.token.span).run context state).2 :=
      error_introduces lexical grammar standing known other rfl _
    rw [run_bind, run_ite]
    split
    · refine ⟨reported.standing, fun name member => ?_⟩
      intro _ unknown
      rw [List.mem_singleton.mp member] at unknown
      exact absurd unknown bound
    · have after := reported.reader lexical grammar .advance (.step .advance) 0
      rw [advance_value]
      exact after

theorem Introduces.bind {β : Type} {first : ParseM β} (next : β → Open α) (names : β → List String)
    (introduced : α → List String)
    (introduces : Introduces context tokens scope (names (first.run context state).1)
      (first.run context state).2)
    (composed : ∀ known value, Composed known none (next value)) (room : Nat)
    (same : ∀ value state, introduced
      ((next value (expression room) (statement room)).run context state).1 = names value) :
    let last := (first >>= fun value => next value (expression room) (statement room)).run context state
    Introduces context tokens scope (introduced last.1) last.2 := by
  simp only [run_bind, same]
  exact introduces.reader lexical grammar (composed _ _) (.of_composed (composed _ _)) room

theorem classDefinition_introduces (standing : Standing context tokens scope state)
    {keyword : Terminal} (bound : Grammar.standard.get? keyword.text ≠ none) (room : Nat) :
    let last := (classDefinition (statement room) keyword).run context state
    Introduces context tokens scope last.1.introduced last.2 := by
  have opened := (standing.reader grammar lexical .abstractModifier (.of_composed .abstractModifier)
    room).1
  have named := className_introduces lexical grammar opened bound
  let isAbstract := (abstractModifier.run context state).1
  let rest (name : Terminal) : Open Stmt := fun _ nested => do
    let superclass? ← superclass
    let body ← block nested
    return .classDefinition name.head isAbstract superclass? body
  have composed (known : Terminal → Prop) (name : Terminal) : Composed known none (rest name) :=
    .bind .superclass fun _ => .bind .block fun _ => .value _
  exact Introduces.bind lexical grammar rest (fun name => [name.text]) Stmt.introduced named composed
    room fun _ _ => rfl

theorem functionName_introduces (standing : Standing context tokens scope state) {name : Terminal}
    (known : Known context tokens name) (returnType : ValueType) :
    Introduces context tokens scope [name.text]
      ((functionName name returnType).run context state).2 := by
  unfold functionName
  rw [run_ite]
  split
  · exact define_introduces lexical grammar standing known .function (some returnType)
  · rename_i other
    exact error_introduces lexical grammar standing known other rfl name.span

theorem function_introduces (standing : Standing context tokens scope state) {name : Terminal}
    (known : Known context tokens name) (returnType : ValueType) (room : Nat) :
    let last := (function (statement room) name returnType).run context state
    Introduces context tokens scope last.1.introduced last.2 := by
  have named := functionName_introduces lexical grammar standing known returnType
  let rest (_ : Unit) : Open Stmt := fun _ nested => do
    let _ ← expect "("
    let read ← inScope (functionScope nested)
    let body ← closeBody read.2
    return .function name.head returnType read.1 body
  have composed (known : Terminal → Prop) (value : Unit) : Composed known none (rest value) :=
    .bind (.expect _) fun _ => .bind (.inScope .function .functionScope) fun read =>
      .bind (.closeBody read.2) fun _ => .value _
  have whole : function (statement room) name returnType =
      (functionName name returnType >>= fun value => rest value (expression room) (statement room)) :=
    function_eq _ _ _
  have same (value : Unit) (state : ParseState) :
      ((rest value (expression room) (statement room)).run context state).1.introduced = [name.text] := by
    simp only [rest, run_bind, run_pure, Stmt.introduced]
    rfl
  rw [whole]
  exact Introduces.bind lexical grammar rest (fun _ => [name.text]) Stmt.introduced named composed room
    same

theorem variableName_introduces (standing : Standing context tokens scope state) {name : Terminal}
    (known : Known context tokens name) (valueType : ValueType) :
    let last := (variableName name valueType).run context state
    Introduces context tokens scope [last.1.head.text] last.2 := by
  simp only [variableName, run_ite]
  split
  · exact define_introduces lexical grammar standing known .name (some valueType)
  · rename_i other
    exact error_introduces lexical grammar standing known other rfl name.span

theorem declarator_introduces (standing : Standing context tokens scope state) {name : Terminal}
    (known : Known context tokens name) (valueType : ValueType) (room : Nat) :
    let last := (declarator (expression room) valueType name).run context state
    Introduces context tokens scope [last.1.name.head.text] last.2 := by
  have named := variableName_introduces lexical grammar standing known valueType
  let rest (atom : Atom) : Open Declarator := fun inner _ => do
    let array ← arraySize inner
    let initializer? ← initializer inner array.1
    return ⟨atom, array.1, array.2, initializer?⟩
  have composed (known : Terminal → Prop) (atom : Atom) : Composed known none (rest atom) :=
    .bind .arraySize fun array => .bind (.initializer array.1) fun _ => .value _
  have whole : declarator (expression room) valueType name =
      (variableName name valueType >>= fun atom => rest atom (expression room) (statement room)) := rfl
  rw [whole]
  exact Introduces.bind lexical grammar rest (fun atom => [atom.head.text])
    (fun made => [made.name.head.text]) named composed room fun _ _ => rfl

theorem advanceUnlessCloser_known (standing : Standing context tokens scope state) :
    let last := advanceUnlessCloser.run context state
    Known context tokens last.1 ∧ Standing context tokens scope last.2 := by
  have known := standing.understood.lookahead
  have taken := standing.advance lexical grammar
  simp only [advanceUnlessCloser, run_current_bind, run_ite, run_pure]
  split
  · exact ⟨known, standing⟩
  · rw [advance_value]
    exact ⟨known, taken⟩

theorem nextDeclarator_introduces (standing : Standing context tokens scope state)
    (valueType : ValueType) (room : Nat) :
    let last := (nextDeclarator (expression room) valueType).run context state
    Introduces context tokens scope [last.1.name.head.text] last.2 := by
  obtain ⟨known, taken⟩ := advanceUnlessCloser_known lexical grammar standing
  exact declarator_introduces lexical grammar taken known valueType room

theorem afterComma_introduces {made : List Declarator}
    (introduces : Introduces context tokens scope (declaredNames made) state)
    (valueType : ValueType) (room : Nat) :
    let last := (afterComma (nextDeclarator (expression room) valueType) made).run context state
    Introduces context tokens scope (declaredNames last.1) last.2 := by
  have comma := introduces.reader lexical grammar (.expect ",") (.of_composed (.expect ",")) room
  have next := nextDeclarator_introduces lexical grammar comma.standing valueType room
  have both := comma.append lexical grammar (.nextDeclarator valueType)
    (.of_composed (.nextDeclarator valueType)) room next
  simp only [afterComma, run_bind, run_pure, declaredNames, List.map_append, List.map_cons,
    List.map_nil]
  exact both

theorem variableList_introduces (standing : Standing context tokens scope state)
    {name : Terminal} (known : Known context tokens name) (keyword : Terminal) (valueType : ValueType)
    (room : Nat) :
    let last := (variableList (expression room) keyword name valueType).run context state
    Introduces context tokens scope last.1.introduced last.2 := by
  have first := declarator_introduces lexical grammar standing known valueType room
  have round (made : List Declarator) (before : ParseState)
      (introduces : Introduces context tokens scope (declaredNames made) before) :=
    afterComma_introduces lexical grammar introduces valueType room
  let listed : ParseM (List Declarator) := do
    let declared ← declarator (expression room) valueType name
    afterCommas (nextDeclarator (expression room) valueType) declared
  have others : Introduces context tokens scope (declaredNames (listed.run context state).1)
      (listed.run context state).2 := by
    simp only [listed, afterCommas, run_bind]
    exact @whileToken_invariant (List Declarator) context (·.id == ",") _
      (fun made after => Introduces context tokens scope (declaredNames made) after) round _ _ first
  let rest (declarators : List Declarator) : Open Stmt := fun _ _ => do
    expectSemicolon
    return .declaration keyword.head valueType declarators
  have composed (known : Terminal → Prop) (declarators : List Declarator) :
      Composed known none (rest declarators) :=
    .bind .expectSemicolon fun _ => .value _
  have whole : variableList (expression room) keyword name valueType =
      listed >>= fun declarators => rest declarators (expression room) (statement room) := by
    rw [bind_assoc]
    rfl
  rw [whole]
  exact Introduces.bind lexical grammar rest declaredNames Stmt.introduced others composed room
    fun _ _ => rfl

theorem declaration_introduces (standing : Standing context tokens scope state)
    (keyword : Terminal) (valueType : ValueType) (room : Nat) :
    let last :=
      (declaration (expression room) (statement room) keyword valueType).run context state
    Introduces context tokens scope last.1.introduced last.2 := by
  obtain ⟨known, taken⟩ := advanceUnlessCloser_known lexical grammar standing
  unfold declaration
  rw [run_bind, run_current_bind, run_ite]
  split
  · exact function_introduces lexical grammar taken known valueType room
  · exact variableList_introduces lexical grammar taken known keyword valueType room

theorem statementForm_introduces (standing : Standing context tokens scope state)
    {terminal : Terminal} {form : StatementForm}
    (keyword : form = .classDefinition → Grammar.standard.get? terminal.text ≠ none) (room : Nat) :
    let last := (statementForm (expression room) (statement room) terminal form).run context state
    Introduces context tokens scope last.1.introduced last.2 := by
  by_cases isClass : form = .classDefinition
  · subst isClass
    exact classDefinition_introduces lexical grammar standing (keyword rfl) room
  · by_cases isDeclaration : ∃ valueType, form = .declaration valueType
    · obtain ⟨valueType, rfl⟩ := isDeclaration
      exact declaration_introduces lexical grammar standing terminal valueType room
    · have others (valueType : ValueType) : form ≠ .declaration valueType :=
        fun same => isDeclaration ⟨valueType, same⟩
      dsimp only
      rw [statementForm_introduced terminal room isClass others]
      exact (standing.reader grammar lexical (.statementForm terminal form)
        (.of_composed (.statementForm terminal form)) room).1.introduces

theorem statementBody_introduces (standing : Standing context tokens scope state) (room : Nat) :
    let last := (statementBody (expression room) (statement room)).run context state
    Introduces context tokens scope (last.1.toList.flatMap Stmt.introduced) last.2 := by
  have known := standing.understood.lookahead
  have whole := (standing.reader grammar lexical .statementBody Built.statementBody room).1.introduces
  simp only [statementBody, run_current_bind] at whole ⊢
  cases starts : state.token.denotations.statement? with
  | some form =>
      have taken := standing.advance lexical grammar
      have logged := (taken.reader grammar lexical
        (.step (@Plain.log _ (.statement state.token.id state.token.span.start) rfl))
        (.step (.log (.statement state.token.id state.token.span.start))) room).1
      have reserved := (logged.reader grammar lexical (.step (.reserve known))
        (.step (.reserve state.token)) room).1
      have keyword (isClass : form = .classDefinition) :
          Grammar.standard.get? state.token.text ≠ none :=
        known.classKeyword grammar (isClass ▸ starts)
      have formed := statementForm_introduces lexical grammar reserved keyword room
      simp only [formedStatement, run_bind, run_pure, advance_value, Option.toList_some,
        List.flatMap_cons, List.flatMap_nil, List.append_nil]
      exact formed
  | none =>
      cases operand : state.token.denotations.operand? with
      | some form =>
          simp only [starts, operand] at whole
          simpa only [expressionStatement, run_bind, run_pure, Option.toList_some,
            List.flatMap_cons, List.flatMap_nil, List.append_nil, Stmt.introduced] using whole
      | none =>
          simp only [starts, operand] at whole
          simpa only [run_bind, run_pure, Option.toList_none, List.flatMap_nil] using whole

theorem statement_introduces (standing : Standing context tokens scope state) (room : Nat) :
    let last := (statement room).run context state
    Introduces context tokens scope (last.1.toList.flatMap Stmt.introduced) last.2 := by
  cases room with
  | zero => exact (standing.reader grammar lexical .nested .nested 0).1.introduces
  | succ room =>
      obtain ⟨⟨bindings, ended, ahead, lookahead⟩, ⟨rooted, current⟩, here⟩ := standing
      have entered : Standing context tokens scope (enter.run context state).2 :=
        ⟨⟨bindings, ended, ahead, lookahead⟩, ⟨rooted, current⟩, here⟩
      have body := statementBody_introduces lexical grammar entered room
      obtain ⟨⟨⟨bindings, ended, ahead, lookahead⟩, ⟨rooted, current⟩, here⟩, supplied⟩ := body
      exact ⟨⟨⟨bindings, ended, ahead, lookahead⟩, ⟨rooted, current⟩, here⟩, supplied⟩

theorem statementsUntilBrace_introduces (standing : Standing context tokens scope state) (room : Nat) :
    let last := (statementsUntilBrace (statement room)).run context state
    Introduces context tokens scope (last.1.flatMap Stmt.introduced) last.2 := by
  have round (made : List Stmt) (before : ParseState)
      (introduces : Introduces context tokens scope (made.flatMap Stmt.introduced) before) :
      let last := (anotherStatement (statement room) made).run context before
      Introduces context tokens scope (last.1.flatMap Stmt.introduced) last.2 := by
    have next := statement_introduces lexical grammar introduces.standing room
    have both := introduces.append lexical grammar .nested .nested room next
    simp only [anotherStatement, run_bind, run_pure, List.flatMap_append]
    exact both
  exact @whileToken_invariant (List Stmt) context (·.id != "\x7d") _
    (fun made after => Introduces context tokens scope (made.flatMap Stmt.introduced) after) round
    [] state standing.introduces

theorem statements_introduces (standing : Standing context tokens scope state) (room : Nat) :
    let last := (statements (statement room)).run context state
    Introduces context tokens scope (last.1.flatMap Stmt.introduced) last.2 := by
  have round (made : List Stmt) (before : ParseState)
      (introduces : Introduces context tokens scope (made.flatMap Stmt.introduced) before) :
      let last := (afterStrayBrace (statement room) made).run context before
      Introduces context tokens scope (last.1.flatMap Stmt.introduced) last.2 := by
    have recovered := introduces.reader lexical grammar (.recover (·.id == "\x7d"))
      (.of_composed (.recover (·.id == "\x7d"))) room
    have next := statementsUntilBrace_introduces lexical grammar recovered.standing room
    have both := recovered.append lexical grammar .statementsUntilBrace
      (.of_composed .statementsUntilBrace) room next
    simp only [afterStrayBrace, run_bind, run_pure, List.flatMap_append]
    exact both
  have first := statementsUntilBrace_introduces lexical grammar standing room
  exact @whileToken_invariant (List Stmt) context (fun _ => true) _
    (fun made after => Introduces context tokens scope (made.flatMap Stmt.introduced) after) round
    _ _ first

end

end ParseM

end Adventure
