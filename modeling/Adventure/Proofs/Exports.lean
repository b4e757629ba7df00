import Adventure.Proofs.Declarations
import Adventure.Proofs.Isolation
import Adventure.Proofs.Values

/-!
Exports. What a scope declares is what the statements introduce that stand in it. The names inside of
functions, classes and blocks are declared in other scopes, and a keyword that takes its own text as a name
declares nothing.
-/

namespace Adventure

namespace ScopeTree

def Declares (tree : ScopeTree) (scope : Nat) (name : String) : Prop :=
  ∃ found, tree.get? scope = some found ∧ found.declares name = true

variable {tree : ScopeTree} {scope : Nat} {name : String}

theorem Declares.of_insert {target : Scope} {definition : Definition} (there : tree.get? scope = some target)
    (declares : (tree.modify scope (·.insert definition)).Declares scope name) :
    tree.Declares scope name ∨ name = definition.name ∧ definition.reserved = false := by
  obtain ⟨found, present, bound⟩ := declares
  rw [get?_modify, if_pos rfl, there, Option.map_some, Option.some.injEq] at present
  subst present
  by_cases same : definition.name = name
  · right
    simpa [Scope.declares, same] using bound
  · left
    refine ⟨target, there, ?_⟩
    simpa [Scope.declares, same] using bound

theorem Declares.of_define {definition : Definition}
    (declares : (tree.define scope definition).1.Declares scope name) :
    tree.Declares scope name ∨ name = definition.name := by
  unfold define at declares
  cases there : tree.get? scope with
  | none =>
      rw [there] at declares
      exact .inl declares
  | some target =>
      rw [there] at declares
      exact (Declares.of_insert there declares).imp_right And.left

theorem Declares.of_reserve {terminal : Terminal}
    (declares : (tree.reserve scope terminal).1.Declares scope name) : tree.Declares scope name := by
  have reserved (target : Scope) (there : tree.get? scope = some target)
      (after : (tree.modify scope (·.insert (reservation scope terminal))).Declares scope name) :
      tree.Declares scope name := by
    rcases Declares.of_insert there after with before | ⟨_, other⟩
    · exact before
    · cases other
  unfold reserve at declares
  split at declares
  · exact declares
  · split at declares
    · exact declares
    · rename_i target there
      split at declares
      · exact reserved target there declares
      · split at declares
        · exact declares
        · split at declares <;> exact reserved target there declares

end ScopeTree

namespace ParseM

variable {α β : Type} {context : Context} {tokens : List Token} {state : ParseState} {scope : Nat}

/-- Reading came back to its scope, which declares no more than before. -/
structure Silent (before after : ParseState) : Prop where
  scope : after.scope = before.scope
  declared : ∀ name, after.scopes.Declares before.scope name → before.scopes.Declares before.scope name

theorem Silent.of_eq {before after : ParseState} (scope : after.scope = before.scope)
    (scopes : after.scopes = before.scopes) : Silent before after :=
  ⟨scope, fun _ declares => scopes ▸ declares⟩

theorem Silent.trans {first second third : ParseState} (begins : Silent first second)
    (goes : Silent second third) : Silent first third := by
  refine ⟨goes.scope.trans begins.scope, fun name declares => begins.declared name ?_⟩
  rw [← begins.scope] at declares ⊢
  exact goes.declared name declares

theorem Known.choice {terminal : Terminal} (known : Known context tokens terminal)
    (id : terminal.id = "if") :
    terminal.denotations.statement? = none ∨ terminal.denotations.statement? = some .ifElse := by
  have starts : (Grammar.standard.denotations "if").statement? = some .ifElse := by decide
  rcases known with rfl | ⟨token, _, _, means⟩
  · simp [endTerminal] at id
  · rcases means.denotations with same | ⟨_, same⟩
    · rw [means.id] at id
      rw [same]
      unfold Word.id at id
      unfold Word.denotations
      split at id
      · simp at id
      · simp at id
      · split at id
        · simp at id
        · rename_i bound
          rw [if_neg bound, id]
          exact .inr starts
    · rw [same]
      exact .inl rfl

section

variable (grammar : context.grammar = Grammar.standard) (lexical : ∀ token ∈ tokens, token.Lexical)

def silence : Discipline context where
  known := Known context tokens
  fits _ _ := True
  holds state := Understood context tokens state ∧ Grounded state
  follows := Silent
  refl _ := .of_eq rfl rfl
  trans := .trans
  fitting _ := trivial
  lookahead before := before.1.lookahead
  take {state} before := by
    obtain ⟨terminal, passed, pending, events, ran, _⟩ := @advance_run context state
    refine ⟨⟨(understood_kept grammar lexical).take before.1, grounded_kept.take before.2⟩, ?_⟩
    rw [ran]
    exact .of_eq rfl rfl
  still {before after} alike holds := by
    have understood := holds.1
    refine ⟨⟨⟨alike.scopes ▸ understood.bindings, understood.ended.of_eq alike.token alike.pending, ?_,
      alike.token ▸ understood.lookahead⟩, holds.2.bound alike.scope (alike.scopes ▸ .same)⟩,
      .of_eq alike.scope alike.scopes⟩
    rw [ParseState.ahead, alike.token, alike.pending]
    exact understood.ahead
  reserve {terminal state} known before := by
    refine ⟨⟨(understood_kept grammar lexical).plain (.reserve known) before.1,
      grounded_kept.plain (.reserve trivial) before.2⟩, ?_⟩
    rw [reserve_run]
    exact ⟨rfl, fun name declares => declares.of_reserve⟩

theorem inScope_silent {reader : Open α} (composed : Composed (Known context tokens) none reader)
    (built : Built reader) (closable : Closable reader) (room : Nat) :
    Yields (silence grammar lexical) none (inScope (reader (expression room) (statement room)))
      fun _ => True := by
  intro state before _
  have understood := (understood_kept grammar lexical).reader (.inScope closable composed) room before.1
  have resumes := (@resumes_graded context).reader (.inScope built) room state before.2
  have unchanged := @inScope_unchanged α context _ built room state before.2 state.scope before.2.current
  refine ⟨trivial, ⟨understood, resumes.grounded⟩, resumes.scope, fun name declares => ?_⟩
  obtain ⟨found, present, bound⟩ := declares
  rw [unchanged] at present
  exact ⟨found, present, bound⟩

theorem blockBody_silent (room : Nat) :
    Yields (silence grammar lexical) none (blockBody (statement room)) fun body =>
      (silence grammar lexical).Sited (Stmt.walkAll body) := by
  rw [blockBody_eq]
  refine .bind (inScope_silent grammar lexical .statementsUntilBrace ?_ .statements room) fun body _ =>
    .bind (.expect _) fun _ _ => .value fun _ _ => trivial
  exact .of_composed .statementsUntilBrace

/-- What follows an `else` stands in the same scope as the choice, and is no declaration. -/
theorem choice_silent (room : Nat) {token : Terminal} (known : Known context tokens token)
    (id : token.id = "if") :
    Yields (silence grammar lexical) (some token) (statement room) fun made? =>
      (silence grammar lexical).Sited (Stmt.walkAll made?.toList) := by
  induction room generalizing token with
  | zero => exact .bind .refuse fun _ _ => .value fun _ _ => trivial
  | succ room ih =>
      refine .pass (fun _ => ⟨rfl, rfl, rfl, rfl⟩) fun _ => ?_
      suffices Yields (silence grammar lexical) (some token)
          (statementBody (expression room) (statement room)) fun _ => True from
        .bind this fun _ _ => .bind .leave fun _ _ => .value fun _ _ => trivial
      refine .again ?_
      rcases known.choice id with nothing | choice
      · rw [nothing]
        cases token.denotations.operand? with
        | some form => exact .bind .expressionStatement fun _ _ => .value trivial
        | none => exact .bind .skipStatement fun _ _ => .value trivial
      · rw [choice]
        have formed (terminal : Terminal) (held : Known context tokens terminal) :=
          @Yields.ifElse context (silence grammar lexical) none room
            (blockBody_silent grammar lexical room) (fun _ => ih) terminal held
        exact .bind (.take fun terminal held _ => .bind (.log _) fun _ _ => .bind (.reserve held)
          fun _ _ => formed terminal held) fun _ _ => .value trivial

end

/-- The scope declares no other names than these. -/
structure Exports (context : Context) (tokens : List Token) (scope : Nat) (names : List String)
    (state : ParseState) : Prop where
  standing : Standing context tokens scope state
  only : ∀ name, state.scopes.Declares scope name → name ∈ names

theorem Exports.more {names others : List String} (exports : Exports context tokens scope names state)
    (more : names ⊆ others) : Exports context tokens scope others state :=
  ⟨exports.standing, fun name declares => more (exports.only name declares)⟩

section

variable (grammar : context.grammar = Grammar.standard) (lexical : ∀ token ∈ tokens, token.Lexical)
  {names : List String}

include grammar lexical

theorem Exports.silent (exports : Exports context tokens scope names state) {action : ParseM α}
    {makes : α → Prop} (yields : Yields (silence grammar lexical) none action makes) :
    makes (action.run context state).1 ∧
      Exports context tokens scope names (action.run context state).2 := by
  obtain ⟨⟨understood, grounded, rfl⟩, only⟩ := exports
  obtain ⟨made, ⟨understood', grounded'⟩, same, declared⟩ := yields state ⟨understood, grounded⟩ (by simp)
  exact ⟨made, ⟨understood', grounded', same⟩, fun name declares => only name (declared name declares)⟩

theorem Exports.bind {first : ParseM α} {next : α → ParseM β} (others : α → List String)
    (introduced : β → List String)
    (exports : Exports context tokens scope (names ++ others (first.run context state).1)
      (first.run context state).2)
    (goes : ∀ value, Yields (silence grammar lexical) none (next value) fun made =>
      introduced made = others value) :
    let last := (first >>= next).run context state
    Exports context tokens scope (names ++ introduced last.1) last.2 := by
  obtain ⟨same, after⟩ := exports.silent grammar lexical (goes (first.run context state).1)
  simp only [run_bind]
  rw [same]
  exact after

theorem define_exports (exports : Exports context tokens scope names state) {terminal : Terminal}
    (known : Known context tokens terminal) (arity : Arity) (valueType? : Option ValueType) :
    Exports context tokens scope (names ++ [terminal.text])
      ((define terminal arity valueType?).run context state).2 := by
  have introduced := define_introduces lexical grammar exports.standing known arity valueType?
  refine ⟨introduced.standing, fun name declares => ?_⟩
  rw [define_run] at declares
  obtain ⟨⟨_, _, rfl⟩, only⟩ := exports
  rw [List.mem_append, List.mem_singleton]
  exact declares.of_define.imp_left (only name)

theorem className_exports (exports : Exports context tokens scope names state) (keyword : Terminal) :
    let last := (className keyword).run context state
    Exports context tokens scope (names ++ [last.1.text]) last.2 := by
  have known := exports.standing.understood.lookahead
  simp only [className, run_current_bind, run_ite]
  split
  · have taken := (exports.silent grammar lexical .advance).2
    have defined := define_exports grammar lexical taken known .classDefinition none
    rw [run_bind, advance_value]
    exact defined
  · have reported := (exports.silent grammar lexical (.error .expectedClassName state.token.span)).2
    rw [run_bind, run_ite]
    split
    · exact reported.more (List.subset_append_left _ _)
    · have after := (reported.silent grammar lexical .advance).2
      exact after.more (List.subset_append_left _ _)

theorem classDefinition_exports (exports : Exports context tokens scope names state)
    (keyword : Terminal) (room : Nat) :
    let last := (classDefinition (statement room) keyword).run context state
    Exports context tokens scope (names ++ last.1.introduced) last.2 := by
  have opened := (exports.silent grammar lexical .abstractModifier).2
  have named := className_exports grammar lexical opened keyword
  unfold classDefinition
  rw [run_bind]
  exact named.bind grammar lexical (fun name => [name.text]) Stmt.introduced fun name =>
    .bind .superclass fun _ _ => .bind (.block (blockBody_silent grammar lexical room)) fun _ _ =>
      .value rfl

theorem functionName_exports (exports : Exports context tokens scope names state) {name : Terminal}
    (known : Known context tokens name) (returnType : ValueType) :
    Exports context tokens scope (names ++ [name.text])
      ((functionName name returnType).run context state).2 := by
  unfold functionName
  rw [run_ite]
  split
  · exact define_exports grammar lexical exports known .function (some returnType)
  · have reported := (exports.silent grammar lexical (.error .expectedFunctionName name.span)).2
    exact reported.more (List.subset_append_left _ _)

theorem function_exports (exports : Exports context tokens scope names state) {name : Terminal}
    (known : Known context tokens name) (returnType : ValueType) (room : Nat) :
    let last := (function (statement room) name returnType).run context state
    Exports context tokens scope (names ++ last.1.introduced) last.2 := by
  have named := functionName_exports grammar lexical exports known returnType
  have inside := inScope_silent grammar lexical .functionScope (.of_composed .functionScope) .function room
  have closed (body? : Option (List Stmt)) :
      Yields (silence grammar lexical) none (closeBody body?) fun _ => True := by
    cases body? with
    | some body => exact .bind (.expect _) fun _ _ => .value trivial
    | none => exact .value trivial
  rw [function_eq]
  exact named.bind grammar lexical (fun _ => [name.text]) Stmt.introduced fun _ =>
    .bind (.expect _) fun _ _ => .bind inside fun read _ => .bind (closed read.2) fun _ _ => .value rfl

theorem variableName_exports (exports : Exports context tokens scope names state) {name : Terminal}
    (known : Known context tokens name) (valueType : ValueType) :
    let last := (variableName name valueType).run context state
    Exports context tokens scope (names ++ [last.1.head.text]) last.2 := by
  simp only [variableName, run_ite]
  split
  · exact define_exports grammar lexical exports known .name (some valueType)
  · have reported := (exports.silent grammar lexical (.error .expectedVariableName name.span)).2
    exact reported.more (List.subset_append_left _ _)

theorem declarator_exports (exports : Exports context tokens scope names state) {name : Terminal}
    (known : Known context tokens name) (valueType : ValueType) (room : Nat) :
    let last := (declarator (expression room) valueType name).run context state
    Exports context tokens scope (names ++ [last.1.name.head.text]) last.2 := by
  have named := variableName_exports grammar lexical exports known valueType
  unfold declarator
  apply named.bind grammar lexical (fun atom => [atom.head.text])
    (fun made : Declarator => [made.name.head.text])
  intro atom
  refine .bind .arraySize fun array _ => ?_
  refine .bind (.initializer array.1) fun _ _ => ?_
  exact .value rfl

theorem afterComma_exports {made : List Declarator}
    (exports : Exports context tokens scope (names ++ declaredNames made) state)
    (valueType : ValueType) (room : Nat) :
    let last := (afterComma (nextDeclarator (expression room) valueType) made).run context state
    Exports context tokens scope (names ++ declaredNames last.1) last.2 := by
  have comma := (exports.silent grammar lexical (.expect ",")).2
  obtain ⟨known, taken⟩ := comma.silent grammar lexical .advanceUnlessCloser
  have next := declarator_exports grammar lexical taken known valueType room
  simp only [afterComma, nextDeclarator, run_bind, run_pure, declaredNames, List.map_append,
    List.map_cons, List.map_nil, ← List.append_assoc]
  exact next

theorem variableList_exports (exports : Exports context tokens scope names state) {name : Terminal}
    (known : Known context tokens name) (keyword : Terminal) (valueType : ValueType) (room : Nat) :
    let last := (variableList (expression room) keyword name valueType).run context state
    Exports context tokens scope (names ++ last.1.introduced) last.2 := by
  have first := declarator_exports grammar lexical exports known valueType room
  have round (made : List Declarator) (before : ParseState)
      (exports : Exports context tokens scope (names ++ declaredNames made) before) :=
    afterComma_exports grammar lexical exports valueType room
  let listed : ParseM (List Declarator) := do
    let declared ← declarator (expression room) valueType name
    afterCommas (nextDeclarator (expression room) valueType) declared
  have others : Exports context tokens scope (names ++ declaredNames (listed.run context state).1)
      (listed.run context state).2 := by
    simp only [listed, afterCommas, run_bind]
    exact @whileToken_invariant (List Declarator) context (·.id == ",") _
      (fun made after => Exports context tokens scope (names ++ declaredNames made) after) round _ _ first
  have whole : variableList (expression room) keyword name valueType =
      listed >>= fun declarators => do
        expectSemicolon
        return .declaration keyword.head valueType declarators := by
    rw [bind_assoc]
    rfl
  rw [whole]
  exact others.bind grammar lexical declaredNames Stmt.introduced fun declarators =>
    .bind .expectSemicolon fun _ _ => .value rfl

theorem declaration_exports (exports : Exports context tokens scope names state) (keyword : Terminal)
    (valueType : ValueType) (room : Nat) :
    let last := (declaration (expression room) (statement room) keyword valueType).run context state
    Exports context tokens scope (names ++ last.1.introduced) last.2 := by
  obtain ⟨known, taken⟩ := exports.silent grammar lexical .advanceUnlessCloser
  unfold declaration
  rw [run_bind, run_current_bind, run_ite]
  split
  · exact function_exports grammar lexical taken known valueType room
  · exact variableList_exports grammar lexical taken known keyword valueType room

theorem statementForm_exports (exports : Exports context tokens scope names state)
    {terminal : Terminal} (known : Known context tokens terminal) (form : StatementForm) (room : Nat) :
    let last := (statementForm (expression room) (statement room) terminal form).run context state
    Exports context tokens scope (names ++ last.1.introduced) last.2 := by
  by_cases isClass : form = .classDefinition
  · subst isClass
    exact classDefinition_exports grammar lexical exports terminal room
  · by_cases isDeclaration : ∃ valueType, form = .declaration valueType
    · obtain ⟨valueType, rfl⟩ := isDeclaration
      exact declaration_exports grammar lexical exports terminal valueType room
    · have others (valueType : ValueType) : form ≠ .declaration valueType :=
        fun same => isDeclaration ⟨valueType, same⟩
      have plain := @Yields.plainForm context (silence grammar lexical) none room
        (blockBody_silent grammar lexical room) (fun _ => choice_silent grammar lexical room)
        terminal known form isClass others
      dsimp only
      rw [statementForm_introduced terminal room isClass others, List.append_nil]
      exact (exports.silent grammar lexical plain).2

theorem statementBody_exports (exports : Exports context tokens scope names state) (room : Nat) :
    let last := (statementBody (expression room) (statement room)).run context state
    Exports context tokens scope (names ++ last.1.toList.flatMap Stmt.introduced) last.2 := by
  have known := exports.standing.understood.lookahead
  simp only [statementBody, run_current_bind]
  cases state.token.denotations.statement? with
  | some form =>
      have taken := (exports.silent grammar lexical .advance).2
      have logged := (taken.silent grammar lexical
        (.log (.statement state.token.id state.token.span.start))).2
      have reserved := (logged.silent grammar lexical (.reserve known)).2
      have formed := statementForm_exports grammar lexical reserved known form room
      simp only [formedStatement, run_bind, run_pure, advance_value, Option.toList_some,
        List.flatMap_cons, List.flatMap_nil, List.append_nil]
      exact formed
  | none =>
      cases state.token.denotations.operand? with
      | some form =>
          have after := (exports.silent grammar lexical (@Yields.expressionStatement _ _ _ room)).2
          simp only [run_bind, run_pure, Option.toList_some, List.flatMap_cons, List.flatMap_nil,
            List.append_nil]
          exact after.more (List.subset_append_left _ _)
      | none =>
          have after := (exports.silent grammar lexical .skipStatement).2
          simpa only [run_bind, run_pure, Option.toList_none, List.flatMap_nil, List.append_nil] using after

theorem statement_exports (exports : Exports context tokens scope names state) (room : Nat) :
    let last := (statement room).run context state
    Exports context tokens scope (names ++ last.1.toList.flatMap Stmt.introduced) last.2 := by
  cases room with
  | zero =>
      have after := (exports.silent grammar lexical .refuse).2
      exact after.more (List.subset_append_left _ _)
  | succ room =>
      have entered := (exports.silent grammar lexical .enter).2
      have body := statementBody_exports grammar lexical entered room
      exact (body.silent grammar lexical .leave).2

theorem statementsUntilBrace_exports (exports : Exports context tokens scope names state) (room : Nat) :
    let last := (statementsUntilBrace (statement room)).run context state
    Exports context tokens scope (names ++ last.1.flatMap Stmt.introduced) last.2 := by
  have round (made : List Stmt) (before : ParseState)
      (exports : Exports context tokens scope (names ++ made.flatMap Stmt.introduced) before) :
      let last := (anotherStatement (statement room) made).run context before
      Exports context tokens scope (names ++ last.1.flatMap Stmt.introduced) last.2 := by
    have next := statement_exports grammar lexical exports room
    simp only [anotherStatement, run_bind, run_pure, List.flatMap_append, ← List.append_assoc]
    exact next
  refine @whileToken_invariant (List Stmt) context (·.id != "\x7d") _
    (fun made after => Exports context tokens scope (names ++ made.flatMap Stmt.introduced) after) round
    [] state ?_
  rw [List.flatMap_nil, List.append_nil]
  exact exports

/-- What the scope declares, the statements introduce that were read in it. -/
theorem statements_exports (exports : Exports context tokens scope [] state) (room : Nat) :
    let last := (statements (statement room)).run context state
    Exports context tokens scope (last.1.flatMap Stmt.introduced) last.2 := by
  have round (made : List Stmt) (before : ParseState)
      (exports : Exports context tokens scope (made.flatMap Stmt.introduced) before) :
      let last := (afterStrayBrace (statement room) made).run context before
      Exports context tokens scope (last.1.flatMap Stmt.introduced) last.2 := by
    have recovered := (exports.silent grammar lexical (.recover (·.id == "\x7d"))).2
    have next := statementsUntilBrace_exports grammar lexical recovered room
    simp only [afterStrayBrace, run_bind, run_pure, List.flatMap_append]
    exact next
  have first := statementsUntilBrace_exports grammar lexical exports room
  exact @whileToken_invariant (List Stmt) context (fun _ => true) _
    (fun made after => Exports context tokens scope (made.flatMap Stmt.introduced) after) round
    _ _ first

theorem start_exports : Exports context tokens 0 [] (ParseState.start context tokens) := by
  refine ⟨start_standing grammar lexical, fun name declares => ?_⟩
  obtain ⟨terminal, passed, pending, events, start, _⟩ := @start_eq context tokens
  rw [start] at declares
  obtain ⟨found, present, bound⟩ := declares
  obtain rfl : ({} : Scope) = found := by simpa [ScopeTree.get?, blank] using present
  simp [Scope.declares, Scope.get?] at bound

end

end ParseM

end Adventure
