import Adventure.Proofs.Layout
import Adventure.Proofs.Values

/-!
Anchors. What a document says about a piece of the source, it says with the text and the span of a token
that is there: every node of the tree and every binding has both from one token, and only the end of the
input stands in where a node has no token left.
-/

namespace Adventure

def Quotes (tokens : List Token) (text : String) (span : Span) : Prop :=
  ∃ token ∈ tokens, token.text = text ∧ token.span = span

/-- A token with this text stands at the span, or the input ends there. -/
def Anchors (tokens : List Token) (finish : Position) (text : String) (span : Span) : Prop :=
  Quotes tokens text span ∨ (text = "(end)" ∧ span = Span.at finish)

namespace ParseM

variable {α : Type} {context : Context} {tokens : List Token} {seen : Option Terminal}

def Held (context : Context) (tokens : List Token) (terminal : Terminal) : Prop :=
  terminal = endTerminal context ∨ ∃ token ∈ tokens, terminal.token? = some token

theorem Held.anchors {terminal : Terminal} (held : Held context tokens terminal) :
    Anchors tokens context.finish terminal.text terminal.span := by
  rcases held with rfl | ⟨token, member, made⟩
  · exact .inr ⟨rfl, rfl⟩
  · obtain ⟨kind, _, rfl⟩ := Option.map_eq_some_iff.mp made
    exact .inl ⟨_, member, rfl, rfl⟩

theorem Held.quotes {terminal : Terminal} (held : Held context tokens terminal)
    (named : terminal.isName = true) : Quotes tokens terminal.text terminal.span := by
  rcases held with rfl | ⟨token, member, made⟩
  · simp [endTerminal, Terminal.isName] at named
  · obtain ⟨kind, _, rfl⟩ := Option.map_eq_some_iff.mp made
    exact ⟨_, member, rfl, rfl⟩

/-- What is yet to be read is some of the tokens, and every binding was made by one of them. -/
structure Anchored (context : Context) (tokens : List Token) (state : ParseState) : Prop where
  lookahead : Held context tokens state.token
  pending : ∀ token ∈ state.pending, token ∈ tokens
  bindings : state.scopes.All fun definition => Quotes tokens definition.name definition.span

theorem Arrival.held {state : ParseState} {passed pending : List Token} {terminal : Terminal}
    (arrival : Arrival context state passed pending terminal)
    (within : ∀ token ∈ passed, token ∈ tokens) : Held context tokens terminal := by
  cases arrival with
  | finish => exact .inl rfl
  | terminal _ meant => exact .inr ⟨_, within _ (by simp), Token.meaning?_token? meant⟩

theorem advance_anchored {state : ParseState} (anchored : Anchored context tokens state) :
    Anchored context tokens (advance.run context state).2 := by
  obtain ⟨terminal, passed, pending, events, ran, split, arrival⟩ := @advance_run context state
  have known : ∀ token ∈ passed ++ pending, token ∈ tokens := split ▸ anchored.pending
  obtain ⟨within, others⟩ := List.forall_mem_append.mp known
  rw [ran]
  exact ⟨arrival.held within, others, anchored.bindings⟩

theorem start_anchored : Anchored context tokens (ParseState.start context tokens) := by
  obtain ⟨terminal, passed, pending, events, start, split, arrival⟩ := @start_eq context tokens
  have known : ∀ token ∈ passed ++ pending, token ∈ tokens := fun token member => split ▸ member
  obtain ⟨within, others⟩ := List.forall_mem_append.mp known
  rw [start]
  exact ⟨arrival.held within, others, ScopeTree.all_start⟩

def anchoring (context : Context) (tokens : List Token) : Discipline context where
  known := Held context tokens
  fits := Anchors tokens context.finish
  holds := Anchored context tokens
  follows _ _ := True
  refl _ := trivial
  trans _ _ := trivial
  fitting := Held.anchors
  lookahead before := before.lookahead
  take before := ⟨advance_anchored before, trivial⟩
  still alike before :=
    ⟨⟨alike.token ▸ before.lookahead, alike.pending ▸ before.pending, alike.scopes ▸ before.bindings⟩,
      trivial⟩
  reserve held before := by
    rw [reserve_run]
    exact ⟨⟨before.lookahead, before.pending,
      before.bindings.reserve _ fun named _ => held.quotes named⟩, trivial⟩

namespace Yields.Anchoring

/-! Names are declared, and scopes opened and closed. -/

theorem atom {terminal : Terminal} (held : Held context tokens terminal) (kind : AtomKind) :
    (anchoring context tokens).Sited (Expr.atom (terminal.atom kind)).walk :=
  (anchoring context tokens).atom held kind

theorem define {terminal : Terminal} (held : Held context tokens terminal)
    (named : terminal.isName = true) (arity : Arity) (valueType? : Option ValueType) :
    Yields (anchoring context tokens) seen (define terminal arity valueType?) fun _ => True := by
  intro state before _
  rw [define_run]
  exact ⟨trivial, ⟨before.lookahead, before.pending,
    before.bindings.define _ (held.quotes named)⟩, trivial⟩

theorem pushScope : Yields (anchoring context tokens) seen pushScope fun _ => True :=
  fun state before _ =>
    ⟨trivial, ⟨before.lookahead, before.pending, before.bindings.push state.scope⟩, trivial⟩

theorem popScope : Yields (anchoring context tokens) seen popScope fun _ => True := by
  intro state before _
  unfold ParseM.popScope
  rw [run_get_bind]
  cases popped : state.scopes.pop state.scope with
  | error => exact ⟨trivial, ⟨before.lookahead, before.pending, before.bindings⟩, trivial⟩
  | ok scopes =>
      exact ⟨trivial, ⟨before.lookahead, before.pending, before.bindings.pop popped⟩, trivial⟩

theorem parameterName (valueType? : Option ValueType) :
    Yields (anchoring context tokens) seen (parameterName valueType?) fun parameter =>
      (anchoring context tokens).Sited [parameter.name.node] := by
  refine look fun token _ => ite (fun named => take fun name held same => ?_) fun _ => ?_
  · exact bind (define held (same token rfl ▸ named) _ _) fun _ _ => value (atom held _)
  · exact bind (error _ _) fun _ _ => bind advanceUnlessCloser fun _ held => value (atom held _)

theorem untypedParameter {first : Terminal} (held : Held context tokens first) :
    Yields (anchoring context tokens) seen (untypedParameter first) fun parameter =>
      (anchoring context tokens).Sited [parameter.name.node] := by
  refine bind (error _ _) fun _ _ => look fun _ _ => ite (fun lone => ?_) fun _ => parameterName _
  have named : first.isName = true := (Bool.and_eq_true_iff.mp lone).1
  exact bind (define held named _ _) fun _ _ => value (atom held _)

theorem parameter : Yields (anchoring context tokens) seen parameter fun parameter =>
    (anchoring context tokens).Sited [parameter.name.node] := by
  refine look fun _ held => ite (fun _ => bind (error _ _) fun _ _ => value (atom held _)) fun _ =>
    bind advance fun first taken => ?_
  cases parameterType? first with
  | some valueType => exact parameterName _
  | none => exact untypedParameter taken

theorem className {keyword : Terminal} (held : Held context tokens keyword) :
    Yields (anchoring context tokens) seen (className keyword) (Held context tokens) := by
  refine look fun token _ => ite (fun named => take fun name taken same => ?_) fun _ => ?_
  · exact bind (define taken (same token rfl ▸ named) _ _) fun _ _ => value taken
  · exact bind (error _ _) fun _ _ => ite (fun _ => value held) fun _ => advance

theorem functionName {name : Terminal} (held : Held context tokens name) (returnType : ValueType) :
    Yields (anchoring context tokens) seen (functionName name returnType) fun _ => True :=
  ite (fun named => define held named _ _) fun _ => error _ _

theorem variableName {name : Terminal} (held : Held context tokens name) (valueType : ValueType) :
    Yields (anchoring context tokens) seen (variableName name valueType) fun leaf =>
      (anchoring context tokens).Sited [leaf.node] :=
  ite (fun named => bind (define held named _ _) fun _ _ => value (atom held _)) fun _ =>
    bind (error _ _) fun _ _ => value (atom held _)

theorem declarator (valueType : ValueType) {name : Terminal} (held : Held context tokens name) :
    Yields (anchoring context tokens) seen (declarator (ParseM.expression room) valueType name) fun made =>
      (anchoring context tokens).Sited made.walk :=
  bind (variableName held valueType) fun _ nameSited => bind arraySize fun array sizeSited =>
    bind (initializer array.1) fun _ sited =>
      value (by
        simp only [allFit_cons, allFit_nil, and_true] at nameSited
        simpa [Declarator.walk] using ⟨nameSited, sizeSited, sited⟩)

section

variable {room : Nat}
  (within : Yields (anchoring context tokens) none (statement room) fun made =>
    (anchoring context tokens).Sited (Stmt.walkAll made.toList))

include within

theorem statementsUntilBrace :
    Yields (anchoring context tokens) seen (statementsUntilBrace (statement room)) fun body =>
      (anchoring context tokens).Sited (Stmt.walkAll body) := by
  refine whileToken (fun body sited => bind within fun next made => value ?_) (by simp [Stmt.walkAll])
  simpa [Stmt.walkAll_append] using ⟨sited, made⟩

theorem blockBody : Yields (anchoring context tokens) seen (blockBody (statement room)) fun body =>
    (anchoring context tokens).Sited (Stmt.walkAll body) :=
  bind pushScope fun _ _ => bind (statementsUntilBrace within) fun _ sited =>
    bind popScope fun _ _ => bind (expect "\x7d") fun _ _ => value sited

theorem functionBody : Yields (anchoring context tokens) seen (functionBody (statement room)) fun body =>
    (anchoring context tokens).Sited (Stmt.walkAll body) :=
  bind atBrace fun _ _ =>
    ite (fun _ => bind skip fun _ _ => bind (statementsUntilBrace within) fun body sited =>
      bind popScope fun _ _ => bind (expect "\x7d") fun _ _ => value sited) fun _ =>
    bind popScope fun _ _ => value (by simp [Stmt.walkAll])

theorem classDefinition {terminal : Terminal} (held : Held context tokens terminal) :
    Yields (anchoring context tokens) seen (classDefinition (statement room) terminal) fun made =>
      (anchoring context tokens).Sited made.walk :=
  bind abstractModifier fun _ _ => bind (className held) fun name named =>
    bind superclass fun _ superSited => bind (block (blockBody within)) fun _ sited =>
      value (by simpa [Stmt.walk] using ⟨Held.anchors named, superSited, sited⟩)

theorem function {name : Terminal} (held : Held context tokens name) (returnType : ValueType) :
    Yields (anchoring context tokens) seen (function (statement room) name returnType) fun made =>
      (anchoring context tokens).Sited made.walk := by
  have parameters : Yields (anchoring context tokens) none (ParseM.commaList ")" ParseM.parameter)
      fun parameters => (anchoring context tokens).Sited (parameters.map (·.name.node)) := by
    refine commaList ")" parameter (fun parameters next all sited => ?_) (by simp)
    rw [List.map_append]
    exact allFit_append.mpr ⟨all, sited⟩
  exact bind (functionName held returnType) fun _ _ => bind (expect "(") fun _ _ =>
    bind pushScope fun _ _ => bind parameters fun _ parametersSited => bind (expect ")") fun _ _ =>
      bind (functionBody within) fun _ sited =>
        value (by simpa [Stmt.walk] using ⟨Held.anchors held, parametersSited, sited⟩)

theorem declaration {keyword : Terminal} (held : Held context tokens keyword)
    (valueType : ValueType) :
    Yields (anchoring context tokens) seen
      (declaration (ParseM.expression room) (statement room) keyword valueType) fun made =>
        (anchoring context tokens).Sited made.walk := by
  have others : Yields (anchoring context tokens) none (nextDeclarator (ParseM.expression room) valueType)
      fun made => (anchoring context tokens).Sited made.walk :=
    bind advanceUnlessCloser fun _ named => declarator valueType named
  have list {first : Declarator} (sited : (anchoring context tokens).Sited first.walk) :
      Yields (anchoring context tokens) none
        (ParseM.afterCommas (nextDeclarator (ParseM.expression room) valueType) first)
        fun declarators => (anchoring context tokens).Sited (declarators.flatMap Declarator.walk) :=
    afterCommas others (fun _ _ all sited => by simpa using ⟨all, sited⟩) (by simpa using sited)
  exact bind advanceUnlessCloser fun name named => look fun _ _ =>
    ite (fun _ => function within named valueType) fun _ =>
    bind (declarator valueType named) fun first sited => bind (list sited) fun _ all =>
    bind expectSemicolon fun _ _ => value (by simpa [Stmt.walk] using ⟨Held.anchors held, all⟩)

theorem statementForm {terminal : Terminal} (held : Held context tokens terminal)
    (form : StatementForm) :
    Yields (anchoring context tokens) seen
      (statementForm (ParseM.expression room) (statement room) terminal form) fun made =>
        (anchoring context tokens).Sited made.walk := by
  by_cases isClass : form = .classDefinition
  · subst isClass
    exact classDefinition within held
  · by_cases declares : ∃ valueType, form = .declaration valueType
    · obtain ⟨valueType, rfl⟩ := declares
      exact declaration within held valueType
    · exact plainForm (blockBody within) (fun _ _ _ => within.weaken) held isClass
        fun valueType same => declares ⟨valueType, same⟩

theorem statementBody :
    Yields (anchoring context tokens) seen (statementBody (ParseM.expression room) (statement room))
      fun made => (anchoring context tokens).Sited (Stmt.walkAll made.toList) := by
  refine look fun token _ => ?_
  cases token.denotations.statement? with
  | some form =>
      refine bind (bind advance fun terminal held => bind (log _) fun _ _ =>
        bind (reserve held) fun _ _ => statementForm within held form) fun made sited => value ?_
      simpa [Stmt.walkAll] using sited
  | none =>
      cases token.denotations.operand? with
      | some form =>
          exact bind expressionStatement fun made sited => value (by simpa [Stmt.walkAll] using sited)
      | none => exact bind skipStatement fun _ _ => value (by simp [Stmt.walkAll])

end

theorem statement (room : Nat) :
    Yields (anchoring context tokens) seen (statement room) fun made =>
      (anchoring context tokens).Sited (Stmt.walkAll made.toList) := by
  induction room generalizing seen with
  | zero => exact bind refuse fun _ _ => value (by simp [Stmt.walkAll])
  | succ room ih =>
      exact bind enter fun _ _ => bind (statementBody ih) fun _ sited => bind leave fun _ _ =>
        value sited

theorem statements (room : Nat) :
    Yields (anchoring context tokens) seen (statements (ParseM.statement room)) fun made =>
      (anchoring context tokens).Sited (Stmt.walkAll made) := by
  have list {seen : Option Terminal} := @statementsUntilBrace context tokens seen room (statement room)
  refine bind list fun first sited => whileToken (fun made sited => ?_) sited
  refine bind (recover _) fun _ _ => bind list fun more others => value ?_
  simpa [Stmt.walkAll_append] using ⟨sited, others⟩

end Yields.Anchoring

end ParseM

open ParseM Position

def Span.Inside (text : List Char) (span : Span) : Prop :=
  ∃ before inside after, text = before ++ (inside ++ after) ∧
    span = ⟨ofText before, ofText (before ++ inside)⟩

theorem Span.Inside.le {text : List Char} {span : Span} (inside : span.Inside text) :
    span.start.le span.stop = true := by
  obtain ⟨before, inside, after, _, rfl⟩ := inside
  rw [← afterAll_start, ← afterAll_start, afterAll_append]
  cases inside with
  | nil => simp [Position.le]
  | cons c others =>
      have order := precedes_afterAll (({} : Position).afterAll before) (List.cons_ne_nil c others)
      unfold Precedes at order
      simp only [Position.le, Bool.or_eq_true, Bool.and_eq_true, decide_eq_true_eq, beq_iff_eq]
      omega

theorem finish_eq (source : String) :
    (Cursor.ofSource source).readAll.2.position = ofText source.toList :=
  (Cursor.readAll_finish _).trans (afterAll_start source.toList)

theorem Token.span_inside {source : String} {token : Token} (member : token ∈ tokens source) :
    token.span.Inside source.toList := by
  obtain ⟨before, after, split⟩ := List.append_of_mem member
  have located := tokens_located split
  refine ⟨characters before, token.text.toList, characters after, ?_, ?_⟩
  · rw [← characters_tokens source, split]
    simp [characters]
  · rw [← located.start, ← located.stop]

theorem mem_places {source : String} {span : Span} (member : span ∈ places source) :
    (∃ token ∈ tokens source, token.span = span) ∨ span = Span.at (ofText source.toList) := by
  rcases List.mem_append.mp member with standing | finish
  · obtain ⟨token, found, rfl⟩ := List.mem_map.mp standing
    exact .inl ⟨token, (List.mem_filter.mp found).1, rfl⟩
  · exact .inr (by rw [← finish_eq]; exact List.mem_singleton.mp finish)

theorem inside_of_mem_places {source : String} {span : Span} (member : span ∈ places source) :
    span.Inside source.toList := by
  rcases mem_places member with ⟨token, found, rfl⟩ | rfl
  · exact Token.span_inside found
  · exact ⟨source.toList, [], [], by simp, by simp [Span.at]⟩

namespace Document

variable (grammar : Grammar) (options : Options) (source : String)

theorem run_anchored :
    AllFit (Anchors (tokens source) (context grammar options source).finish)
        (Stmt.walkAll (run grammar options source).1) ∧
      Anchored (context grammar options source) (tokens source) (run grammar options source).2 := by
  have final := @Yields.Anchoring.statements (context grammar options source) (tokens source) none
    options.maxDepth (start grammar options source) start_anchored (by simp)
  exact ⟨final.1, final.2.1⟩

/-- Whatever a document says, it says of a token that is there. A node has its text and its span from one
token, or stands at the end; a binding has its name and its span from one token; a diagnostic and a name
that was noted stand where a token does, or at the end. So every span covers a piece of the source. -/
theorem parse_anchored :
    (∀ node ∈ Stmt.walkAll (parse grammar options source).statements,
        Anchors (tokens source) (ofText source.toList) node.head.text node.head.span) ∧
      ((parse grammar options source).scopes.All fun definition =>
        Quotes (tokens source) definition.name definition.span) ∧
      (∀ diagnostic ∈ (parse grammar options source).diagnostics,
        (∃ token ∈ tokens source, token.span = diagnostic.span) ∨
          diagnostic.span = Span.at (ofText source.toList)) ∧
      (∀ occurrence ∈ (parse grammar options source).occurrences,
        (∃ token ∈ tokens source, token.span = occurrence.span) ∨
          occurrence.span = Span.at (ofText source.toList)) ∧
      ∀ span ∈ (parse grammar options source).spans,
        span.Inside source.toList ∧ span.start.le span.stop = true := by
  obtain ⟨nodes, final⟩ := run_anchored grammar options source
  have spans := parse_spans grammar options source
  rw [context, finish_eq] at nodes
  refine ⟨?_, ?_, fun diagnostic member => ?_, fun occurrence member => ?_, ?_⟩
  · simpa only [parse, ofRun, statements_analyzed, AllFit] using nodes
  · simpa only [parse, ofRun, scopes_analyzed] using final.bindings
  · refine mem_places (spans diagnostic.span ?_)
    simp only [Document.spans, List.mem_append]
    exact .inr (.inr (.inr (List.mem_map_of_mem member)))
  · refine mem_places (spans occurrence.span ?_)
    simp only [Document.spans, List.mem_append]
    exact .inr (.inr (.inl (List.mem_map_of_mem member)))
  · intro span member
    have inside := inside_of_mem_places (spans span member)
    exact ⟨inside, inside.le⟩

end Document

end Adventure
