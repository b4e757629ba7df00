import Adventure.Document

/-!
Other spans. Everything that reading makes can have each of its spans replaced by another one. What is
looked up in it, bound in it or asked of it stays the same, since nothing is decided by where it stands.
-/

namespace Adventure

/-- Data that spans stand in. -/
class Spanned (α : Type) where
  /-- The same data with the span `place span` wherever it had `span`. -/
  respan (place : Span → Span) : α → α

export Spanned (respan)

namespace Spanned

variable {α β : Type} [Spanned α] [Spanned β]

instance : Spanned Span := ⟨fun place span => place span⟩

instance : Spanned Unit := ⟨fun _ value => value⟩

instance : Spanned Bool := ⟨fun _ value => value⟩

instance : Spanned (List α) := ⟨fun place => List.map (respan place)⟩

instance : Spanned (Option α) := ⟨fun place => Option.map (respan place)⟩

instance : Spanned (α × β) := ⟨fun place => Prod.map (respan place) (respan place)⟩

@[simp] theorem respan_list (place : Span → Span) (values : List α) :
    respan place values = values.map (respan place) := rfl

end Spanned

/-! ## Trees -/

instance : Spanned Head := ⟨fun place head => { head with span := place head.span }⟩

instance : Spanned Atom := ⟨fun place leaf => { leaf with head := respan place leaf.head }⟩

mutual

def Expr.respanned (place : Span → Span) : Expr → Expr
  | .atom leaf => .atom (respan place leaf)
  | .unary head operand => .unary (respan place head) (operand.respanned place)
  | .binary head left right =>
      .binary (respan place head) (left.respanned place) (right.respanned place)
  | .ternary head condition thenValue elseValue =>
      .ternary (respan place head) (condition.respanned place) (thenValue.respanned place)
        (elseValue.respanned place)
  | .call head callee arguments =>
      .call (respan place head) (callee.respanned place) (Expr.respannedAll place arguments)
  | .methodCall head object member arguments =>
      .methodCall (respan place head) (object.respanned place) (member.respanned place)
        (Expr.respannedAll place arguments)

def Expr.respannedAll (place : Span → Span) : List Expr → List Expr
  | [] => []
  | value :: others => value.respanned place :: Expr.respannedAll place others

end

instance : Spanned Expr := ⟨Expr.respanned⟩

instance : Spanned Parameter :=
  ⟨fun place parameter => { parameter with name := respan place parameter.name }⟩

def Initializer.respanned (place : Span → Span) : Initializer → Initializer
  | .expression value => .expression (respan place value)
  | .list items => .list (respan place items)

instance : Spanned Initializer := ⟨Initializer.respanned⟩

instance : Spanned Declarator :=
  ⟨fun place declarator =>
    { declarator with
      name := respan place declarator.name
      size? := respan place declarator.size?
      initializer? := respan place declarator.initializer? }⟩

mutual

def Stmt.respanned (place : Span → Span) : Stmt → Stmt
  | .expression value => .expression (respan place value)
  | .function head returnType parameters body =>
      .function (respan place head) returnType (respan place parameters)
        (Stmt.respannedAll place body)
  | .classDefinition head isAbstract superclass? body =>
      .classDefinition (respan place head) isAbstract (respan place superclass?)
        (Stmt.respannedAll place body)
  | .verb head word action flags =>
      .verb (respan place head) (respan place word) (respan place action)
        (respan place flags)
  | .declaration head valueType declarators =>
      .declaration (respan place head) valueType (respan place declarators)
  | .block head body => .block (respan place head) (Stmt.respannedAll place body)
  | .returning head value? => .returning (respan place head) (respan place value?)
  | .guarded head subject body =>
      .guarded (respan place head) (respan place subject)
        (Stmt.respannedAll place body)
  | .doWhile head body condition =>
      .doWhile (respan place head) (Stmt.respannedAll place body)
        (respan place condition)
  | .ifElse head condition thenBody elseBody? =>
      .ifElse (respan place head) (respan place condition)
        (Stmt.respannedAll place thenBody) (Stmt.respannedElse place elseBody?)
  | .forLoop head first? condition? step? body =>
      .forLoop (respan place head) (respan place first?)
        (respan place condition?) (respan place step?) (Stmt.respannedAll place body)
  | .caseLabel head value => .caseLabel (respan place head) (respan place value)
  | .bare head => .bare (respan place head)

def Stmt.respannedAll (place : Span → Span) : List Stmt → List Stmt
  | [] => []
  | statement :: others => statement.respanned place :: Stmt.respannedAll place others

def Stmt.respannedElse (place : Span → Span) : Option (List Stmt) → Option (List Stmt)
  | none => none
  | some body => some (Stmt.respannedAll place body)

end

instance : Spanned Stmt := ⟨Stmt.respanned⟩

def Node.respanned (place : Span → Span) : Node → Node
  | .expression value => .expression (respan place value)
  | .statement value => .statement (respan place value)

instance : Spanned Node := ⟨Node.respanned⟩

variable (place : Span → Span)

@[simp] theorem Expr.respannedAll_eq_map (values : List Expr) :
    Expr.respannedAll place values = values.map (respan place) := by
  induction values with
  | nil => rfl
  | cons value others ih => rw [respannedAll, ih]; rfl

@[simp] theorem Stmt.respannedAll_eq_map (statements : List Stmt) :
    Stmt.respannedAll place statements = statements.map (respan place) := by
  induction statements with
  | nil => rfl
  | cons statement others ih => rw [respannedAll, ih]; rfl

@[simp] theorem Stmt.respannedElse_eq_map (body? : Option (List Stmt)) :
    Stmt.respannedElse place body? = body?.map (List.map (respan place)) := by
  cases body? with
  | none => rfl
  | some body => simp [respannedElse]

namespace Expr

theorem respan_call (head : Head) (callee : Expr) (arguments : List Expr) :
    respan place (Expr.call head callee arguments) =
      .call (respan place head) (respan place callee) (respan place arguments) :=
  congrArg (Expr.call _ _) (respannedAll_eq_map place arguments)

theorem respan_methodCall (head : Head) (object member : Expr) (arguments : List Expr) :
    respan place (Expr.methodCall head object member arguments) =
      .methodCall (respan place head) (respan place object) (respan place member)
        (respan place arguments) :=
  congrArg (Expr.methodCall _ _ _) (respannedAll_eq_map place arguments)

@[simp] theorem head_respan (value : Expr) :
    (respan place value).head = respan place value.head := by
  cases value <;> rfl

@[simp] theorem parenthesize_respan (value : Expr) :
    (respan place value).parenthesize = respan place value.parenthesize := by
  cases value <;> rfl

@[simp] theorem isInvalid_respan (value : Expr) :
    (respan place value).isInvalid = value.isInvalid := by
  cases value <;> rfl

@[simp] theorem isAssignment_respan (value : Expr) :
    (respan place value).isAssignment = value.isAssignment := by
  cases value <;> rfl

@[simp] theorem isCall_respan (value : Expr) :
    (respan place value).isCall = value.isCall := by
  cases value <;> rfl

@[simp] theorem isLeftValue_respan (value : Expr) :
    (respan place value).isLeftValue = value.isLeftValue := by
  cases value <;> rfl

@[simp] theorem isCallable_respan (value : Expr) :
    (respan place value).isCallable = value.isCallable := by
  cases value <;> rfl

@[simp] theorem calling_respan (head : Head) (callee : Expr) (arguments : List Expr) :
    calling (respan place head) (respan place callee) (respan place arguments) =
      respan place (calling head callee arguments) := by
  cases callee with
  | binary access object member =>
      simp only [calling, apply_ite (respan place), respan_methodCall, respan_call]
      rfl
  | _ => exact (respan_call place head _ arguments).symm

end Expr

namespace Stmt

theorem respan_function (head : Head) (returnType : ValueType) (parameters : List Parameter)
    (body : List Stmt) :
    respan place (Stmt.function head returnType parameters body) =
      .function (respan place head) returnType (respan place parameters) (respan place body) :=
  congrArg (Stmt.function _ _ _) (respannedAll_eq_map place body)

theorem respan_classDefinition (head : Head) (isAbstract : Bool) (superclass? : Option Atom)
    (body : List Stmt) :
    respan place (Stmt.classDefinition head isAbstract superclass? body) =
      .classDefinition (respan place head) isAbstract (respan place superclass?)
        (respan place body) :=
  congrArg (Stmt.classDefinition _ _ _) (respannedAll_eq_map place body)

theorem respan_block (head : Head) (body : List Stmt) :
    respan place (Stmt.block head body) = .block (respan place head) (respan place body) :=
  congrArg (Stmt.block _) (respannedAll_eq_map place body)

theorem respan_guarded (head : Head) (subject : Expr) (body : List Stmt) :
    respan place (Stmt.guarded head subject body) =
      .guarded (respan place head) (respan place subject) (respan place body) :=
  congrArg (Stmt.guarded _ _) (respannedAll_eq_map place body)

theorem respan_doWhile (head : Head) (body : List Stmt) (condition : Expr) :
    respan place (Stmt.doWhile head body condition) =
      .doWhile (respan place head) (respan place body) (respan place condition) :=
  congrArg (Stmt.doWhile _ · _) (respannedAll_eq_map place body)

theorem respan_ifElse (head : Head) (condition : Expr) (thenBody : List Stmt)
    (elseBody? : Option (List Stmt)) :
    respan place (Stmt.ifElse head condition thenBody elseBody?) =
      .ifElse (respan place head) (respan place condition) (respan place thenBody)
        (respan place elseBody?) :=
  (congrArg (Stmt.ifElse _ _ · _) (respannedAll_eq_map place thenBody)).trans
    (congrArg (Stmt.ifElse _ _ _) (respannedElse_eq_map place elseBody?))

theorem respan_forLoop (head : Head) (first? condition? step? : Option Expr) (body : List Stmt) :
    respan place (Stmt.forLoop head first? condition? step? body) =
      .forLoop (respan place head) (respan place first?) (respan place condition?)
        (respan place step?) (respan place body) :=
  congrArg (Stmt.forLoop _ _ _ _) (respannedAll_eq_map place body)

end Stmt

/-! ## Tokens, terminals and scopes -/

instance : Spanned Token := ⟨fun place token => { token with span := place token.span }⟩

instance : Spanned Terminal := ⟨fun place terminal => { terminal with span := place terminal.span }⟩

instance : Spanned Definition :=
  ⟨fun place definition => { definition with span := place definition.span }⟩

instance : Spanned Scope :=
  ⟨fun place scope => { scope with definitions := respan place scope.definitions }⟩

instance : Spanned ScopeTree :=
  ⟨fun place tree => { tree with scopes := tree.scopes.map (respan place) }⟩

def Lookup.respanned (place : Span → Span) : Lookup → Lookup
  | .defined definition => .defined (respan place definition)
  | .grammar symbol => .grammar symbol
  | .undefined symbol => .undefined symbol

instance : Spanned Lookup := ⟨Lookup.respanned⟩

instance : Spanned Diagnostic :=
  ⟨fun place diagnostic => { diagnostic with span := place diagnostic.span }⟩

instance : Spanned Occurrence :=
  ⟨fun place occurrence => { occurrence with span := place occurrence.span }⟩

@[simp] theorem Terminal.denotations_respan (terminal : Terminal) :
    (respan place terminal).denotations = terminal.denotations := rfl

@[simp] theorem Lookup.isUndefined_respan (found : Lookup) :
    (respan place found).isUndefined = found.isUndefined := by
  cases found <;> rfl

@[simp] theorem Lookup.terminal_respan (found : Lookup) (token : Token) :
    (respan place found).terminal (respan place token) = respan place (found.terminal token) := by
  cases found <;> rfl

namespace Scope

@[simp] theorem get?_respan (scope : Scope) (name : String) :
    (respan place scope).get? name = (scope.get? name).map (respan place) :=
  List.find?_map ..

theorem withDefinition_respan (definition : Definition) (known : List Definition) :
    withDefinition (respan place definition) (respan place known) =
      respan place (withDefinition definition known) := by
  induction known with
  | nil => rfl
  | cons first others ih =>
      simp only [withDefinition, Spanned.respan_list, List.map_cons,
        apply_ite (List.map (respan place))] at ih ⊢
      rw [ih]
      rfl

@[simp] theorem insert_respan (scope : Scope) (definition : Definition) :
    (respan place scope).insert (respan place definition) = respan place (scope.insert definition) :=
  congrArg (fun definitions => { scope with definitions })
    (withDefinition_respan place definition scope.definitions)

end Scope

namespace ScopeTree

variable (tree : ScopeTree)

theorem respan_root : respan place ({} : ScopeTree) = {} := by
  simp [respan]

@[simp] theorem size_respan : (respan place tree).size = tree.size := Array.size_map

@[simp] theorem get?_respan (scope : Nat) :
    (respan place tree).get? scope = (tree.get? scope).map (respan place) :=
  Array.getElem?_map

@[simp] theorem push_respan (parent : Nat) :
    (respan place tree).push parent = respan place (tree.push parent) := by
  simp [respan, push]

@[simp] theorem parentOf_respan (scope : Nat) :
    (respan place tree).parentOf scope = tree.parentOf scope := by
  unfold parentOf
  rw [get?_respan]
  cases tree.get? scope <;> rfl

theorem modify_respan (scope : Nat) {change changed : Scope → Scope}
    (same : ∀ target, changed (respan place target) = respan place (change target)) :
    (respan place tree).modify scope changed = respan place (tree.modify scope change) := by
  have scopes : (tree.scopes.map (respan place)).modify scope changed =
      (tree.scopes.modify scope change).map (respan place) := by
    refine Array.ext_getElem? fun other => ?_
    rw [Array.getElem?_modify, Array.getElem?_map, Array.getElem?_map, Array.getElem?_modify]
    cases tree.scopes[other]? with
    | none => simp
    | some target => split <;> simp [same]
  exact congrArg (fun scopes => { tree with scopes }) scopes

theorem define_respan (scope : Nat) (definition : Definition) :
    (respan place tree).define scope (respan place definition) =
      respan place (tree.define scope definition) := by
  unfold define
  rw [get?_respan]
  cases tree.get? scope with
  | none => rfl
  | some target =>
      have known : (respan place definition).name = definition.name := rfl
      simp only [Option.map_some, Scope.get?_respan, known]
      rw [modify_respan place tree scope fun target => Scope.insert_respan place target definition]
      cases target.get? definition.name with
      | none => rfl
      | some previous =>
          have reserved : (respan place previous).reserved = previous.reserved := rfl
          simp only [Option.map_some, reserved]
          split <;> rfl

theorem reserve_respan (scope : Nat) (terminal : Terminal) :
    (respan place tree).reserve scope (respan place terminal) =
      respan place (tree.reserve scope terminal) := by
  have isName : (respan place terminal).isName = terminal.isName := rfl
  have reserved : (respan place terminal).reserved = terminal.reserved := rfl
  have text : (respan place terminal).text = terminal.text := rfl
  have inserted : (respan place tree).modify scope
      (·.insert (reservation scope (respan place terminal))) =
        respan place (tree.modify scope (·.insert (reservation scope terminal))) :=
    modify_respan place tree scope fun target =>
      Scope.insert_respan place target (reservation scope terminal)
  unfold reserve
  rw [isName, reserved, get?_respan, inserted]
  split
  · rfl
  · cases tree.get? scope with
    | none => rfl
    | some target =>
        simp only [Option.map_some, Scope.get?_respan, text]
        cases target.get? terminal.text with
        | none => rfl
        | some previous =>
            have taken : (respan place previous).reserved = previous.reserved := rfl
            have arity : (respan place previous).arity = previous.arity := rfl
            simp only [Option.map_some, taken, arity]
            split
            · rfl
            · split <;> rfl

theorem findWithin_respan (name : String) (count scope : Nat) :
    (respan place tree).findWithin name count scope =
      respan place (tree.findWithin name count scope) := by
  induction count generalizing scope with
  | zero => rfl
  | succ count ih =>
      unfold findWithin
      rw [get?_respan]
      cases tree.get? scope with
      | none => rfl
      | some here =>
          have parent : (respan place here).parent? = here.parent? := rfl
          simp only [Option.map_some, Option.bind_eq_bind, Option.bind_some, Scope.get?_respan, parent]
          cases here.get? name with
          | some definition => rfl
          | none =>
              cases here.parent? with
              | none => rfl
              | some outer => exact ih outer

theorem find_respan (scope : Nat) (name : String) (grammar : Grammar) :
    (respan place tree).find scope name grammar = respan place (tree.find scope name grammar) := by
  unfold find
  rw [findWithin_respan, size_respan]
  cases tree.findWithin name tree.size scope with
  | some definition => rfl
  | none => cases grammar.get? name <;> rfl

end ScopeTree

/-! ## Documents -/

instance : Spanned Document :=
  ⟨fun place document =>
    { document with
      statements := respan place document.statements
      scopes := respan place document.scopes
      occurrences := respan place document.occurrences
      diagnostics := respan place document.diagnostics }⟩

mutual

theorem Expr.walk_respanned : (value : Expr) →
    (value.respanned place).walk = value.walk.map (respan place)
  | .atom leaf => rfl
  | .unary head operand => by
      simp only [respanned, walk, List.map_cons, walk_respanned operand]
      rfl
  | .binary head left right => by
      simp only [respanned, walk, List.map_cons, List.map_append, walk_respanned left,
        walk_respanned right]
      rfl
  | .ternary head condition thenValue elseValue => by
      simp only [respanned, walk, List.map_cons, List.map_append, walk_respanned condition,
        walk_respanned thenValue, walk_respanned elseValue]
      rfl
  | .call head callee arguments => by
      simp only [respanned, walk, List.map_cons, List.map_append, walk_respanned callee,
        walkAll_respanned arguments]
      rfl
  | .methodCall head object member arguments => by
      simp only [respanned, walk, List.map_cons, List.map_append, walk_respanned object,
        walk_respanned member, walkAll_respanned arguments]
      rfl

theorem Expr.walkAll_respanned : (values : List Expr) →
    Expr.walkAll (Expr.respannedAll place values) = (Expr.walkAll values).map (respan place)
  | [] => rfl
  | value :: others => by
      rw [respannedAll, walkAll, walkAll, List.map_append, walk_respanned value,
        walkAll_respanned others]

end

theorem Expr.walk_respan (value : Expr) : (respan place value).walk = respan place value.walk :=
  walk_respanned place value

section

variable {α β : Type} [Spanned α] [Spanned β]

@[simp] theorem Spanned.respan_append (first second : List α) :
    respan place (first ++ second) = respan place first ++ respan place second :=
  List.map_append

theorem Spanned.toList_respan (value? : Option α) :
    (respan place value?).toList = respan place value?.toList := by
  cases value? <;> rfl

theorem Spanned.map_respan (part : α → β)
    (same : ∀ value, part (respan place value) = respan place (part value)) (values : List α) :
    (respan place values).map part = respan place (values.map part) := by
  simp [same]

theorem Spanned.flatMap_respan {parts : α → List β}
    (same : ∀ value, parts (respan place value) = respan place (parts value)) (values : List α) :
    (respan place values).flatMap parts = respan place (values.flatMap parts) := by
  simp [same, List.flatMap_map, List.map_flatMap]

end

theorem Expr.walkOptional_respan (value? : Option Expr) :
    (respan place value?).toList.flatMap Expr.walk =
      respan place (value?.toList.flatMap Expr.walk) := by
  rw [Spanned.toList_respan, Spanned.flatMap_respan place (walk_respan place)]

theorem Declarator.walk_respan (declarator : Declarator) :
    (respan place declarator).walk = respan place declarator.walk := by
  have values : (respan place declarator.initializer?).elim [] Initializer.values =
      respan place (declarator.initializer?.elim [] Initializer.values) := by
    cases declarator.initializer? with
    | none => rfl
    | some value => cases value <;> rfl
  have parts : (respan place declarator.size?).toList.flatMap Expr.walk ++
      ((respan place declarator.initializer?).elim [] Initializer.values).flatMap Expr.walk =
        respan place (declarator.size?.toList.flatMap Expr.walk ++
          (declarator.initializer?.elim [] Initializer.values).flatMap Expr.walk) := by
    rw [Expr.walkOptional_respan, values, Spanned.flatMap_respan place (Expr.walk_respan place),
      Spanned.respan_append]
  exact congrArg (respan place declarator.name.node :: ·) parts

mutual

theorem Stmt.walk_respanned : (statement : Stmt) →
    (statement.respanned place).walk = respan place statement.walk
  | .expression value => Expr.walk_respan place value
  | .function head returnType parameters body => by
      rw [respanned, walk, walk, walkAll_respanned body,
        Spanned.map_respan place (·.name.node) (fun _ => rfl) parameters, ← Spanned.respan_append]
      rfl
  | .classDefinition head isAbstract superclass? body => by
      rw [respanned, walk, walk, walkAll_respanned body, Spanned.toList_respan,
        Spanned.map_respan place Atom.node (fun _ => rfl) superclass?.toList, ← Spanned.respan_append]
      rfl
  | .verb head word action flags => rfl
  | .declaration head valueType declarators => by
      rw [respanned, walk, walk, Spanned.flatMap_respan place (Declarator.walk_respan place)]
      rfl
  | .block head body => by
      rw [respanned, walk, walk, walkAll_respanned body]
      rfl
  | .returning head value? => by
      rw [respanned, walk, walk, Expr.walkOptional_respan]
      rfl
  | .guarded head subject body => by
      rw [respanned, walk, walk, walkAll_respanned body, Expr.walk_respan, ← Spanned.respan_append]
      rfl
  | .doWhile head body condition => by
      rw [respanned, walk, walk, walkAll_respanned body, Expr.walk_respan, ← Spanned.respan_append]
      rfl
  | .ifElse head condition thenBody elseBody? => by
      rw [respanned, walk, walk, walkAll_respanned thenBody, walkElse_respanned elseBody?,
        Expr.walk_respan, ← Spanned.respan_append, ← Spanned.respan_append]
      rfl
  | .forLoop head first? condition? step? body => by
      rw [respanned, walk, walk, walkAll_respanned body, Expr.walkOptional_respan,
        Expr.walkOptional_respan, Expr.walkOptional_respan, ← Spanned.respan_append,
        ← Spanned.respan_append, ← Spanned.respan_append]
      rfl
  | .caseLabel head value => by
      rw [respanned, walk, walk, Expr.walk_respan]
      rfl
  | .bare head => rfl

theorem Stmt.walkAll_respanned : (statements : List Stmt) →
    Stmt.walkAll (Stmt.respannedAll place statements) = respan place (Stmt.walkAll statements)
  | [] => rfl
  | statement :: others => by
      rw [respannedAll, walkAll, walkAll, Spanned.respan_append, walk_respanned statement,
        walkAll_respanned others]

theorem Stmt.walkElse_respanned : (body? : Option (List Stmt)) →
    Stmt.walkAll? (Stmt.respannedElse place body?) = respan place (Stmt.walkAll? body?)
  | none => rfl
  | some body => walkAll_respanned body

end

theorem Stmt.walkAll_respan (statements : List Stmt) :
    Stmt.walkAll (respan place statements) = respan place (Stmt.walkAll statements) :=
  (congrArg Stmt.walkAll (respannedAll_eq_map place statements)).symm.trans
    (walkAll_respanned place statements)

def Scope.spans (scope : Scope) : List Span := scope.definitions.map Definition.span

/-- All spans that stand in a document: of its nodes, of what is bound in its scopes, of the names noted
and of the diagnostics. -/
def Document.spans (document : Document) : List Span :=
  (Stmt.walkAll document.statements).map (·.head.span) ++
    (document.scopes.scopes.toList.flatMap Scope.spans ++
      (document.occurrences.map (·.span) ++ document.diagnostics.map (·.span)))

theorem Node.span_respan (node : Node) : (respan place node).head.span = place node.head.span := by
  cases node with
  | expression value => cases value <;> rfl
  | statement value =>
      cases value with
      | expression value => cases value <;> rfl
      | _ => rfl

theorem Scope.spans_respan (scope : Scope) :
    (respan place scope).spans = respan place scope.spans :=
  Spanned.map_respan place Definition.span (fun _ => rfl) scope.definitions

theorem Document.spans_respan (document : Document) :
    (respan place document).spans = document.spans.map place := by
  have nodes : (Stmt.walkAll (respan place document).statements).map (·.head.span) =
      ((Stmt.walkAll document.statements).map (·.head.span)).map place :=
    (congrArg (List.map (·.head.span)) (Stmt.walkAll_respan place document.statements)).trans
      (Spanned.map_respan place (fun node : Node => node.head.span) (Node.span_respan place) _)
  have scopes : (respan place document).scopes.scopes.toList.flatMap Scope.spans =
      (document.scopes.scopes.toList.flatMap Scope.spans).map place :=
    (congrArg (List.flatMap Scope.spans) Array.toList_map).trans
      (Spanned.flatMap_respan place (Scope.spans_respan place) document.scopes.scopes.toList)
  have occurrences : (respan place document).occurrences.map (·.span) =
      (document.occurrences.map (·.span)).map place :=
    Spanned.map_respan place (·.span) (fun _ => rfl) document.occurrences
  have diagnostics : (respan place document).diagnostics.map (·.span) =
      (document.diagnostics.map (·.span)).map place :=
    Spanned.map_respan place (·.span) (fun _ => rfl) document.diagnostics
  simp only [spans, nodes, scopes, occurrences, diagnostics, List.map_append]

end Adventure
