import Adventure.Proofs.StatementSurveys

/-!
Levels. The limit on nesting bounds how deep a tree is. A left operand stands on the level of its operator,
because it was read before the operator was and not inside it; every other part of a node stands one level
below the node. Chains of operators may be as long as they like.
-/

namespace Adventure

/-- The operands of an expression, each with the levels that it stands below it. -/
def Expr.edges : Expr → List (Nat × Expr)
  | .atom _ => []
  | .unary head operand => [(if stepIds.contains head.id then 0 else 1, operand)]
  | .binary _ left right => [(0, left), (1, right)]
  | .ternary _ condition thenValue elseValue => [(0, condition), (1, thenValue), (1, elseValue)]
  | .call _ callee arguments => (0, callee) :: arguments.map (1, ·)
  | .methodCall _ object member arguments => (0, object) :: (1, member) :: arguments.map (1, ·)

theorem Expr.edges_children (value : Expr) : value.edges.map Prod.snd = value.children := by
  cases value <;> simp [edges, children, Function.comp_def]

theorem Expr.edges_parenthesize (value : Expr) : value.parenthesize.edges = value.edges := by
  cases value <;> rfl

theorem Expr.edges_of_leftOperand? {value left : Expr} {others : List Expr}
    (folded : value.leftOperand? = some left) (children : value.children = left :: others) :
    value.edges = (0, left) :: others.map (1, ·) := by
  cases value with
  | atom => simp [leftOperand?] at folded
  | unary head operand =>
      simp only [leftOperand?, Option.ite_none_right_eq_some] at folded
      simp only [Expr.children, List.cons.injEq] at children
      obtain ⟨rfl, rfl⟩ := children
      rw [edges, if_pos folded.1]
      rfl
  | binary | ternary | call | methodCall =>
      simp only [Expr.children, List.cons.injEq] at children
      obtain ⟨rfl, rfl⟩ := children
      rfl

namespace Node

def edges : Node → List (Nat × Node)
  | .expression value => value.edges.map fun edge => (edge.1, .expression edge.2)
  | .statement value => value.children.map (1, ·)

theorem edges_children (node : Node) : node.edges.map Prod.snd = node.children := by
  cases node with
  | expression value => simp [edges, children, ← value.edges_children, Function.comp_def]
  | statement value => simp [edges, children, Function.comp_def]

theorem cost_le {node : Node} : ∀ edge ∈ node.edges, edge.1 ≤ 1 := by
  cases node with
  | expression value =>
      cases value with
      | unary head operand =>
          simp only [edges, Expr.edges]
          split <;> simp
      | _ => simp [edges, Expr.edges]
  | statement value => simp [edges]

/-- A path leads from the node down to the other one, over so many levels. -/
inductive Descends : Node → Nat → Node → Prop
  | here (node : Node) : Descends node 0 node
  | down {node child below : Node} {cost levels : Nat} (edge : (cost, child) ∈ node.edges)
      (path : Descends child levels below) : Descends node (cost + levels) below

/-- No path from the node leads down over more levels. -/
def Nests (node : Node) (limit : Nat) : Prop :=
  ∀ levels below, node.Descends levels below → levels ≤ limit

theorem Nests.mono {node : Node} {limit more : Nat} (nests : node.Nests limit) (le : limit ≤ more) :
    node.Nests more :=
  fun levels below path => (nests levels below path).trans le

theorem Nests.child {node child : Node} {cost limit whole : Nat} (nests : node.Nests whole)
    (edge : (cost, child) ∈ node.edges) (split : cost + limit = whole) : child.Nests limit := by
  subst split
  exact fun levels below path => Nat.le_of_add_le_add_left (nests _ below (.down edge path))

theorem nests_of_edges {node : Node} {limit : Nat}
    (each : ∀ edge ∈ node.edges, ∀ levels below, edge.2.Descends levels below → edge.1 + levels ≤ limit) :
    node.Nests limit := by
  intro levels below path
  cases path with
  | here => exact Nat.zero_le limit
  | down edge path => exact each _ edge _ below path

theorem nests_of_children {node : Node} {limit : Nat} (each : ∀ child ∈ node.children, child.Nests limit) :
    node.Nests (limit + 1) := by
  refine nests_of_edges fun edge member levels below path => ?_
  have inside : edge.2 ∈ node.children := node.edges_children ▸ List.mem_map_of_mem member
  have levels_le := each _ inside levels below path
  have cost_le := node.cost_le edge member
  omega

theorem nests_atom (leaf : Atom) (limit : Nat) : leaf.node.Nests limit :=
  nests_of_edges (by simp [Atom.node, edges, Expr.edges])

theorem Nests.parenthesize {value : Expr} {limit : Nat} (nests : (Node.expression value).Nests limit) :
    (Node.expression value.parenthesize).Nests limit := by
  refine nests_of_edges fun edge member levels below path => nests _ below (.down ?_ path)
  rwa [edges, Expr.edges_parenthesize] at member

theorem nests_folded {value left : Expr} {others : List Expr} {limit : Nat}
    (folded : value.edges = (0, left) :: others.map (1, ·))
    (leftNests : (Node.expression left).Nests (limit + 1))
    (othersNest : ∀ other ∈ others, (Node.expression other).Nests limit) :
    (Node.expression value).Nests (limit + 1) := by
  refine nests_of_edges fun edge member levels below path => ?_
  simp only [edges, folded, List.map_cons, List.map_map, List.mem_cons, List.mem_map] at member
  rcases member with rfl | ⟨other, member, rfl⟩
  · simpa using leftNests levels below path
  · have inside := othersNest other member levels below path
    simp only [Function.comp_apply]
    omega

theorem nests_method {access head : Head} {object member : Expr} {arguments : List Expr} {limit : Nat}
    (nests : (Node.expression (.binary access object member)).Nests (limit + 1))
    (argumentsNest : ∀ argument ∈ arguments, (Node.expression argument).Nests limit) :
    (Node.expression (.methodCall head object member arguments)).Nests (limit + 1) := by
  have objectEdge : (0, .expression object) ∈ (Node.expression (.binary access object member)).edges := by
    simp [edges, Expr.edges]
  have memberEdge : (1, .expression member) ∈ (Node.expression (.binary access object member)).edges := by
    simp [edges, Expr.edges]
  have objectNests := nests.child objectEdge (Nat.zero_add _)
  have memberNests := nests.child memberEdge (Nat.add_comm _ _)
  exact nests_folded rfl objectNests (List.forall_mem_cons.mpr ⟨memberNests, argumentsNest⟩)

end Node

theorem Stmt.children_node (statement : Stmt) : statement.node.children = statement.children := by
  cases statement <;> rfl

theorem Stmt.exists_of_mem_children (statement : Stmt) :
    ∀ child ∈ statement.children, ∃ inner : Stmt, inner.node = child := by
  have expression (value : Expr) : ∃ inner : Stmt, inner.node = .expression value := ⟨.expression value, rfl⟩
  have atom (leaf : Atom) : ∃ inner : Stmt, inner.node = leaf.node := expression (.atom leaf)
  have node (inner : Stmt) : ∃ other : Stmt, other.node = inner.node := ⟨inner, rfl⟩
  cases statement with
  | declaration head valueType declarators =>
      intro child member
      obtain ⟨declarator, _, inside⟩ := List.mem_flatMap.mp member
      have each : ∀ child ∈ declarator.nodes, ∃ inner : Stmt, inner.node = child := by
        simp only [Declarator.nodes, List.forall_mem_cons, List.forall_mem_append, List.forall_mem_map]
        exact ⟨atom _, fun value _ => expression value, fun value _ => expression value⟩
      exact each child inside
  | _ =>
      simp only [children, List.forall_mem_append, List.forall_mem_cons, List.forall_mem_map]
      simp [expression, atom, node]

/-- Paths lead from a statement to what a walk over it visits. -/
theorem Stmt.mem_walk_iff (statement : Stmt) (below : Node) :
    below ∈ statement.walk ↔ ∃ levels, statement.node.Descends levels below := by
  constructor
  · intro member
    generalize size : statement.walk.length = length
    induction length using Nat.strongRecOn generalizing statement with
    | ind length ih =>
        rw [Stmt.walk_eq] at member
        rcases List.mem_cons.mp member with rfl | inside
        · exact ⟨0, .here _⟩
        · obtain ⟨child, isChild, inside⟩ := List.mem_flatMap.mp inside
          obtain ⟨inner, rfl⟩ := statement.exists_of_mem_children _ isChild
          rw [Stmt.walk_node] at inside
          have part : inner.walk.Sublist (statement.children.flatMap Node.walk) := by
            rw [List.flatMap_def]
            exact List.sublist_flatten_of_mem (List.mem_map.mpr ⟨_, isChild, inner.walk_node⟩)
          have shorter : inner.walk.length < length := by
            rw [← size, Stmt.walk_eq statement]
            exact Nat.lt_succ_of_le part.length_le
          obtain ⟨levels, path⟩ := ih _ shorter inner inside rfl
          rw [← Stmt.children_node, ← Node.edges_children] at isChild
          obtain ⟨⟨cost, _⟩, edge, rfl⟩ := List.mem_map.mp isChild
          exact ⟨cost + levels, .down edge path⟩
  · rintro ⟨levels, path⟩
    generalize same : statement.node = node at path
    induction path generalizing statement with
    | here => exact same ▸ statement.walk_eq ▸ List.mem_cons_self ..
    | down edge _ ih =>
        subst same
        have isChild := statement.children_node ▸ statement.node.edges_children ▸ List.mem_map_of_mem edge
        obtain ⟨inner, rfl⟩ := statement.exists_of_mem_children _ isChild
        rw [Stmt.walk_eq]
        exact List.mem_cons_of_mem _ (List.mem_flatMap.mpr ⟨_, isChild, inner.walk_node ▸ ih inner rfl⟩)

namespace ParseM

variable {context : Context} {tokens : List Token}

/-- With so much room, nothing is made that nests deeper. -/
def levels (grammar : context.grammar = Grammar.standard) (lexical : ∀ token ∈ tokens, token.Lexical) :
    Survey context tokens where
  grammar
  lexical
  finds room _ _ nodes := ∀ node ∈ nodes, node.Nests room
  still _ _ _ := by simp
  append found more := List.forall_mem_append.mpr ⟨found, more⟩
  deeper found node member := (found node member).mono (Nat.le_succ _)
  take _ := by simp
  leaf _ _ := List.forall_mem_singleton.mpr (Node.nests_atom _ _)
  placeholder _ := List.forall_mem_singleton.mpr (Node.nests_atom _ _)
  grouped found := List.forall_mem_singleton.mpr (found _ (List.mem_singleton_self _)).parenthesize
  headed _ _ found _ _ := List.forall_mem_singleton.mpr (Node.nests_of_children found)
  folded found _ others operand children _ := List.forall_mem_singleton.mpr <|
    Node.nests_folded (Expr.edges_of_leftOperand? operand children) (found _ (List.mem_singleton_self _))
      (List.forall_mem_map.mp others)
  method found _ others _ := List.forall_mem_singleton.mpr <|
    Node.nests_method (found _ (List.mem_singleton_self _)) (List.forall_mem_map.mp others)

theorem levels_scopeless (grammar : context.grammar = Grammar.standard)
    (lexical : ∀ token ∈ tokens, token.Lexical) : (levels grammar lexical).Scopeless :=
  ⟨by simp [levels], by simp [levels]⟩

theorem statements_nil (state : ParseState) : ((statements (statement 0)).run context state).1 = [] := by
  have rounds {again : Terminal → Bool} {body : List Stmt → ParseM (List Stmt)}
      (round : ∀ state, ((body []).run context state).1 = []) (state : ParseState) :
      ((whileToken again body []).run context state).1 = [] := by
    refine @whileToken_invariant _ _ again body (fun made _ => made = []) ?_ [] state rfl
    rintro _ state rfl
    exact round state
  have braces : ∀ state, ((statementsUntilBrace (statement 0)).run context state).1 = [] :=
    rounds fun _ => rfl
  rw [statements, run_bind, braces]
  exact rounds (fun state => by simp [afterStrayBrace, braces]) _

end ParseM

namespace Document

/-- No path from a statement of a document leads down over more levels than may be nested, and where none
may be there are no statements. -/
theorem parse_levels (options : Options) (source : String) :
    (∀ statement ∈ (parse Grammar.standard options source).statements, ∀ levels below,
      statement.node.Descends levels below → levels ≤ options.maxDepth) ∧
    (options.maxDepth = 0 → (parse Grammar.standard options source).statements = []) := by
  have lexical := tokens_lexical source
  have grammar : (context Grammar.standard options source).grammar = Grammar.standard := rfl
  simp only [parse, statements_analyzed, ofRun]
  constructor
  · have found : ∀ node ∈ (run Grammar.standard options source).1.map Stmt.node,
        node.Nests options.maxDepth :=
      (ParseM.Survey.statements (ParseM.levels_scopeless grammar lexical) options.maxDepth
        (start Grammar.standard options source) (ParseM.start_understood rfl lexical)).2
    exact List.forall_mem_map.mp found
  · intro none
    simp only [run, none]
    exact ParseM.statements_nil _

end Document

end Adventure
