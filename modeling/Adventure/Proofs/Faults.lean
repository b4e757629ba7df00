import Adventure.Proofs.Printing
import Adventure.Tree.Node

/-!
Faults of shape. A tree shows by itself where something is changed that can hold no value, where something
is called that is no function, where a variable lacks its name, and where a statement is idle.
-/

namespace Adventure

def Problem.isShape : Problem → Bool
  | .badLeftValue | .expectedVariableName | .badExpressionStatement => true
  | _ => false

namespace Expr

/-- What neither changes anything nor calls anything. -/
def isIdle : Expr → Bool
  | .atom leaf => leaf.kind != .invalid
  | .unary head _ => !stepIds.contains head.id
  | .binary head _ _ => !assignmentIds.contains head.id
  | .ternary .. => true
  | .call .. | .methodCall .. => false

theorem not_isIdle (value : Expr) :
    (!value.isIdle) = (value.isAssignment || value.isCall || value.isInvalid) := by
  cases value <;> simp [isIdle, isAssignment, isCall, isInvalid, bne]

theorem not_mem_assignmentIds_of_access : ∀ id ∈ accessIds, assignmentIds.contains id = false := by
  decide

end Expr

namespace Node

/-- What an assignment or a step changes. -/
def target? : Node → Option Expr
  | .expression (.binary head left _) =>
      if Expr.assignmentIds.contains head.id then some left else none
  | .expression (.unary head operand) => if Expr.stepIds.contains head.id then some operand else none
  | _ => none

def callee? : Node → Option Expr
  | .expression (.call _ callee _) => some callee
  | _ => none

def badTarget? (node : Node) : Option Expr := node.target?.filter (!·.isLeftValue)

def badCallee? (node : Node) : Option Expr := node.callee?.filter (!·.isCallable)

def faults (node : Node) : Diagnostics :=
  node.badTarget?.toList.map (fun target => ⟨.badLeftValue, target.head.span, .error⟩) ++
    node.badCallee?.toList.map fun callee => ⟨.expectedVariableName, callee.head.span, .error⟩

theorem faults_unary (head : Head) (operand : Expr) :
    (Node.expression (.unary head operand)).faults =
      if Expr.stepIds.contains head.id && !operand.isLeftValue then
        [⟨.badLeftValue, operand.head.span, .error⟩]
      else [] := by
  simp only [faults, badTarget?, badCallee?, target?, callee?]
  cases Expr.stepIds.contains head.id <;> cases holds : operand.isLeftValue <;>
    simp [Option.filter_some, holds]

theorem faults_binary (head : Head) (left right : Expr) :
    (Node.expression (.binary head left right)).faults =
      if Expr.assignmentIds.contains head.id && !left.isLeftValue then
        [⟨.badLeftValue, left.head.span, .error⟩]
      else [] := by
  simp only [faults, badTarget?, badCallee?, target?, callee?]
  cases Expr.assignmentIds.contains head.id <;> cases holds : left.isLeftValue <;>
    simp [Option.filter_some, holds]

theorem faults_call (head : Head) (callee : Expr) (arguments : List Expr) :
    (Node.expression (.call head callee arguments)).faults =
      if callee.isCallable then [] else [⟨.expectedVariableName, callee.head.span, .error⟩] := by
  simp only [faults, badTarget?, badCallee?, target?, callee?]
  cases called : callee.isCallable <;> simp [Option.filter_some, called]

def isDirect (node : Node) : Bool :=
  node.callee?.all fun callee => !callee.isAccess || callee.head.parenthesized

end Node

mutual

def Stmt.standing : Stmt → List Stmt
  | .function head returnType parameters body =>
      .function head returnType parameters body :: Stmt.standingAll body
  | .classDefinition head isAbstract superclass? body =>
      .classDefinition head isAbstract superclass? body :: Stmt.standingAll body
  | .block head body => .block head body :: Stmt.standingAll body
  | .guarded head subject body => .guarded head subject body :: Stmt.standingAll body
  | .doWhile head body condition => .doWhile head body condition :: Stmt.standingAll body
  | .ifElse head condition thenBody elseBody? =>
      .ifElse head condition thenBody elseBody? ::
        (Stmt.standingAll thenBody ++ Stmt.standingAll? elseBody?)
  | .forLoop head first? condition? step? body =>
      .forLoop head first? condition? step? body :: Stmt.standingAll body
  | .expression value => [.expression value]
  | .verb head word action flags => [.verb head word action flags]
  | .declaration head valueType declarators => [.declaration head valueType declarators]
  | .returning head value? => [.returning head value?]
  | .caseLabel head value => [.caseLabel head value]
  | .bare head => [.bare head]

def Stmt.standingAll : List Stmt → List Stmt
  | [] => []
  | statement :: others => statement.standing ++ Stmt.standingAll others

def Stmt.standingAll? : Option (List Stmt) → List Stmt
  | none => []
  | some body => Stmt.standingAll body

end

theorem Stmt.standingAll_append (first second : List Stmt) :
    Stmt.standingAll (first ++ second) = Stmt.standingAll first ++ Stmt.standingAll second := by
  induction first with
  | nil => rfl
  | cons statement others ih => simp [standingAll, ih]

def Atom.faults (leaf : Atom) : Diagnostics :=
  if leaf.kind = .invalid then [⟨.expectedVariableName, leaf.head.span, .error⟩] else []

namespace Stmt

def idle? : Stmt → Option Expr
  | .expression value => if value.isIdle then some value else none
  | _ => none

def names : Stmt → List Atom
  | .declaration _ _ declarators => declarators.map (·.name)
  | _ => []

def faults (statement : Stmt) : Diagnostics :=
  statement.idle?.toList.map (fun value => ⟨.badExpressionStatement, value.head.span, .warning⟩) ++
    statement.names.flatMap Atom.faults

end Stmt

/-- How often a fault is found in the nodes and in what is known of others. -/
structure Tally (fault : Diagnostic) (nodes : List Node) (others : Diagnostics) (count : Nat) : Prop where
  count : (nodes.flatMap Node.faults).count fault + others.count fault = count
  direct : ∀ node ∈ nodes, node.isDirect = true

namespace Tally

variable {fault : Diagnostic} {nodes more : List Node} {others own : Diagnostics} {count added : Nat}

theorem nil : Tally fault [] [] 0 := ⟨rfl, by simp⟩

theorem of_eq (tally : Tally fault nodes others count) (same : count = added) :
    Tally fault nodes others added :=
  same ▸ tally

theorem append (first : Tally fault nodes others count) (second : Tally fault more own added) :
    Tally fault (nodes ++ more) (others ++ own) (count + added) := by
  refine ⟨?_, List.forall_mem_append.mpr ⟨first.direct, second.direct⟩⟩
  have counts := first.count
  have countsMore := second.count
  simp only [List.flatMap_append, List.count_append]
  omega

theorem cons {node : Node} (direct : node.isDirect = true) (tally : Tally fault nodes others count) :
    Tally fault (node :: nodes) others (node.faults.count fault + count) := by
  refine ⟨?_, List.forall_mem_cons.mpr ⟨direct, tally.direct⟩⟩
  have counts := tally.count
  simp only [List.flatMap_cons, List.count_append]
  omega

theorem sound {node : Node} (tally : Tally fault nodes others count) (direct : node.isDirect = true)
    (faults : node.faults = []) : Tally fault (node :: nodes) others count :=
  (tally.cons direct).of_eq (by simp [faults])

theorem known (own : Diagnostics) (tally : Tally fault nodes [] count) :
    Tally fault nodes own (own.count fault + count) := by
  refine ⟨?_, tally.direct⟩
  have counts := tally.count
  rw [List.count_nil] at counts
  omega

theorem atoms (leaves : List Atom) : Tally fault (leaves.map Atom.node) [] 0 := by
  induction leaves with
  | nil => exact nil
  | cons leaf others ih => exact ih.sound rfl rfl

theorem afterAtoms (leaves : List Atom) (tally : Tally fault nodes others count) :
    Tally fault (leaves.map Atom.node ++ nodes) others count :=
  ((atoms leaves).append tally).of_eq (Nat.zero_add count)

theorem atom (leaf : Atom) : Tally fault (Expr.atom leaf).walk [] 0 := atoms [leaf]

theorem parenthesize {value : Expr} (tally : Tally fault value.walk others count) :
    Tally fault value.parenthesize.walk others count := by
  have faults : (Node.expression value.parenthesize).faults = (Node.expression value).faults := by
    cases value <;> rfl
  have direct : (Node.expression value.parenthesize).isDirect = (Node.expression value).isDirect := by
    cases value <;> rfl
  have children : value.parenthesize.children = value.children := by cases value <;> rfl
  obtain ⟨counts, directs⟩ := tally
  rw [Expr.walk_eq, List.flatMap_cons] at counts
  rw [Expr.walk_eq, List.forall_mem_cons] at directs
  rw [Expr.walk_eq, children]
  refine ⟨?_, List.forall_mem_cons.mpr ⟨direct ▸ directs.1, directs.2⟩⟩
  rw [List.flatMap_cons, faults]
  exact counts

theorem unary {head : Head} {operand : Expr} (tally : Tally fault operand.walk [] count) :
    Tally fault (Expr.unary head operand).walk []
      ((Node.expression (.unary head operand)).faults.count fault + count) :=
  tally.cons rfl

theorem binary {head : Head} {left right : Expr} (first : Tally fault left.walk [] count)
    (second : Tally fault right.walk [] added) :
    Tally fault (Expr.binary head left right).walk []
      ((Node.expression (.binary head left right)).faults.count fault + (count + added)) :=
  (first.append second).cons rfl

/-- What is called is either kept whole or was accessed; then it is neither an assignment nor a call. -/
theorem calling {head : Head} {callee : Expr} {arguments : List Expr}
    (left : Tally fault callee.walk [] count) (inside : Tally fault (Expr.walkAll arguments) [] added) :
    Tally fault (callee.calling head arguments).walk []
      ((Node.expression (callee.calling head arguments)).faults.count fault + (count + added)) := by
  have plain (direct : (Node.expression (.call head callee arguments)).isDirect = true) :
      Tally fault (Expr.call head callee arguments).walk []
        ((Node.expression (.call head callee arguments)).faults.count fault + (count + added)) :=
    (left.append inside).cons direct
  cases callee with
  | binary access object member =>
      -- Of an access that becomes a method only the parts are left; its own node had no fault.
      simp only [Expr.calling]
      split
      · rename_i accessed
        rw [Bool.and_eq_true, List.contains_iff_mem] at accessed
        have other := Expr.not_mem_assignmentIds_of_access _ accessed.1
        have parts : Tally fault (object.walk ++ member.walk) [] count := by
          have counts := left.count
          simp only [Expr.walk, List.flatMap_cons, Node.faults_binary, other] at counts
          exact ⟨by simpa using counts, fun node inner => left.direct node (List.mem_cons_of_mem _ inner)⟩
        exact (parts.append inside).cons rfl
      · rename_i kept
        refine plain ?_
        simp only [Node.isDirect, Node.callee?, Option.all_some, Expr.isAccess, Expr.head]
        cases accessed : Expr.accessIds.contains access.id <;> simp_all
  | _ => exact plain rfl

end Tally

namespace Stmt

variable {fault : Diagnostic} {body more : List Stmt} {count added : Nat}

theorem faults_expression (value : Expr) :
    (Stmt.expression value).faults =
      if value.isIdle then [⟨.badExpressionStatement, value.head.span, .warning⟩] else [] := by
  simp only [faults, idle?, names]
  cases value.isIdle <;> rfl

theorem faults_declaration (head : Head) (valueType : ValueType) (declarators : List Declarator) :
    (Stmt.declaration head valueType declarators).faults = declarators.flatMap (·.name.faults) := by
  simp [faults, idle?, names, List.flatMap_map]

abbrev Tallied (fault : Diagnostic) (statement : Stmt) (count : Nat) : Prop :=
  Tally fault statement.walk (statement.standing.flatMap faults) count

abbrev TalliedAll (fault : Diagnostic) (body : List Stmt) (count : Nat) : Prop :=
  Tally fault (Stmt.walkAll body) ((Stmt.standingAll body).flatMap faults) count

theorem Tallied.single {statement : Stmt} (tally : statement.Tallied fault count) :
    Stmt.TalliedAll fault [statement] count := by
  simpa [Stmt.TalliedAll, walkAll, standingAll] using tally

theorem TalliedAll.append (first : Stmt.TalliedAll fault body count)
    (second : Stmt.TalliedAll fault more added) : Stmt.TalliedAll fault (body ++ more) (count + added) := by
  have whole := Tally.append first second
  rw [← List.flatMap_append, ← standingAll_append] at whole
  simpa only [Stmt.TalliedAll, Stmt.walkAll_eq_flatMap, List.flatMap_append] using whole

end Stmt

end Adventure
