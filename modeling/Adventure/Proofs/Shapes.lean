import Adventure.Proofs.Limits
import Adventure.Proofs.Soundness
import Adventure.Proofs.StatementAccounts

/-!
The shape of a document. Whatever the source, what is reported about the shape of its expressions and its
statements is just what its tree shows.
-/

namespace Adventure

section

variable {fault : Diagnostic}

theorem Node.count_faults (nodes : List Node) : (nodes.flatMap Node.faults).count fault =
    ((nodes.filterMap Node.badTarget?).map
        (fun target => (⟨.badLeftValue, target.head.span, .error⟩ : Diagnostic))).count fault +
      ((nodes.filterMap Node.badCallee?).map
        (fun callee => (⟨.expectedVariableName, callee.head.span, .error⟩ : Diagnostic))).count fault := by
  induction nodes with
  | nil => rfl
  | cons node others ih =>
      simp only [List.flatMap_cons, List.count_append, Node.faults, List.filterMap_cons, ih]
      cases node.badTarget? <;> cases node.badCallee? <;> simp [List.count_cons] <;> omega

theorem Atom.faults_all (leaves : List Atom) :
    leaves.flatMap Atom.faults = (leaves.filter (·.kind == .invalid)).map
      fun leaf => ⟨.expectedVariableName, leaf.head.span, .error⟩ := by
  induction leaves with
  | nil => rfl
  | cons leaf others ih =>
      by_cases invalid : leaf.kind = .invalid <;> simp [Atom.faults, invalid, ih]

theorem Stmt.count_faults (standing : List Stmt) : (standing.flatMap Stmt.faults).count fault =
    ((standing.filterMap Stmt.idle?).map
        (fun value => (⟨.badExpressionStatement, value.head.span, .warning⟩ : Diagnostic))).count fault +
      (((standing.flatMap Stmt.names).filter (·.kind == .invalid)).map
        (fun leaf => (⟨.expectedVariableName, leaf.head.span, .error⟩ : Diagnostic))).count fault := by
  rw [← Atom.faults_all]
  induction standing with
  | nil => rfl
  | cons statement others ih =>
      simp only [List.flatMap_cons, List.count_append, Stmt.faults, List.filterMap_cons, ih,
        List.flatMap_append]
      cases statement.idle? <;> simp [List.count_cons] <;> omega

theorem count_map_of_ne {α : Type} {problem : Problem} (other : fault.problem ≠ problem) (items : List α)
    (span : α → Span) (severity : Severity) :
    (items.map fun item => (⟨problem, span item, severity⟩ : Diagnostic)).count fault = 0 := by
  refine List.count_eq_zero.mpr fun member => ?_
  obtain ⟨item, _, rfl⟩ := List.mem_map.mp member
  exact other rfl

end

theorem Diagnostics.perm_of_count {all expected : Diagnostics} {problem : Problem}
    (only : ∀ diagnostic ∈ expected, diagnostic.problem = problem)
    (counts : ∀ fault : Diagnostic, fault.problem = problem → all.count fault = expected.count fault) :
    (all.filter (·.problem == problem)).Perm expected := by
  refine List.perm_iff_count.mpr fun fault => ?_
  by_cases same : fault.problem = problem
  · rw [List.count_filter (by simpa using same)]
    exact counts fault same
  · have absent : fault ∉ expected := fun member => same (only fault member)
    rw [List.count_eq_zero.mpr absent, List.count_eq_zero]
    intro member
    exact same (by simpa using (List.mem_filter.mp member).2)

/-! What the tree is searched for. -/

theorem Expr.isLeftValue_iff {value : Expr} : value.isLeftValue = true ↔
    (∃ head, value = .atom ⟨.name, head⟩) ∨
      ∃ head left right, value = .binary head left right ∧ (head.id = "." ∨ head.id = "[") := by
  cases value with
  | atom leaf => cases leaf; simp [isLeftValue]
  | binary head left right => simp [isLeftValue, accessIds]
  | _ => simp [isLeftValue]

theorem Expr.isCallable_iff {callee : Expr} : callee.isCallable = true ↔
    (∃ head, callee = .atom ⟨.name, head⟩) ∨ (∃ head, callee = .atom ⟨.invalid, head⟩) ∨
      callee.head.parenthesized = true ∨ callee.head.id ∈ ["(", "&&", "||", "?"] := by
  cases callee with
  | atom leaf => cases leaf; simp [isCallable, isName, isInvalid, or_assoc]
  | _ => simp [isCallable, isName, isInvalid]

theorem Node.target?_eq_some_iff {node : Node} {target : Expr} : node.target? = some target ↔
    ∃ head, (head.id ∈ ["=", "+=", "-=", "*=", "/=", "%="] ∧
        ∃ right, node = .expression (.binary head target right)) ∨
      (head.id ∈ ["++", "--"] ∧ node = .expression (.unary head target)) := by
  cases node with
  | statement => simp [target?]
  | expression value =>
      cases value with
      | binary head left right => simp [target?, Expr.assignmentIds, and_comm]
      | unary head operand => simp [target?, Expr.stepIds, and_comm]
      | _ => simp [target?]

theorem Node.callee?_eq_some_iff {node : Node} {callee : Expr} : node.callee? = some callee ↔
    ∃ head arguments, node = .expression (.call head callee arguments) := by
  cases node with
  | statement => simp [callee?]
  | expression value => cases value <;> simp [callee?]

namespace Document

open ParseM

variable (options : Options) (source : String)

theorem isShape_of_undefinedNames (grammar : Grammar) (document : Document) :
    ∀ diagnostic ∈ document.undefinedNames grammar options, diagnostic.problem.isShape = false := by
  intro diagnostic member
  obtain ⟨occurrence, _, rfl⟩ := List.mem_map.mp member
  rfl

/-- A fault of shape is reported as often as it is found in the tree. -/
theorem parse_tallied {fault : Diagnostic} (shape : fault.problem.isShape = true) :
    Stmt.TalliedAll fault (parse Grammar.standard options source).statements
      ((parse Grammar.standard options source).diagnostics.count fault) := by
  have audit : Audit (context Grammar.standard options source) (tokens source) fault :=
    ⟨rfl, tokens_lexical source, shape⟩
  have begun : (start Grammar.standard options source).diagnostics.count fault = 0 := by
    obtain ⟨terminal, passed, pending, events, started, _⟩ :=
      @start_eq (context Grammar.standard options source) (tokens source)
    rw [start, started]
    exact @count_of_others fault shape [] _ (isShape_of_complaints passed)
  have accounts := @Accounts.statements _ _ fault none options.maxDepth audit
  obtain ⟨_, count, counted, tally⟩ :=
    accounts (start Grammar.standard options source) (start_understood rfl audit.lexical) (by simp)
  have names : ∀ diagnostic ∈ (if options.analyze then
      (ofRun (run Grammar.standard options source)).undefinedNames Grammar.standard options else []),
      diagnostic.problem.isShape = false := by
    intro diagnostic member
    split at member
    · exact isShape_of_undefinedNames options Grammar.standard _ diagnostic member
    · cases member
  rw [← run, begun, Nat.zero_add] at counted
  rw [← run] at tally
  have made : (parse Grammar.standard options source).statements =
      (run Grammar.standard options source).1 := by
    simp only [parse, statements_analyzed, ofRun]
  rw [diagnostics_parse, count_of_others shape names, counted, made]
  exact tally

/-- The faults of shape that are reported are those of the tree: of what is changed, of what is called, of
the names that variables lack and of the statements that are idle. And no call is left that should have
become the call of a method. -/
structure Shaped (document : Document) : Prop where
  targets : (document.diagnostics.filter (·.problem == .badLeftValue)).Perm
    (((Stmt.walkAll document.statements).filterMap Node.badTarget?).map
      fun target => ⟨.badLeftValue, target.head.span, .error⟩)
  names : (document.diagnostics.filter (·.problem == .expectedVariableName)).Perm
    (((Stmt.walkAll document.statements).filterMap Node.badCallee?).map
        (fun callee => ⟨.expectedVariableName, callee.head.span, .error⟩) ++
      (((Stmt.standingAll document.statements).flatMap Stmt.names).filter (·.kind == .invalid)).map
        fun leaf => ⟨.expectedVariableName, leaf.head.span, .error⟩)
  idle : (document.diagnostics.filter (·.problem == .badExpressionStatement)).Perm
    (((Stmt.standingAll document.statements).filterMap Stmt.idle?).map
      fun value => ⟨.badExpressionStatement, value.head.span, .warning⟩)
  calls : ∀ node ∈ Stmt.walkAll document.statements, ∀ callee, node.callee? = some callee →
    callee.isAccess = true → callee.head.parenthesized = true

/-- Whatever the source, the faults of shape that are reported are just those that its tree shows. -/
theorem parse_shaped : (parse Grammar.standard options source).Shaped := by
  generalize made : parse Grammar.standard options source = document
  have tally {fault : Diagnostic} (shape : fault.problem.isShape = true) :
      Stmt.TalliedAll fault document.statements (document.diagnostics.count fault) :=
    made ▸ parse_tallied options source shape
  have counts (fault : Diagnostic) (shape : fault.problem.isShape = true) :
      document.diagnostics.count fault =
        ((Stmt.walkAll document.statements).flatMap Node.faults).count fault +
          ((Stmt.standingAll document.statements).flatMap Stmt.faults).count fault :=
    (tally shape).count.symm
  constructor
  case targets =>
    refine Diagnostics.perm_of_count (List.forall_mem_map.mpr fun _ _ => rfl) fun fault same => ?_
    rw [counts fault (by rw [same]; rfl), Node.count_faults, Stmt.count_faults,
      count_map_of_ne (by simp [same]) (List.filterMap Node.badCallee? _),
      count_map_of_ne (by simp [same]) (List.filterMap Stmt.idle? _),
      count_map_of_ne (by simp [same]) (List.filter _ _)]
    omega
  case names =>
    refine Diagnostics.perm_of_count (List.forall_mem_append.mpr ?_) fun fault same => ?_
    · exact ⟨List.forall_mem_map.mpr fun _ _ => rfl, List.forall_mem_map.mpr fun _ _ => rfl⟩
    · rw [counts fault (by rw [same]; rfl), Node.count_faults, Stmt.count_faults, List.count_append,
        count_map_of_ne (by simp [same]) (List.filterMap Node.badTarget? _),
        count_map_of_ne (by simp [same]) (List.filterMap Stmt.idle? _)]
      omega
  case idle =>
    refine Diagnostics.perm_of_count (List.forall_mem_map.mpr fun _ _ => rfl) fun fault same => ?_
    rw [counts fault (by rw [same]; rfl), Node.count_faults, Stmt.count_faults,
      count_map_of_ne (by simp [same]) (List.filterMap Node.badTarget? _),
      count_map_of_ne (by simp [same]) (List.filterMap Node.badCallee? _),
      count_map_of_ne (by simp [same]) (List.filter _ _)]
    omega
  case calls =>
    intro node member callee called accessed
    have shape : (⟨.badLeftValue, {}, .error⟩ : Diagnostic).problem.isShape = true := rfl
    have direct := (tally shape).direct node member
    simpa [Node.isDirect, called, accessed] using direct

example : ((parse Grammar.standard Options.default "1 = 2; 3(4); (x); int 5;").diagnostics.map
    fun diagnostic => (diagnostic.problem, diagnostic.span.start.character)) =
      [(.badLeftValue, 0), (.expectedVariableName, 7), (.badExpressionStatement, 14),
        (.expectedVariableName, 22), (.undefined "x", 14)] := by
  decide +kernel

end Document

end Adventure
