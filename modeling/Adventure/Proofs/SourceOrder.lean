import Adventure.Proofs.Anchors
import Adventure.Proofs.StatementSurveys

/-!
Source order. Whatever is made while reading gets from one token to another starts between the two, so what
is made one after the other stands one after the other; and what a token stands for by itself is made when
the token is consumed, so no two operands are made of one token.
-/

namespace Adventure

namespace Position

theorem le_iff {first second : Position} : first.le second = true ↔
    first.line < second.line ∨ first.line = second.line ∧ first.character ≤ second.character := by
  simp [le]

variable {first second third : Position}

theorem le_refl (position : Position) : position.le position = true := by
  simp [le_iff]

theorem le_trans (before : first.le second = true) (after : second.le third = true) :
    first.le third = true := by
  rw [le_iff] at *
  omega

theorem Precedes.le (before : first.Precedes second) : first.le second = true := by
  unfold Precedes at before
  rw [le_iff]
  omega

theorem Precedes.trans_le (before : first.Precedes second) (after : second.le third = true) :
    first.Precedes third := by
  unfold Precedes at *
  rw [le_iff] at after
  omega

end Position

namespace Node

def start (node : Node) : Position := node.head.span.start

/-- Whatever is part of the first node starts no later than whatever is part of the second. -/
def Before (first second : Node) : Prop :=
  ∀ earlier ∈ first.walk, ∀ later ∈ second.walk, earlier.start.le later.start = true

/-- The children stand one after the other. -/
def Ordered (node : Node) : Prop := node.children.Pairwise Before

theorem walk_eq (node : Node) : ∃ first : Node, node.walk = first :: node.children.flatMap walk ∧
    first.head = node.head ∧ first.children = node.children ∧ first.isOperand = node.isOperand := by
  cases node with
  | expression value =>
      refine ⟨.expression value, ?_, rfl, rfl, rfl⟩
      rw [walk, Expr.walk_eq, children, List.flatMap_map]
      rfl
  | statement value => exact ⟨value.node, Stmt.walk_eq value, by cases value <;> exact ⟨rfl, rfl, rfl⟩⟩

end Node

/-- The nodes stand between the two places, one after the other, and so do all the parts of each; and the
operands among them start one strictly after the other. -/
structure Laid (low high : Position) (nodes : List Node) : Prop where
  le : low.le high = true
  within : ∀ node ∈ nodes.flatMap Node.walk, low.le node.start = true ∧ node.start.le high = true
  apart : nodes.Pairwise Node.Before
  ordered : ∀ node ∈ nodes.flatMap Node.walk, node.Ordered
  operands : ((nodes.flatMap Node.walk).filter Node.isOperand).Pairwise (·.start.Precedes ·.start)
  ends : ∀ node ∈ nodes.flatMap Node.walk, node.isOperand = true → node.start.Precedes high

namespace Laid

variable {low middle high : Position} {nodes others : List Node}

theorem nil (le : low.le high = true) : Laid low high [] := by
  constructor <;> simp [le]

theorem append (first : Laid low middle nodes) (second : Laid middle high others) :
    Laid low high (nodes ++ others) := by
  refine ⟨Position.le_trans first.le second.le, ?_, ?_, ?_, ?_, ?_⟩
  · rw [List.flatMap_append, List.forall_mem_append]
    constructor <;> intro node member
    · have inside := first.within node member
      exact ⟨inside.1, Position.le_trans inside.2 second.le⟩
    · have inside := second.within node member
      exact ⟨Position.le_trans first.le inside.1, inside.2⟩
  · refine List.pairwise_append.mpr ⟨first.apart, second.apart, fun node member other memberOther => ?_⟩
    intro earlier inside later insideOther
    have above := first.within earlier (List.mem_flatMap_of_mem member inside)
    have below := second.within later (List.mem_flatMap_of_mem memberOther insideOther)
    exact Position.le_trans above.2 below.1
  · rw [List.flatMap_append, List.forall_mem_append]
    exact ⟨first.ordered, second.ordered⟩
  · rw [List.flatMap_append, List.filter_append]
    refine List.pairwise_append.mpr ⟨first.operands, second.operands, fun node member other memberOther => ?_⟩
    obtain ⟨inside, operand⟩ := List.mem_filter.mp member
    exact (first.ends node inside operand).trans_le (second.within other (List.mem_filter.mp memberOther).1).1
  · rw [List.flatMap_append, List.forall_mem_append]
    exact ⟨fun node member operand => (first.ends node member operand).trans_le second.le, second.ends⟩

theorem node {node : Node} (below : node.children = nodes) (children : Laid low high nodes)
    (after : low.le node.start = true) (before : node.start.le high = true)
    (other : node.isOperand = false) : Laid low high [node] := by
  subst below
  obtain ⟨first, walk, head, parts, same⟩ := node.walk_eq
  have start : first.start = node.start := congrArg (·.span.start) head
  have all : [node].flatMap Node.walk = first :: node.children.flatMap Node.walk := by simpa using walk
  have noOperand : first.isOperand = false := same.trans other
  refine ⟨children.le, ?_, List.pairwise_singleton _ _, ?_, ?_, ?_⟩
  · rw [all, List.forall_mem_cons, start]
    exact ⟨⟨after, before⟩, children.within⟩
  · rw [all, List.forall_mem_cons, Node.Ordered, parts]
    exact ⟨children.apart, children.ordered⟩
  · rw [all, List.filter_cons_of_neg (by simp [noOperand])]
    exact children.operands
  · rw [all, List.forall_mem_cons]
    exact ⟨fun operand => absurd (noOperand.symm.trans operand) (by decide), children.ends⟩

theorem around {node : Node} {span : Span} (first : Laid low span.start nodes)
    (second : Laid span.start high others) (below : node.children = nodes ++ others)
    (same : node.head.span = span) (other : node.isOperand = false) : Laid low high [node] := by
  subst same
  exact .node below (first.append second) first.le second.le other

theorem children {node : Node} (laid : Laid low high [node]) : Laid low high node.children := by
  obtain ⟨first, walk, _, parts, _⟩ := node.walk_eq
  have all : [node].flatMap Node.walk = first :: node.children.flatMap Node.walk := by simpa using walk
  have below {part : Node} (member : part ∈ node.children.flatMap Node.walk) :
      part ∈ [node].flatMap Node.walk := all ▸ List.mem_cons_of_mem _ member
  have ordered := laid.ordered first (all ▸ List.mem_cons_self ..)
  refine ⟨laid.le, fun part member => laid.within part (below member), ?_,
    fun part member => laid.ordered part (below member), ?_,
    fun part member => laid.ends part (below member)⟩
  · rwa [Node.Ordered, parts] at ordered
  · refine laid.operands.sublist (List.Sublist.filter _ ?_)
    rw [all]
    exact List.sublist_cons_self _ _

theorem atom {leaf : Atom} (after : low.le leaf.node.start = true) (before : leaf.node.start.le high = true)
    (strictly : leaf.node.isOperand = true → leaf.node.start.Precedes high) : Laid low high [leaf.node] := by
  have all : [leaf.node].flatMap Node.walk = [leaf.node] := by simp
  refine ⟨Position.le_trans after before, ?_, List.pairwise_singleton _ _, ?_, ?_, ?_⟩
  · simpa only [all, List.forall_mem_singleton] using ⟨after, before⟩
  · rw [all, List.forall_mem_singleton]
    exact List.Pairwise.nil
  · exact (all ▸ List.pairwise_singleton _ _).sublist List.filter_sublist
  · simpa only [all, List.forall_mem_singleton] using strictly

theorem parenthesize {value : Expr} (laid : Laid low high [.expression value]) :
    Laid low high [.expression value.parenthesize] := by
  have member : Node.expression value ∈ [Node.expression value].flatMap Node.walk := by
    rw [List.flatMap_singleton, Node.walk_expression, Expr.walk_eq]
    exact List.mem_cons_self ..
  obtain ⟨after, before⟩ := laid.within _ member
  cases value with
  | atom leaf =>
      have strictly := laid.ends _ member
      exact atom after before strictly
  | _ => exact node rfl laid.children after before rfl

end Laid

theorem Expr.isOperand_of_leftOperand? {value left : Expr} (folded : value.leftOperand? = some left) :
    (Node.expression value).isOperand = false := by
  cases value with
  | atom => cases folded
  | _ => rfl

theorem Terminal.span_of_token? {terminal : Terminal} {token : Token}
    (made : terminal.token? = some token) : token.span = terminal.span := by
  obtain ⟨kind, _, rfl⟩ := Option.map_eq_some_iff.mp made
  rfl

namespace ParseM

variable {context : Context} {tokens : List Token} {state : ParseState}

structure Placed (context : Context) (tokens : List Token) : Prop where
  ordered : tokens.Pairwise (·.span.start.Precedes ·.span.start)
  finish : ∀ token ∈ tokens, token.span.start.Precedes context.finish

/-- What is consumed starts before what becomes the lookahead, unless it is the end of the input. -/
theorem Understood.precedes (understood : Understood context tokens state) (placed : Placed context tokens)
    (present : state.token.isEnd = false) :
    state.token.span.start.Precedes (advance.run context state).2.token.span.start := by
  obtain ⟨terminal, passed, pending, events, ran, split, arrival⟩ := @advance_run context state
  obtain ⟨consumed, made, whole⟩ := ahead_of_isEnd_false present
  have ahead : consumed :: state.pending <:+ tokens := whole ▸ understood.ahead
  rw [ran, ← Terminal.span_of_token? made]
  cases arrival with
  | finish => exact placed.finish _ (ahead.subset (List.mem_cons_self ..))
  | @terminal skipped _ token _ _ meant =>
      have later : token ∈ state.pending := by simp [split]
      rw [← Terminal.span_of_token? (Token.meaning?_token? meant)]
      exact (List.pairwise_cons.mp (placed.ordered.sublist ahead.sublist)).1 token later

theorem Understood.le (understood : Understood context tokens state) (placed : Placed context tokens) :
    state.token.span.start.le (advance.run context state).2.token.span.start = true := by
  cases present : state.token.isEnd with
  | false => exact (understood.precedes placed present).le
  | true =>
      obtain ⟨same, none⟩ := understood.ended present
      obtain ⟨terminal, passed, pending, events, ran, split, arrival⟩ := @advance_run context state
      rw [ran, same]
      cases arrival with
      | finish => exact Position.le_refl _
      | terminal => simp [none] at split

def laying (grammar : context.grammar = Grammar.standard) (lexical : ∀ token ∈ tokens, token.Lexical)
    (placed : Placed context tokens) : Survey context tokens where
  grammar
  lexical
  finds _ before after nodes := Laid before.token.span.start after.token.span.start nodes
  still token _ _ := .nil (token ▸ Position.le_refl _)
  append found more := found.append more
  deeper found := found
  take understood := .nil (understood.le placed)
  leaf understood present :=
    .atom (Position.le_refl _) (understood.le placed) fun _ => understood.precedes placed present
  placeholder _ :=
    .atom (Position.le_refl _) (Position.le_refl _) fun operand => absurd operand Bool.false_ne_true
  grouped found := found.parenthesize
  headed onward _ found same other := .around onward found rfl same other
  folded found _ others operand children same :=
    .around found others (by simp [Node.children, children]) same (Expr.isOperand_of_leftOperand? operand)
  method found _ others same := .around found.children others rfl same rfl

theorem laying_scopeless (grammar : context.grammar = Grammar.standard)
    (lexical : ∀ token ∈ tokens, token.Lexical) (placed : Placed context tokens) :
    (laying grammar lexical placed).Scopeless where
  opens := .nil (Position.le_refl _)
  closes {state} := by
    have same : (popScope.run context state).2.token = state.token := by
      unfold popScope
      rw [run_get_bind]
      cases state.scopes.pop state.scope <;> rfl
    exact .nil (same ▸ Position.le_refl _)

end ParseM

namespace Document

theorem placed (options : Options) (source : String) :
    ParseM.Placed (context Grammar.standard options source) (tokens source) := by
  refine ⟨tokens_ordered source, fun token member => ?_⟩
  obtain ⟨before, after, split⟩ := List.append_of_mem member
  have nonempty : token.text.toList ++ Token.characters after ≠ [] := fun none =>
    (tokens_cover source).nonempty token member (by simpa using (List.append_eq_nil_iff.mp none).1)
  have whole : source.toList = Token.characters before ++ (token.text.toList ++ Token.characters after) := by
    rw [← characters_tokens source, split]
    simp [Token.characters]
  have finish : (context Grammar.standard options source).finish =
      token.span.start.afterAll (token.text.toList ++ Token.characters after) := by
    rw [(tokens_located split).start, ← Position.afterAll_start, ← Position.afterAll_append, ← whole]
    exact Cursor.readAll_finish _
  rw [finish]
  exact Position.precedes_afterAll _ nonempty

/-- The children of every node of a document stand one after the other, and so do its statements; and no
two names or literals stand at one place. -/
theorem parse_ordered (options : Options) (source : String) :
    let made := (parse Grammar.standard options source).statements
    (∀ node ∈ Stmt.walkAll made, node.Ordered) ∧
      made.Pairwise (fun first second => first.node.Before second.node) ∧
      (((Stmt.walkAll made).filter Node.isOperand).map (·.head.span)).Nodup := by
  have lexical := tokens_lexical source
  have grammar : (context Grammar.standard options source).grammar = Grammar.standard := rfl
  have laid := (ParseM.Survey.statements (ParseM.laying_scopeless grammar lexical (placed options source))
    options.maxDepth (start Grammar.standard options source) (ParseM.start_understood rfl lexical)).2
  have walk := Stmt.flatMap_walk_node (run Grammar.standard options source).1
  simp only [parse, statements_analyzed, ofRun]
  refine ⟨walk ▸ laid.ordered, List.pairwise_map.mp laid.apart, ?_⟩
  rw [← walk]
  refine List.pairwise_map.mpr (laid.operands.imp fun before same => ?_)
  exact before.ne (congrArg Span.start same)

end Document

end Adventure
