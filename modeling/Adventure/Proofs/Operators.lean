import Adventure.Proofs.Agreement
import Adventure.Proofs.Meaning
import Adventure.Proofs.Passing

/-!
Operators. What a terminal does goes from the grammar into terminals, from terminals into the scopes when a
name is bound, and from the scopes back into later terminals. On all these ways whatever binds a left operand
stays an operator, so an expression never meets anything that binds and cannot be folded.
-/

namespace Adventure

def Denotations.Folds (denotations : Denotations) : Prop :=
  0 < denotations.power → denotations.operator?.isSome = true

theorem Denotations.folds_of_idle {denotations : Denotations} (idle : denotations.power = 0) :
    denotations.Folds :=
  fun binds => absurd idle (Nat.ne_of_gt binds)

theorem Grammar.denotations_folds (id : String) : (standard.denotations id).Folds := by
  have known : ∀ symbol ∈ standard.symbols,
      0 < symbol.denotations.power → symbol.denotations.operator?.isSome = true := by decide
  exact @denotations_induction standard (fun _ denotations => denotations.Folds)
    (fun _ => Denotations.folds_of_idle rfl) known id

theorem Word.denotations_folds (word : Word) : word.denotations.Folds := by
  unfold denotations
  split
  · exact Grammar.denotations_folds _
  · exact Grammar.denotations_folds _
  · split
    · exact Denotations.folds_of_idle rfl
    · exact Grammar.denotations_folds _

theorem Token.operator_known : ∀ text ∈ operators, (Grammar.standard.get? text).isSome = true := by
  decide

theorem Token.complaints_known {token : Token} (lexical : token.Lexical) {diagnostic : Diagnostic}
    (member : diagnostic ∈ token.complaints Grammar.standard) (text : String) :
    diagnostic.problem ≠ .unknownOperator text := by
  cases kind : token.kind with
  | operator =>
      have known := Token.operator_known token.text (lexical.operator kind)
      rw [← Option.not_isNone, Bool.not_eq_true'] at known
      simp [Token.complaints, kind, known] at member
  | invalid =>
      simp only [Token.complaints, kind, List.mem_singleton] at member
      simp [member]
  | string =>
      simp only [Token.complaints, kind] at member
      split at member <;> simp_all
  | name | integer | directive | comment | whitespace => simp [Token.complaints, kind] at member

/-- A terminal is in step with the grammar. Names that the grammar lacks have an id in common, and an
operator has its own. -/
structure Terminal.InStep (terminal : Terminal) : Prop where
  folds : terminal.denotations.Folds
  name : terminal.isName = true → terminal.id = terminal.text ∨ terminal.id = "(name)"
  operator : terminal.origin = some .operator → terminal.id = terminal.text

namespace ParseM

variable {α : Type} {context : Context} {tokens : List Token} {state before after : ParseState}

theorem Known.inStep {terminal : Terminal} (known : Known context tokens terminal)
    (grammar : context.grammar = Grammar.standard) : terminal.InStep := by
  rcases known with rfl | ⟨token, _, _, means⟩
  · refine ⟨?_, by simp [endTerminal, Terminal.isName], by simp [endTerminal]⟩
    rw [endTerminal, grammar]
    exact Grammar.denotations_folds "(end)"
  · refine ⟨?_, fun named => ?_, fun operator => ?_⟩
    · rcases means.denotations with same | ⟨_, same⟩
      · exact same ▸ token.word.denotations_folds
      · exact same ▸ Denotations.folds_of_idle rfl
    · have kind : token.word.kind = .name := by simpa [Terminal.isName, means.origin] using named
      rw [means.id, means.text, Word.id, kind]
      dsimp only
      split
      · exact .inr rfl
      · exact .inl rfl
    · have kind : token.word.kind = .operator := by simpa [means.origin] using operator
      simp [means.id, means.text, Word.id, Word.isFree, kind]

/-- The states that reading comes to, and others that its steps could lead to. A step changes the lookahead
or the scopes, or neither; what is bound was the lookahead before. -/
inductive Visited (context : Context) (tokens : List Token) : ParseState → Prop
  | start : Visited context tokens (ParseState.start context tokens)
  | still {before after : ParseState} (alike : Alike before after) :
      Visited context tokens before → Visited context tokens after
  | advance {state : ParseState} :
      Visited context tokens state → Visited context tokens (advance.run context state).2
  | define {earlier state : ParseState} (arity : Arity) (valueType? : Option ValueType) :
      Visited context tokens earlier → Visited context tokens state →
        Visited context tokens ((define earlier.token arity valueType?).run context state).2
  | reserve {earlier state : ParseState} :
      Visited context tokens earlier → Visited context tokens state →
        Visited context tokens ((reserve earlier.token).run context state).2
  | push {state : ParseState} :
      Visited context tokens state → Visited context tokens (pushScope.run context state).2
  | pop {state : ParseState} (closing : Closing state) :
      Visited context tokens state → Visited context tokens (popScope.run context state).2

def Seen (context : Context) (tokens : List Token) (terminal : Terminal) : Prop :=
  ∃ earlier, Visited context tokens earlier ∧ earlier.token = terminal

/-- Whatever is read, reading goes from visited states to visited ones. -/
theorem visited_kept : Keeps context (Seen context tokens) (Visited context tokens) := by
  refine .of_alike .still (fun visited => ⟨_, visited, rfl⟩) .advance ?_ ?_ .push .pop
  · rintro _ arity valueType? state ⟨earlier, seen, rfl⟩ visited
    exact .define arity valueType? seen visited
  · rintro _ state ⟨earlier, seen, rfl⟩ visited
    exact .reserve seen visited

theorem Understood.alike (alike : Alike before after) (understood : Understood context tokens before) :
    Understood context tokens after := by
  refine ⟨alike.scopes ▸ understood.bindings, understood.ended.of_eq alike.token alike.pending, ?_,
    alike.token ▸ understood.lookahead⟩
  rw [ParseState.ahead, alike.token, alike.pending]
  exact understood.ahead

section

variable (grammar : context.grammar = Grammar.standard) (lexical : ∀ token ∈ tokens, token.Lexical)

include grammar lexical

theorem Visited.understood (visited : Visited context tokens state) : Understood context tokens state := by
  have keeps := understood_kept grammar lexical
  induction visited with
  | start => exact start_understood grammar lexical
  | still alike _ ih => exact ih.alike alike
  | advance _ ih => exact keeps.take ih
  | define arity valueType? _ _ seen ih => exact keeps.plain (.define seen.lookahead arity valueType?) ih
  | reserve _ _ seen ih => exact keeps.plain (.reserve seen.lookahead) ih
  | push _ ih => exact keeps.push ih
  | pop closing _ ih => exact keeps.pop closing ih

theorem Visited.bindings (visited : Visited context tokens state) :
    state.scopes.All (·.denotations.Folds) := by
  induction visited with
  | start =>
      obtain ⟨terminal, passed, pending, events, start, _⟩ := @start_eq context tokens
      rw [start]
      exact ScopeTree.all_start
  | still alike _ ih => exact alike.scopes ▸ ih
  | @advance state _ ih =>
      obtain ⟨terminal, passed, pending, events, ran, _⟩ := @advance_run context state
      rw [ran]
      exact ih
  | define arity valueType? _ _ _ ih =>
      rw [define_run]
      exact ih.define _ (Denotations.folds_of_idle rfl)
  | reserve seen _ _ ih =>
      rw [reserve_run]
      exact ih.reserve _ fun _ _ => ((seen.understood grammar lexical).lookahead.inStep grammar).folds
  | push _ ih => exact ih.push _
  | @pop state _ _ ih =>
      unfold popScope
      rw [run_get_bind]
      cases popped : state.scopes.pop state.scope with
      | error => exact ih
      | ok scopes => exact ih.pop popped

end

/-! Reading with something else in the place of the report about what binds and is no operator. -/

/-- Folds the next operator onto `left`, and leaves what is none to `missing`. -/
def foldOr (missing : Terminal → Expr → ParseM Expr) (inner : Nat → ParseM Expr) (left : Expr) :
    ParseM Expr := do
  let terminal ← advance
  match terminal.denotations.operator? with
  | some form => operatorForm inner terminal left form
  | none => missing terminal left

def expressionOr (missing : Terminal → Expr → ParseM Expr) : Nat → Nat → ParseM Expr
  | 0, power => expression 0 power
  | room + 1, power => do
      enter
      let left ← operand (expressionOr missing room)
      let value ← whileToken (power < ·.denotations.power) (foldOr missing (expressionOr missing room)) left
      leave
      return value

def statementOr (missing : Terminal → Expr → ParseM Expr) : Nat → ParseM (Option Stmt)
  | 0 => statement 0
  | room + 1 => do
      enter
      let result ← statementBody (expressionOr missing room) (statementOr missing room)
      leave
      return result

def reportMissing (terminal : Terminal) (left : Expr) : ParseM Expr := do
  error (.unexpectedToken terminal.text) terminal.span
  return left

theorem expressionOr_reportMissing (room : Nat) : expressionOr reportMissing room = expression room := by
  induction room with
  | zero => rfl
  | succ room ih =>
      funext power
      rw [expressionOr, ih]
      rfl

theorem statementOr_reportMissing (room : Nat) : statementOr reportMissing room = statement room := by
  induction room with
  | zero => rfl
  | succ room ih =>
      rw [statementOr, ih, expressionOr_reportMissing]
      rfl

section

variable {known : Terminal → Prop} {holds : ParseState → Prop}

theorem agrees_iff {outcome other : α × ParseState} :
    Agrees (fun _ => False) Eq outcome other ↔ outcome = other := by
  simp [Agrees, Prod.ext_iff]

theorem Keeps.same (keeps : Keeps context known holds) :
    Simulates context context known holds (fun _ => False) Eq where
  keeps := keeps
  lasting :=
    { lookahead := fun before => before.2.elim
      plain := fun _ before => before.2.elim
      take := fun before => before.2.elim
      takeNoted := fun _ before => before.2.elim
      takeAction := fun before => before.2.elim
      push := fun before => before.2.elim
      pop := fun _ before => before.2.elim
      enter := fun before => before.2.elim
      leave := fun before => before.2.elim
      refuse := fun before => before.2.elim }
  lookahead same := congrArg ParseState.token same.symm
  plain {_ action _ _} _ _ same := agrees_iff.mpr (congrArg (action.run context) same)
  take _ same := agrees_iff.mpr (congrArg (ParseM.advance.run context) same)
  takeNoted _ _ same := agrees_iff.mpr (congrArg (ParseM.takeNoted.run context) same)
  takeAction _ same := agrees_iff.mpr (congrArg (ParseM.takeAction.run context) same)
  push _ same := agrees_iff.mpr (congrArg (pushScope.run context) same)
  pop _ _ same := agrees_iff.mpr (congrArg (popScope.run context) same)

/-- What is composed reads the same when what stands in for expressions and statements does, wherever
reading can come to. -/
theorem Composed.run_congr (keeps : Keeps context known holds) {reader : Open α}
    (composed : Composed known none reader) {room : Nat} {inner : Nat → ParseM Expr}
    {nested : ParseM (Option Stmt)}
    (innerSame : ∀ power state, holds state →
      (inner power).run context state = (expression room power).run context state)
    (nestedSame : ∀ state, holds state →
      nested.run context state = (statement room).run context state)
    (before : holds state) :
    (reader inner nested).run context state =
      (reader (expression room) (statement room)).run context state := by
  refine (agrees_iff.mp (keeps.same.reader composed ?_ ?_ before rfl)).symm
  · rintro power here _ before rfl
    exact agrees_iff.mpr (innerSame power here before).symm
  · rintro here _ before rfl
    exact agrees_iff.mpr (nestedSame here before).symm

theorem whileToken_congr {again : Terminal → Bool} {body body' : α → ParseM α}
    (round : ∀ value state, holds state → again state.token = true →
      (body' value).run context state = (body value).run context state ∧
        holds ((body value).run context state).2)
    (value : α) (before : holds state) :
    (whileToken again body' value).run context state =
      (whileToken again body value).run context state := by
  have bounded (count : Nat) : ∀ value state, holds state →
      (rounds again body' count value).run context state =
        (rounds again body count value).run context state := by
    induction count with
    | zero => exact fun _ _ _ => rfl
    | succ count ih =>
        intro value state before
        simp only [rounds, run_current_bind, run_ite]
        split
        · rename_i goesOn
          obtain ⟨same, after⟩ := round value state before (Bool.and_eq_true_iff.mp goesOn).2
          rw [run_bind, run_bind, same]
          exact ih _ _ after
        · rfl
  exact bounded state.remaining value state before

end

section

variable (grammar : context.grammar = Grammar.standard) (lexical : ∀ token ∈ tokens, token.Lexical)
  (missing : Terminal → Expr → ParseM Expr)

include grammar lexical

theorem foldOr_run {inner : Nat → ParseM Expr} {room power : Nat}
    (innerSame : ∀ power state, Visited context tokens state →
      (inner power).run context state = (expression room power).run context state)
    (left : Expr) (visited : Visited context tokens state) (binds : power < state.token.denotations.power) :
    (foldOr missing inner left).run context state = (fold (expression room) left).run context state := by
  have known := (visited.understood grammar lexical).lookahead.inStep grammar
  obtain ⟨form, operator⟩ := Option.isSome_iff_exists.mp (known.folds (Nat.zero_lt_of_lt binds))
  simp only [foldOr, fold, run_bind, advance_value, operator]
  exact (Composed.operatorForm state.token left form).run_congr visited_kept innerSame
    (fun _ _ => rfl) visited.advance

theorem or_run (room : Nat) :
    (∀ power state, Visited context tokens state →
        (expressionOr missing room power).run context state = (expression room power).run context state) ∧
      ∀ state, Visited context tokens state →
        (statementOr missing room).run context state = (statement room).run context state := by
  induction room with
  | zero => exact ⟨fun _ _ _ => rfl, fun _ _ => rfl⟩
  | succ room ih =>
      obtain ⟨inside, nested⟩ := ih
      have keeps := @visited_kept context tokens
      constructor
      · intro power state visited
        have entered := keeps.enter visited
        have first := Composed.operand.run_congr keeps inside nested entered
        have after := keeps.reader Composed.operand room entered
        have loop := @whileToken_congr _ context _ _ (power < ·.denotations.power)
          (fold (expression room)) (foldOr missing (expressionOr missing room))
          (fun left state visited binds =>
            ⟨foldOr_run grammar lexical missing inside left visited (of_decide_eq_true binds),
              keeps.reader (Composed.fold left) room visited⟩)
          ((operand (expression room)).run context (enter.run context state).2).1 after
        simp only [expressionOr, expression, run_bind]
        rw [first, loop]
      · intro state visited
        have body := Composed.statementBody.run_congr keeps inside nested (keeps.enter visited)
        simp only [statementOr, statement, run_bind]
        rw [body]

end

end ParseM

namespace Document

open ParseM

theorem problem_ne_unknownOperator (options : Options) (source : String) {diagnostic : Diagnostic}
    (member : diagnostic ∈ (parse Grammar.standard options source).diagnostics) (text : String) :
    diagnostic.problem ≠ .unknownOperator text := by
  intro unknown
  rw [diagnostics_parse, List.mem_append] at member
  rcases member with own | name
  · have passes := run_passes Grammar.standard options source
    have lexical : diagnostic ∈ Diagnostics.lexical (run Grammar.standard options source).2.diagnostics :=
      List.mem_filter.mpr ⟨own, by rw [unknown]; rfl⟩
    rw [passes.lexical] at lexical
    obtain ⟨token, found, complaint⟩ := List.mem_flatMap.mp lexical
    exact Token.complaints_known (tokens_lexical source token found) complaint text unknown
  · split at name
    · obtain ⟨occurrence, _, rfl⟩ := List.mem_map.mp name
      exact absurd unknown (by simp [Occurrence.undefined])
    · exact absurd name List.not_mem_nil

/-- Lexical rules, grammar and scopes stay in step. Wherever reading comes to, the lookahead and whatever is
bound in any scope can be folded if it binds, a name has its text for an id or the id of undefined names, and
an operator has its text. So no operator is unknown, and what an expression does with something that binds and
is no operator makes no difference: it never comes to it. -/
theorem parse_operators (options : Options) (source : String) :
    let here := context Grammar.standard options source
    (∀ state, Visited here (tokens source) state →
        state.token.InStep ∧ state.scopes.All (·.denotations.Folds)) ∧
      (∀ (α : Type) (reader : Open α), Composed (Seen here (tokens source)) none reader →
        ∀ room state, Visited here (tokens source) state →
          Visited here (tokens source) ((reader (expression room) (statement room)).run here state).2) ∧
      Visited here (tokens source) (run Grammar.standard options source).2 ∧
      (∀ diagnostic ∈ (parse Grammar.standard options source).diagnostics,
        ∀ text, diagnostic.problem ≠ .unknownOperator text) ∧
      (∀ room, statementOr reportMissing room = statement room) ∧
      ∀ missing, (ParseM.statements (statementOr missing options.maxDepth)).run here
        (start Grammar.standard options source) = run Grammar.standard options source := by
  intro here
  have lexical := tokens_lexical source
  have keeps := @visited_kept here (tokens source)
  refine ⟨fun state visited => ⟨?_, visited.bindings rfl lexical⟩,
    fun α reader composed room state visited => keeps.reader composed room visited, ?_,
    fun diagnostic member => problem_ne_unknownOperator options source member, statementOr_reportMissing,
    fun missing => ?_⟩
  · exact (visited.understood rfl lexical).lookahead.inStep rfl
  · exact keeps.reader .statements options.maxDepth .start
  · obtain ⟨inside, nested⟩ := @or_run here (tokens source) rfl lexical missing options.maxDepth
    exact Composed.statements.run_congr keeps inside nested .start

end Document

end Adventure
