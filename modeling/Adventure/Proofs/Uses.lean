import Adventure.Proofs.Freshness
import Adventure.Proofs.Independence
import Adventure.Proofs.Agreement
import Adventure.Proofs.Undefined

/-!
Uses of names. Reading can be watched: whenever it takes a name for an operand, a superclass or the action
of a verb, the watch notes that name, whatever reading notes itself. Watched reading is the same but for the
notes, and what only the watch noted was bound where it stands, or is a symbol of the grammar. So no
undefined name goes unreported.
-/

namespace Adventure

theorem Grammar.isNameText_of_group {id : String}
    (acts : (standard.denotations id).operand? = some .group) : Word.isNameText id = false := by
  have every := @denotations_induction standard
    (fun id denotations => denotations.operand? = some .group → Word.isNameText id = false)
    (fun _ acts => by cases acts) (by decide +kernel)
  exact every id acts

namespace ParseM

variable {α β γ : Type} {context : Context} {tokens : List Token} {state here there : ParseState}

/-! Watched reading. -/

/-- What `reader` reads; the name in front is noted in addition, if that is what `takes` finds it took. -/
def watched (takes : α → Bool) (reader : ParseM α) : ParseM α := do
  let token ← current
  let value ← reader
  if token.isName && takes value then do
    noteOccurrence token
    return value
  else
    return value

def watchedOperand (inner : Nat → ParseM Expr) : ParseM Expr := watched Expr.isName (operand inner)

def watchedAction : ParseM Atom := watched (·.kind == .name) takeAction

def watchedSuperclass : ParseM (Option Atom) := do
  let token ← current
  if token.id = ":" then do
    skip
    watched Option.isSome superclassName
  else
    return none

def around (first : ParseM β) (part : ParseM γ) (last : β → γ → ParseM α) : ParseM α := do
  let start ← first
  let value ← part
  last start value

def verbStart : ParseM (Terminal × Atom) := do
  let terminal ← takeKeyword
  let _ ← expect "("
  checkWord
  let word ← takeAtom
  let _ ← expect ","
  return (terminal, word)

def verbEnd (start : Terminal × Atom) (action : Atom) : ParseM (Option Stmt) := do
  let _ ← expect ","
  checkFlags
  let flags ← takeAtom
  let _ ← expect ")"
  expectSemicolon
  return some (.verb start.1.head start.2 action flags)

def classStart : ParseM (Bool × Terminal) := do
  let terminal ← takeKeyword
  let isAbstract ← abstractModifier
  let name ← className terminal
  return (isAbstract, name)

def classEnd (nested : ParseM (Option Stmt)) (start : Bool × Terminal) (superclass? : Option Atom) :
    ParseM (Option Stmt) := do
  let body ← block nested
  return some (.classDefinition start.2.head start.1 superclass? body)

def watchedStatementBody (inner : Nat → ParseM Expr) (nested : ParseM (Option Stmt)) :
    ParseM (Option Stmt) := do
  let token ← current
  if token.denotations.statement? = some .verb then around verbStart watchedAction verbEnd
  else if token.denotations.statement? = some .classDefinition then
    around classStart watchedSuperclass (classEnd nested)
  else statementBody inner nested

def watchedExpression : Nat → Nat → ParseM Expr
  | 0, power => expression 0 power
  | room + 1, power => entering do
      let left ← watchedOperand (watchedExpression room)
      whileToken (power < ·.denotations.power) (fold (watchedExpression room)) left

def watchedStatement : Nat → ParseM (Option Stmt)
  | 0 => statement 0
  | room + 1 => entering (watchedStatementBody (watchedExpression room) (watchedStatement room))

theorem statementBody_formed {inner : Nat → ParseM Expr} {nested : ParseM (Option Stmt)}
    {form : StatementForm} (acts : state.token.denotations.statement? = some form) :
    (statementBody inner nested).run context state =
      (takeKeyword >>= fun terminal => statementForm inner nested terminal form >>=
        fun result => pure (some result)).run context state := by
  simp only [statementBody, run_current_bind, acts, formedStatement_eq, bind_assoc]

theorem statementBody_verb {inner : Nat → ParseM Expr} {nested : ParseM (Option Stmt)}
    (acts : state.token.denotations.statement? = some .verb) :
    (statementBody inner nested).run context state =
      (around verbStart takeAction verbEnd).run context state := by
  rw [statementBody_formed acts]
  simp only [statementForm, Composed.verb_eq, around, verbStart, verbEnd, bind_assoc, pure_bind]

theorem statementBody_class {inner : Nat → ParseM Expr} {nested : ParseM (Option Stmt)}
    (acts : state.token.denotations.statement? = some .classDefinition) :
    (statementBody inner nested).run context state =
      (around classStart superclass (classEnd nested)).run context state := by
  rw [statementBody_formed acts]
  simp only [statementForm, classDefinition, around, classStart, classEnd, bind_assoc, pure_bind]

/-! Notes of the watch. -/

def use (token : Terminal) (state : ParseState) : Occurrence := ⟨token.text, token.span, state.scope⟩

def Meant (scopes : ScopeTree) (use : Occurrence) : Prop :=
  scopes.Binds use.name use.scope ∨ Grammar.standard.get? use.name ≠ none

/-- The use is on record, or the name has a meaning where it was used. -/
def Answered (state : ParseState) (use : Occurrence) : Prop :=
  use ∈ state.occurrences ∨ Meant state.scopes use

def Answers (takes : α → Bool) (token : Terminal) (outcome : α × ParseState) : Prop :=
  token.isName = true → takes outcome.1 = true → Answered outcome.2 (use token outcome.2)

/-- The second state has more notes than the first, all of them answered in the first. -/
structure Overlooks (here there : ParseState) : Prop where
  same : ∃ noted, there = { here with occurrences := noted }
  noted : here.occurrences.Sublist there.occurrences
  answered : ∀ use ∈ there.occurrences, Answered here use

theorem Overlooks.refl (state : ParseState) : Overlooks state state :=
  ⟨⟨state.occurrences, rfl⟩, .refl _, fun _ member => .inl member⟩

theorem Overlooks.token (overlooks : Overlooks here there) : there.token = here.token := by
  obtain ⟨noted, rfl⟩ := overlooks.same
  rfl

theorem noteOccurrence_run (terminal : Terminal) (state : ParseState) :
    (noteOccurrence terminal).run context state =
      ((), { state with
        occurrences := state.occurrences ++ [⟨terminal.text, terminal.span, state.scope⟩] }) := rfl

theorem Overlooks.extends {after after' : ParseState} (overlooks : Overlooks here there)
    (same : after' = { after with occurrences := there.occurrences })
    (occurrences : after.occurrences = here.occurrences)
    (extended : here.scopes.Extends after.scopes) : Overlooks after after' := by
  subst same
  refine ⟨⟨_, rfl⟩, ?_, ?_⟩
  · rw [occurrences]
    exact overlooks.noted
  · intro use member
    rcases overlooks.answered use member with noted | bound | known
    · exact .inl (occurrences ▸ noted)
    · exact .inr (.inl (bound.mono extended))
    · exact .inr (.inr known)

theorem Overlooks.heedless {action : ParseM α} (overlooks : Overlooks here there)
    (heedless : Heedless action)
    (extended : here.scopes.Extends (action.run context here).2.scopes) :
    Agrees Unopened Overlooks (action.run context here) (action.run context there) := by
  obtain ⟨noted, rfl⟩ := overlooks.same
  rw [heedless.with_occurrences context here noted]
  exact .inr ⟨rfl, overlooks.extends rfl (heedless.occurrences context here) extended⟩

theorem Overlooks.note (overlooks : Overlooks here there) (terminal : Terminal) :
    Overlooks ((noteOccurrence terminal).run context here).2
      ((noteOccurrence terminal).run context there).2 := by
  obtain ⟨noted, rfl⟩ := overlooks.same
  rw [noteOccurrence_run, noteOccurrence_run]
  refine ⟨⟨_, rfl⟩, overlooks.noted.append (.refl _), fun use member => ?_⟩
  rcases List.mem_append.mp member with old | new
  · exact (overlooks.answered use old).imp_left (List.mem_append_left _)
  · exact .inl (List.mem_append_right _ new)

theorem Overlooks.overlook (overlooks : Overlooks here there) {terminal : Terminal}
    (answered : Answered here (use terminal here)) :
    Overlooks here ((noteOccurrence terminal).run context there).2 := by
  obtain ⟨noted, rfl⟩ := overlooks.same
  rw [noteOccurrence_run]
  refine ⟨⟨_, rfl⟩, overlooks.noted.trans (List.sublist_append_left _ _), fun use member => ?_⟩
  rcases List.mem_append.mp member with old | new
  · exact overlooks.answered use old
  · rw [List.mem_singleton.mp new]
    exact answered

theorem Overlooks.advance (overlooks : Overlooks here there) :
    Agrees Unopened Overlooks (ParseM.advance.run context here) (ParseM.advance.run context there) := by
  refine overlooks.heedless .advance ?_
  rw [advance_scopes]
  exact .refl _

theorem Overlooks.takeAtom (overlooks : Overlooks here there) :
    Agrees Unopened Overlooks (ParseM.takeAtom.run context here) (ParseM.takeAtom.run context there) := by
  refine overlooks.heedless .takeAtom ?_
  rw [takeAtom_run]
  split
  · exact .refl _
  · rw [advance_scopes]
    exact .refl _

theorem Overlooks.checkAction (overlooks : Overlooks here there) :
    Overlooks (ParseM.checkAction.run context here).2 (ParseM.checkAction.run context there).2 := by
  have noted := @Overlooks.note context _ _ overlooks here.token
  obtain ⟨notes, rfl⟩ := overlooks.same
  simp only [ParseM.checkAction, run_current_bind, run_ite]
  split
  · rw [noteIfUndefined_run, noteIfUndefined_run]
    dsimp only
    split
    · exact noted
    · exact overlooks
  · exact overlooks.extends rfl rfl (.refl _)

theorem Overlooks.takeAction (overlooks : Overlooks here there) :
    Agrees Unopened Overlooks (ParseM.takeAction.run context here)
      (ParseM.takeAction.run context there) :=
  overlooks.checkAction.takeAtom

theorem Overlooks.pushScope (overlooks : Overlooks here there) :
    Agrees Unopened Overlooks (ParseM.pushScope.run context here)
      (ParseM.pushScope.run context there) := by
  refine overlooks.heedless .pushScope ?_
  obtain ⟨events, ran⟩ := @pushScope_run context here
  rw [ran]
  exact ScopeTree.extends_push _ _

theorem Overlooks.popScope (overlooks : Overlooks here there) :
    Agrees Unopened Overlooks (ParseM.popScope.run context here)
      (ParseM.popScope.run context there) := by
  refine overlooks.heedless .popScope ?_
  by_cases root : here.scope = 0
  · simp only [ParseM.popScope, run_get_bind, ScopeTree.pop, root, if_true]
    exact .refl _
  · obtain ⟨events, ran⟩ := @popScope_run context here root
    rw [ran]
    exact .refl _

theorem Overlooks.takeNoted (overlooks : Overlooks here there) :
    Agrees Unopened Overlooks (ParseM.takeNoted.run context here)
      (ParseM.takeNoted.run context there) := by
  rcases @Overlooks.advance context _ _ overlooks with lost | ⟨value, after⟩
  · exact .inl lost
  · simp only [ParseM.takeNoted, run_bind, run_pure, ← value]
    exact .inr ⟨rfl, @Overlooks.note context _ _ after _⟩

theorem uses_simulate (grammar : context.grammar = Grammar.standard)
    (lexical : ∀ token ∈ tokens, token.Lexical) :
    Simulates context context (Known context tokens) (Attentive context tokens) Unopened Overlooks where
  keeps := attentive_kept grammar lexical
  lasting := (attentive_kept grammar lexical).and unopened_kept
  lookahead overlooks := overlooks.token
  plain plain _ overlooks := overlooks.heedless (.plain plain) (plain.extends _).2.2
  take _ overlooks := overlooks.advance
  takeNoted _ _ overlooks := overlooks.takeNoted
  takeAction _ overlooks := overlooks.takeAction
  push _ overlooks := overlooks.pushScope
  pop _ _ overlooks := overlooks.popScope

theorem Composed.takeKeyword {known : Terminal → Prop} : Composed known none fun _ _ => takeKeyword := by
  unfold ParseM.takeKeyword
  exact .take fun _ holds => .bind (.step (.log rfl)) fun _ => .bind (.step (.reserve holds)) fun _ =>
    .value _

theorem Composed.verbStart {known : Terminal → Prop} : Composed known none fun _ _ => verbStart := by
  unfold ParseM.verbStart
  exact .bind takeKeyword fun _ => .bind (expect _) fun _ => .bind checkWord fun _ =>
    .bind takeAtom fun _ => .bind (expect _) fun _ => .value _

theorem Composed.verbEnd {known : Terminal → Prop} (start : Terminal × Atom) (action : Atom) :
    Composed known none fun _ _ => verbEnd start action := by
  unfold ParseM.verbEnd
  exact .bind (expect _) fun _ => .bind checkFlags fun _ => .bind takeAtom fun _ =>
    .bind (expect _) fun _ => .bind expectSemicolon fun _ => .value _

theorem Composed.classStart {known : Terminal → Prop} : Composed known none fun _ _ => classStart := by
  unfold ParseM.classStart
  exact .bind takeKeyword fun _ => .bind abstractModifier fun _ => .bind (className _) fun _ => .value _

theorem Composed.classEnd {known : Terminal → Prop} (start : Bool × Terminal)
    (superclass? : Option Atom) : Composed known none fun _ nested => classEnd nested start superclass? :=
  .bind block fun _ => .value _

/-! What reading takes for a name it answers for. -/

theorem Known.operand?_ne_group {terminal : Terminal} (known : Known context tokens terminal)
    (lexical : ∀ token ∈ tokens, token.Lexical) (named : terminal.isName = true) :
    terminal.denotations.operand? ≠ some .group := by
  intro group
  have text := (known.isNameText_iff lexical).mpr named
  rcases (known.id named).2 with same | same
  · rw [same, Word.denotations_name] at group
    split at group
    · cases group
    · rw [Grammar.isNameText_of_group group] at text
      cases text
  · rw [same] at group
    cases group

theorem operand_answers (lexical : ∀ token ∈ tokens, token.Lexical)
    (attentive : Attentive context tokens here) (inner : Nat → ParseM Expr) :
    Unopened ((operand inner).run context here).2 ∨
      Answers Expr.isName here.token ((operand inner).run context here) := by
  cases acts : here.token.denotations.operand? with
  | none =>
      refine .inr fun _ taken => ?_
      simp only [operand, run_current_bind, acts] at taken
      cases taken
  | some form =>
      have ran : (operand inner).run context here =
          (operandForm inner here.token form).run context (advance.run context here).2 := by
        simp only [operand, run_current_bind, acts]
        rw [run_bind, advance_value]
      rw [ran]
      cases form with
      | itself =>
          rcases attentive.fresh with lost | fresh
          · exact .inl (unopened_kept.take lost)
          · refine .inr fun _ _ => .inr (.inl ?_)
            obtain ⟨terminal, passed, pending, events, moved, _⟩ := @advance_run context here
            rw [moved]
            exact fresh acts
      | undefinedName => exact .inr fun _ _ => .inl (List.mem_append_right _ (List.mem_singleton_self _))
      | group =>
          refine .inr fun named _ => ?_
          exact absurd acts (attentive.understood.lookahead.operand?_ne_group lexical named)
      | literal | constant | thisObject | superObject | unaryOperator =>
          refine .inr fun _ taken => ?_
          cases taken

theorem takeAction_answers (grammar : context.grammar = Grammar.standard) (grounded : Grounded here) :
    Answers (·.kind == .name) here.token (takeAction.run context here) := by
  intro named _
  have meant (found : ¬ (here.scopes.find here.scope here.token.text context.grammar).isUndefined =
      true) : Meant here.scopes (use here.token here) := by
    rw [ScopeTree.find_isUndefined_iff grounded.rooted, grammar] at found
    by_cases known : Grammar.standard.get? here.token.text = none
    · exact .inl (Classical.byContradiction fun unbound => found ⟨unbound, known⟩)
    · exact .inr known
  have checked : Answered (checkAction.run context here).2
      (use here.token (checkAction.run context here).2) := by
    simp only [checkAction, run_current_bind, named, if_true]
    rw [noteIfUndefined_run]
    split
    · exact .inl (List.mem_append_right _ (List.mem_singleton_self _))
    · rename_i found
      exact .inr (meant found)
  simp only [takeAction, run_bind, takeAtom_run]
  split
  · exact checked
  · obtain ⟨terminal, passed, pending, events, moved, _⟩ :=
      @advance_run context (checkAction.run context here).2
    rw [moved]
    exact checked

theorem superclassName_answers : Answers Option.isSome here.token (superclassName.run context here) := by
  intro named _
  simp only [superclassName, run_current_bind, named, if_true]
  simp only [run_bind, noteOccurrence_run, advance_value, run_pure]
  exact .inl (List.mem_append_right _ (List.mem_singleton_self _))

/-- What is answered for may be watched. -/
theorem watched_agrees {takes : α → Bool} {reader reader' : ParseM α} (token : there.token = here.token)
    (answers : Unopened (reader.run context here).2 ∨
      Answers takes here.token (reader.run context here))
    (agrees : Agrees Unopened Overlooks (reader.run context here) (reader'.run context there)) :
    Agrees Unopened Overlooks (reader.run context here) ((watched takes reader').run context there) := by
  rcases answers with lost | answers
  · exact .inl lost
  rcases agrees with lost | ⟨value, after⟩
  · exact .inl lost
  unfold watched
  rw [run_current_bind, token, run_bind, ← value, run_ite]
  split
  · rename_i took
    obtain ⟨named, took⟩ := Bool.and_eq_true_iff.mp took
    exact .inr ⟨rfl, @Overlooks.overlook context _ _ after _ (answers named took)⟩
  · exact .inr ⟨rfl, after⟩

theorem watchedAction_agrees (grammar : context.grammar = Grammar.standard)
    (attentive : Attentive context tokens here) (overlooks : Overlooks here there) :
    Agrees Unopened Overlooks (takeAction.run context here) (watchedAction.run context there) := by
  have answers := takeAction_answers grammar attentive.grounded
  exact watched_agrees overlooks.token (.inr answers) overlooks.takeAction

section

variable (grammar : context.grammar = Grammar.standard)
  (lexical : ∀ token ∈ tokens, token.Lexical) {room : Nat} {inner : Nat → ParseM Expr}
  {nested : ParseM (Option Stmt)}
  (innerAgrees : ∀ power here there, Attentive context tokens here → Overlooks here there →
    Agrees Unopened Overlooks ((expression room power).run context here) ((inner power).run context there))
  (nestedAgrees : ∀ here there, Attentive context tokens here → Overlooks here there →
    Agrees Unopened Overlooks ((statement room).run context here) (nested.run context there))

include grammar lexical innerAgrees nestedAgrees

theorem next_agrees {action action' : ParseM γ} {last : γ → Open α}
    (composed : ∀ value, Composed (Known context tokens) none (last value))
    (kept : Attentive context tokens (action.run context here).2)
    (agrees : Agrees Unopened Overlooks (action.run context here) (action'.run context there)) :
    Agrees Unopened Overlooks
      ((action >>= fun value => last value (expression room) (statement room)).run context here)
      ((action' >>= fun value => last value inner nested).run context there) := by
  have simulates := uses_simulate grammar lexical
  refine agrees.bind (fun lost => ?_) fun overlooks => ?_
  · exact (simulates.lasting.reader (composed _) room ⟨kept, lost⟩).2
  · exact simulates.reader (composed _) innerAgrees nestedAgrees kept overlooks

theorem around_agrees {first : ParseM β} {part part' : ParseM γ} (last : β → γ → Open α)
    (composedFirst : Composed (Known context tokens) none fun _ _ => first)
    (composedPart : Composed (Known context tokens) none fun _ _ => part)
    (composedLast : ∀ start value, Composed (Known context tokens) none (last start value))
    (parts : ∀ here there, Attentive context tokens here → Overlooks here there →
      Agrees Unopened Overlooks (part.run context here) (part'.run context there))
    (attentive : Attentive context tokens here) (overlooks : Overlooks here there) :
    Agrees Unopened Overlooks
      ((around first part fun start value => last start value (expression room) (statement room)).run
        context here)
      ((around first part' fun start value => last start value inner nested).run context there) := by
  have simulates := uses_simulate grammar lexical
  have firsts := simulates.reader composedFirst innerAgrees nestedAgrees attentive overlooks
  have after := simulates.keeps.reader composedFirst room attentive
  have others (start : β) : Composed (Known context tokens) none fun inner nested =>
      part >>= fun value => last start value inner nested := .bind composedPart (composedLast start)
  refine firsts.bind (fun lost => ?_) fun overlooks => ?_
  · exact (simulates.lasting.reader (others _) room ⟨after, lost⟩).2
  · exact next_agrees grammar lexical innerAgrees nestedAgrees (composedLast _)
      (simulates.keeps.reader composedPart room after) (parts _ _ after overlooks)

variable (attentive : Attentive context tokens here) (overlooks : Overlooks here there)

include attentive overlooks

theorem watchedOperand_agrees :
    Agrees Unopened Overlooks ((operand (expression room)).run context here)
      ((watchedOperand inner).run context there) := by
  have simulates := uses_simulate grammar lexical
  exact watched_agrees overlooks.token
    (operand_answers lexical attentive (expression room))
    (simulates.reader .operand innerAgrees nestedAgrees attentive overlooks)

theorem watchedExpressionBody_agrees (power : Nat) :
    Agrees Unopened Overlooks
      ((operand (expression room) >>= fun left =>
        whileToken (power < ·.denotations.power) (fold (expression room)) left).run context here)
      ((watchedOperand inner >>= fun left =>
        whileToken (power < ·.denotations.power) (fold inner) left).run context there) := by
  have operands := watchedOperand_agrees grammar lexical innerAgrees nestedAgrees attentive overlooks
  have after := (uses_simulate grammar lexical).keeps.reader .operand room attentive
  have folds (left : Expr) : Composed (Known context tokens) none fun inner _ =>
      whileToken (power < ·.denotations.power) (fold inner) left := .whileToken _ .fold left
  exact next_agrees grammar lexical innerAgrees nestedAgrees folds after operands

theorem watchedSuperclass_agrees :
    Agrees Unopened Overlooks (superclass.run context here) (watchedSuperclass.run context there) := by
  have simulates := uses_simulate grammar lexical
  have token := overlooks.token
  simp only [superclass, watchedSuperclass, run_current_bind, run_ite, token]
  split
  · have skips := simulates.reader .skip innerAgrees nestedAgrees attentive overlooks
    have after := simulates.keeps.reader .skip room attentive
    refine skips.bind (fun lost => ?_) fun overlooks => ?_
    · exact (simulates.lasting.reader .superclassName room ⟨after, lost⟩).2
    · rw [run_bind]
      exact watched_agrees overlooks.token (.inr superclassName_answers)
        (simulates.reader .superclassName innerAgrees nestedAgrees after overlooks)
  · exact .inr ⟨rfl, overlooks⟩

theorem watchedStatementBody_agrees :
    Agrees Unopened Overlooks ((statementBody (expression room) (statement room)).run context here)
      ((watchedStatementBody inner nested).run context there) := by
  have simulates := uses_simulate grammar lexical
  have token := overlooks.token
  simp only [watchedStatementBody, run_current_bind, run_ite, token]
  split
  · rename_i verb
    rw [statementBody_verb verb]
    exact around_agrees grammar lexical innerAgrees nestedAgrees
      (fun start action _ _ => verbEnd start action) .verbStart .takeAction .verbEnd
      (fun _ _ attentive overlooks => watchedAction_agrees grammar attentive overlooks)
      attentive overlooks
  · split
    · rename_i definition
      rw [statementBody_class definition]
      exact around_agrees grammar lexical innerAgrees nestedAgrees
        (fun start base _ nested => classEnd nested start base) .classStart .superclass .classEnd
        (fun _ _ attentive overlooks =>
          watchedSuperclass_agrees grammar lexical innerAgrees nestedAgrees attentive overlooks)
        attentive overlooks
    · exact simulates.reader .statementBody innerAgrees nestedAgrees attentive overlooks

end

theorem Overlooks.refuse (overlooks : Overlooks here there) :
    Agrees Unopened Overlooks (ParseM.refuse.run context here) (ParseM.refuse.run context there) := by
  have reported : Overlooks (reportDepth.run context here).2 (reportDepth.run context there).2 := by
    obtain ⟨noted, rfl⟩ := overlooks.same
    rw [reportDepth_run, reportDepth_run]
    dsimp only
    split
    · exact overlooks
    · exact overlooks.extends rfl rfl (.refl _)
  have token : (reportDepth.run context there).2.token = (reportDepth.run context here).2.token := by
    obtain ⟨noted, same⟩ := reported.same
    rw [same]
  unfold ParseM.refuse
  rw [run_bind reportDepth, run_bind reportDepth, run_current_bind, run_current_bind, token, run_ite,
    run_ite]
  split
  · exact .inr ⟨rfl, reported⟩
  · rcases @Overlooks.advance context _ _ reported with lost | ⟨value, after⟩
    · exact .inl lost
    · exact .inr ⟨congrArg (·.atom .invalid) value, after⟩

theorem Overlooks.entering {action action' : ParseM α}
    (agrees : Agrees Unopened Overlooks (action.run context (enter.run context here).2)
      (action'.run context (enter.run context there).2)) :
    Agrees Unopened Overlooks ((entering action).run context here)
      ((entering action').run context there) := by
  rcases agrees with lost | ⟨value, after⟩
  · exact .inl lost
  · refine .inr ⟨value, ?_⟩
    rw [entering_run, entering_run]
    generalize (action.run context (enter.run context here).2).2 = final at after
    generalize (action'.run context (enter.run context there).2).2 = final' at after
    obtain ⟨noted, rfl⟩ := after.same
    exact after.extends rfl rfl (.refl _)

theorem Overlooks.enter (overlooks : Overlooks here there) :
    Overlooks (ParseM.enter.run context here).2 (ParseM.enter.run context there).2 := by
  obtain ⟨noted, rfl⟩ := overlooks.same
  exact overlooks.extends rfl rfl (.refl _)

/-- Reading that notes every use is the same as reading, at every level of nesting. -/
theorem watched_levels (grammar : context.grammar = Grammar.standard)
    (lexical : ∀ token ∈ tokens, token.Lexical) (room : Nat) :
    (∀ power here there, Attentive context tokens here → Overlooks here there →
      Agrees Unopened Overlooks ((expression room power).run context here)
        ((watchedExpression room power).run context there)) ∧
      ∀ here there, Attentive context tokens here → Overlooks here there →
        Agrees Unopened Overlooks ((statement room).run context here)
          ((watchedStatement room).run context there) := by
  have keeps := attentive_kept grammar lexical
  induction room with
  | zero =>
      constructor
      · intro power here there _ overlooks
        rcases @Overlooks.refuse context _ _ overlooks with lost | ⟨value, after⟩
        · exact .inl lost
        · exact .inr ⟨congrArg Expr.atom value, after⟩
      · intro here there _ overlooks
        rcases @Overlooks.refuse context _ _ overlooks with lost | ⟨value, after⟩
        · exact .inl lost
        · exact .inr ⟨rfl, after⟩
  | succ room ih =>
      obtain ⟨inside, outside⟩ := ih
      constructor
      · intro power here there attentive overlooks
        exact Overlooks.entering (watchedExpressionBody_agrees grammar lexical inside outside
          (keeps.enter attentive) overlooks.enter power)
      · intro here there attentive overlooks
        exact Overlooks.entering (watchedStatementBody_agrees grammar lexical inside outside
          (keeps.enter attentive) overlooks.enter)

end ParseM

namespace Document

open ParseM

def watch (options : Options) (source : String) : List Stmt × ParseState :=
  (ParseM.statements (watchedStatement options.maxDepth)).run
    (context Grammar.standard options source)
    (ParseState.start (context Grammar.standard options source) (tokens source))

theorem run_overlooks (options : Options) (source : String) :
    Agrees Unopened Overlooks (run Grammar.standard options source) (watch options source) := by
  have lexical := tokens_lexical source
  have simulates := @uses_simulate (context Grammar.standard options source) _ rfl lexical
  have levels := @watched_levels (context Grammar.standard options source) _ rfl lexical options.maxDepth
  have attentive := @start_attentive (context Grammar.standard options source) _ rfl lexical
  rw [run_eq]
  exact simulates.reader .statements levels.1 levels.2 attentive (.refl _)

/-- Every name that is used as an operand, a superclass or the action of a verb, and that nothing in
reach binds in the end, is noted, and reported if names are looked up again. Which names are used is told
by the watch, whether or not reading notes them. -/
theorem parse_uses (options : Options) (source : String)
    (opened : ∀ diagnostic ∈ (parse Grammar.standard options source).diagnostics,
      diagnostic.problem ≠ .expected "\x7b") :
    let document := parse Grammar.standard options source
    let uses := (watch options source).2.occurrences
    (watch options source).1 = document.statements ∧
      (watch options source).2 = { (run Grammar.standard options source).2 with occurrences := uses } ∧
      document.occurrences.Sublist uses ∧
      ∀ use ∈ uses, ¬ document.scopes.Binds use.name use.scope →
        Grammar.standard.get? use.name = none →
          use ∈ document.occurrences ∧
            (options.analyze = true → options.isIntrinsic use.name = false →
              use.undefined ∈ document.diagnostics) := by
  have rooted := (run_introduces options source).standing.grounded.rooted
  have reported := diagnostics_parse Grammar.standard options source
  -- Unless a brace was missing, noting more names changes nothing but the names on record.
  rcases run_overlooks options source with unopened | ⟨value, overlooks⟩
  · obtain ⟨diagnostic, member, problem⟩ := unopened
    refine absurd problem (opened diagnostic ?_)
    rw [reported]
    exact List.mem_append_left _ member
  simp only [parse_statements, parse_scopes, parse_occurrences]
  refine ⟨value.symm, ?_, overlooks.noted, ?_⟩
  · obtain ⟨noted, same⟩ := overlooks.same
    rw [same]
  intro use member unbound unknown
  have noted : use ∈ (run Grammar.standard options source).2.occurrences := by
    rcases overlooks.answered use member with noted | bound | known
    · exact noted
    · exact absurd bound unbound
    · exact absurd unknown known
  refine ⟨noted, fun analyze extrinsic => ?_⟩
  have named : use.undefined ∈ Occurrence.analyze (run Grammar.standard options source).2.scopes
      (run Grammar.standard options source).2.occurrences Grammar.standard options :=
    (Occurrence.mem_analyze rooted).mpr ⟨use, noted, rfl, unbound, unknown, extrinsic⟩
  have warned : use.undefined ∈ (parse Grammar.standard options source).diagnostics.filter
      (·.problem.isUndefined) := by
    rw [filter_isUndefined, if_pos analyze]
    exact named
  exact (List.mem_filter.mp warned).1

/-- A superclass, the action of a verb and an operand that nothing binds, and an operand that is bound. -/
theorem parse_uses_class :
    let options := { Options.default with maxDepth := 4 }
    let source := "class A:B\x7bverb(\"w\",c,0);d=A;\x7d"
    let document := parse Grammar.standard options source
    let base : Occurrence := ⟨"B", ⟨⟨0, 8⟩, ⟨0, 9⟩⟩, 0⟩
    let action : Occurrence := ⟨"c", ⟨⟨0, 19⟩, ⟨0, 20⟩⟩, 1⟩
    let operand : Occurrence := ⟨"d", ⟨⟨0, 24⟩, ⟨0, 25⟩⟩, 1⟩
    let bound : Occurrence := ⟨"A", ⟨⟨0, 26⟩, ⟨0, 27⟩⟩, 1⟩
    (∀ diagnostic ∈ document.diagnostics, diagnostic.problem ≠ .expected "\x7b") ∧
      (watch options source).2.occurrences =
        [base, base, action, action, operand, operand, bound] ∧
      ∀ use ∈ [base, action, operand],
        use ∈ document.occurrences ∧ use.undefined ∈ document.diagnostics := by
  intro options source document base action operand bound
  have opened : document.diagnostics.all (·.problem != .expected "\x7b") = true := by decide +kernel
  have watched : (watch options source).2.occurrences =
      [base, base, action, action, operand, operand, bound] := by decide +kernel
  have undefined : [base, action, operand].all (fun use =>
      ((run Grammar.standard options source).2.scopes.find use.scope use.name
        Grammar.standard).isUndefined && !options.isIntrinsic use.name) = true := by decide +kernel
  have opened : ∀ diagnostic ∈ document.diagnostics, diagnostic.problem ≠ .expected "\x7b" := by
    simpa using opened
  refine ⟨opened, watched, fun use member => ?_⟩
  obtain ⟨undefined, extrinsic⟩ := Bool.and_eq_true_iff.mp (List.all_eq_true.mp undefined use member)
  have rooted := (run_introduces options source).standing.grounded.rooted
  obtain ⟨unbound, unknown⟩ := (ScopeTree.find_isUndefined_iff rooted).mp undefined
  rw [← parse_scopes] at unbound
  have among : use ∈ (watch options source).2.occurrences := by
    rw [watched]
    simp only [List.mem_cons, List.not_mem_nil, or_false] at member ⊢
    grind
  obtain ⟨noted, warned⟩ := (parse_uses options source opened).2.2.2 use among unbound unknown
  exact ⟨noted, warned rfl (by simpa using extrinsic)⟩

end Document

end Adventure
