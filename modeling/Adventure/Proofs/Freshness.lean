import Adventure.Proofs.Reports
import Adventure.Proofs.Standing

/-!
Freshness. What a name was found bound to when it became the lookahead is still in reach when it is
consumed: bindings are never removed, and where a scope closes no name is ahead. Only a function that
lacks the brace before its body closes its scope elsewhere.
-/

namespace Adventure

theorem Grammar.operand?_ne_itself {id : String} {symbol : Symbol}
    (known : standard.get? id = some symbol) : symbol.denotations.operand? ≠ some .itself := by
  have every : ∀ symbol ∈ standard.symbols, symbol.denotations.operand? ≠ some .itself := by decide
  exact every symbol (List.mem_of_find?_eq_some known)

theorem Token.binds_of_meaning? {context : Context} {state : ParseState} {token : Token}
    {terminal : Terminal} (grammar : context.grammar = Grammar.standard)
    (meant : token.meaning? context state = some terminal)
    (itself : terminal.denotations.operand? = some .itself) :
    state.scopes.Binds terminal.text state.scope := by
  unfold meaning? at meant
  cases kind : token.kind with
  | comment | whitespace | directive | invalid => simp [kind] at meant
  | name =>
      simp only [kind, grammar, ScopeTree.find] at meant
      obtain rfl := Option.some.inj meant
      cases found : state.scopes.findWithin token.text state.scopes.size state.scope with
      | some definition => exact ScopeTree.Binds.of_findWithin found
      | none =>
          cases known : Grammar.standard.get? token.text with
          | some symbol =>
              simp only [found, known] at itself
              exact absurd itself (Grammar.operand?_ne_itself known)
          | none =>
              have other : Grammar.standard.undefined.denotations.operand? ≠ some .itself := by decide
              simp only [found, known] at itself
              exact absurd itself other
  | operator =>
      simp only [kind, grammar, Option.map_eq_some_iff] at meant
      obtain ⟨symbol, known, rfl⟩ := meant
      exact absurd itself (Grammar.operand?_ne_itself known)
  | integer | string =>
      have other : (ParseM.literalSymbol Grammar.standard).denotations.operand? ≠ some .itself := by
        decide
      simp only [kind, grammar, Option.some.injEq] at meant
      subst meant
      exact absurd itself other

namespace ParseM

variable {context : Context} {tokens : List Token} {state : ParseState}

def Unopened (state : ParseState) : Prop :=
  ∃ diagnostic ∈ state.diagnostics, diagnostic.problem = .expected "\x7b"

theorem unopened_kept : Keeps context (fun _ => True) Unopened := reported_kept _

/-- A lookahead that stands for itself is bound in the current scope or around it. -/
def Fresh (state : ParseState) : Prop :=
  state.token.denotations.operand? = some .itself → state.scopes.Binds state.token.text state.scope

theorem Fresh.extends {before after : ParseState} (fresh : Fresh before)
    (token : after.token = before.token) (scope : after.scope = before.scope)
    (extended : before.scopes.Extends after.scopes) : Fresh after := by
  intro itself
  rw [token] at itself
  rw [token, scope]
  exact (fresh itself).mono extended

theorem Arrival.binds (grammar : context.grammar = Grammar.standard)
    {passed pending : List Token} {terminal : Terminal}
    (arrival : Arrival context state passed pending terminal)
    (itself : terminal.denotations.operand? = some .itself) :
    state.scopes.Binds terminal.text state.scope := by
  cases arrival with
  | finish =>
      have other : (Grammar.standard.denotations "(end)").operand? ≠ some .itself := by decide
      simp only [endTerminal, grammar] at itself
      exact absurd itself other
  | terminal _ meant => exact Token.binds_of_meaning? grammar meant itself

theorem advance_fresh (grammar : context.grammar = Grammar.standard) (state : ParseState) :
    Fresh (advance.run context state).2 := by
  obtain ⟨terminal, passed, pending, events, ran, _, arrival⟩ := @advance_run context state
  rw [ran]
  exact arrival.binds grammar

theorem start_fresh (grammar : context.grammar = Grammar.standard) (tokens : List Token) :
    Fresh (ParseState.start context tokens) := by
  obtain ⟨terminal, passed, pending, events, start, _, arrival⟩ := @start_eq context tokens
  rw [start]
  exact arrival.binds grammar

theorem Known.not_itself {terminal : Terminal} (known : Known context tokens terminal)
    (grammar : context.grammar = Grammar.standard) (lexical : ∀ token ∈ tokens, token.Lexical)
    (ends : terminal.isEnd = true ∨ terminal.id = "\x7d") :
    terminal.denotations.operand? ≠ some .itself := by
  intro itself
  have named := known.isName_of_operand grammar lexical (.inl itself)
  rcases ends with ended | brace
  · have origin : terminal.origin = some .name := by simpa [Terminal.isName] using named
    simp [Terminal.isEnd, origin] at ended
  · have text := (known.isNameText_iff lexical).mpr named
    have id := (known.id named).1
    rw [brace, Word.id_name] at id
    split at id
    · exact absurd id (by decide)
    · have none : Word.isNameText "\x7d" = false := by decide
      rw [← id, none] at text
      cases text

theorem Plain.extends {α : Type} {known : Terminal → Prop} {action : ParseM α}
    (plain : Plain known action) (state : ParseState) :
    let after := (action.run context state).2
    after.token = state.token ∧ after.scope = state.scope ∧ state.scopes.Extends after.scopes := by
  cases plain with
  | define =>
      rw [define_run]
      exact ⟨rfl, rfl, (ScopeTree.bound_define _ _ _).extended⟩
  | reserve =>
      rw [reserve_run]
      exact ⟨rfl, rfl, (ScopeTree.bound_reserve _ _ _).extended⟩
  | _ => exact ⟨rfl, rfl, .refl _⟩

theorem Alike.fresh {before after : ParseState} (alike : Alike before after) (fresh : Fresh before) :
    Fresh after :=
  fresh.extends alike.token alike.scope (alike.scopes ▸ .refl _)

theorem takeAction_fresh (grammar : context.grammar = Grammar.standard) (fresh : Fresh state) :
    Fresh (takeAction.run context state).2 := by
  have checked := (@checkAction_alike context state).fresh fresh
  unfold takeAction
  rw [run_bind, takeAtom_run]
  split
  · exact checked
  · exact advance_fresh grammar _

theorem refuse_fresh (grammar : context.grammar = Grammar.standard) (fresh : Fresh state) :
    Fresh (refuse.run context state).2 := by
  have reported := (@reportDepth_alike context state).fresh fresh
  rw [refuse_run]
  dsimp only
  split
  · exact reported
  · exact advance_fresh grammar _

theorem pushScope_fresh (fresh : Fresh state) : Fresh (pushScope.run context state).2 := by
  obtain ⟨events, ran⟩ := @pushScope_run context state
  rw [ran]
  intro itself
  have last : (state.scopes.push state.scope).get? state.scopes.size =
      some { parent? := some state.scope } := by simp
  exact .outer last rfl ((fresh itself).mono (ScopeTree.extends_push _ _))

theorem popScope_token (state : ParseState) :
    (popScope.run context state).2.token = state.token := by
  simp only [popScope, run_get_bind]
  cases state.scopes.pop state.scope <;> rfl

structure Attentive (context : Context) (tokens : List Token) (state : ParseState) : Prop where
  understood : Understood context tokens state
  grounded : Grounded state
  fresh : Unopened state ∨ Fresh state

/-- The lookahead stays fresh in whatever is read, unless a body was not opened. -/
theorem attentive_kept (grammar : context.grammar = Grammar.standard)
    (lexical : ∀ token ∈ tokens, token.Lexical) :
    Keeps context (Known context tokens) (Attentive context tokens) := by
  have keeps := (understood_kept grammar lexical).and (@grounded_kept context)
  have unopened := @unopened_kept context
  have base {state : ParseState} (before : Attentive context tokens state) :
      Understood context tokens state ∧ Grounded state := ⟨before.understood, before.grounded⟩
  have joined {before after : ParseState} (attentive : Attentive context tokens before)
      (kept : Understood context tokens after ∧ Grounded after)
      (reported : Unopened before → Unopened after) (fresh : Fresh before → Fresh after) :
      Attentive context tokens after :=
    ⟨kept.1, kept.2, attentive.fresh.imp reported fresh⟩
  exact
    { lookahead := fun before => before.understood.lookahead
      plain := fun {_ _ state} plain before => by
        obtain ⟨token, scope, extended⟩ := @Plain.extends context _ _ _ plain state
        exact joined before (keeps.plain plain (base before))
          (unopened.plain (plain.mono fun _ _ => trivial)) (·.extends token scope extended)
      take := fun before => joined before (keeps.take (base before)) unopened.take
        fun _ => advance_fresh grammar _
      takeNoted := fun named before => joined before (keeps.takeNoted named (base before))
        (unopened.takeNoted named) fun _ => (advance_fresh grammar _).extends rfl rfl (.refl _)
      takeAction := fun before => joined before (keeps.takeAction (base before)) unopened.takeAction
        (takeAction_fresh grammar)
      push := fun before => joined before (keeps.push (base before)) unopened.push pushScope_fresh
      pop := fun {state} closing before => by
        refine ⟨(keeps.pop closing (base before)).1, (keeps.pop closing (base before)).2, ?_⟩
        -- Where a scope closes the lookahead was looked up inside, so it must not be a name.
        have ends : (state.token.isEnd = true ∨ state.token.id = "\x7d") ∨ Unopened state :=
          or_assoc.mpr closing
        rcases ends with ends | unopenedBefore
        · refine .inr fun itself => ?_
          rw [popScope_token] at itself
          exact absurd itself (before.understood.lookahead.not_itself grammar lexical ends)
        · exact .inl (unopened.pop closing unopenedBefore)
      enter := fun before => joined before (keeps.enter (base before)) unopened.enter
        fun fresh => fresh.extends rfl rfl (.refl _)
      leave := fun before => joined before (keeps.leave (base before)) unopened.leave
        fun fresh => fresh.extends rfl rfl (.refl _)
      refuse := fun before => joined before (keeps.refuse (base before)) unopened.refuse
        (refuse_fresh grammar) }

theorem start_attentive (grammar : context.grammar = Grammar.standard)
    (lexical : ∀ token ∈ tokens, token.Lexical) :
    Attentive context tokens (ParseState.start context tokens) :=
  ⟨start_understood grammar lexical, start_grounded tokens, .inr (start_fresh grammar tokens)⟩

end ParseM

end Adventure
