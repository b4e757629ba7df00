import Adventure.Proofs.Invariants
import Adventure.Proofs.Lexemes
import Adventure.Proofs.Reading

/-!
What terminals mean, in any document. However names are bound, the lookahead has the id of its word,
and it does what its word does unless a binding made it a name like others.
-/

namespace Adventure

/-- The terminal was made of the word. A binding may have taken from a name what it does. -/
structure Terminal.Means (terminal : Terminal) (word : Word) : Prop where
  origin : terminal.origin = some word.kind
  text : terminal.text = word.text
  id : terminal.id = word.id
  denotations : terminal.denotations = word.denotations ∨
    (word.kind = .name ∧ terminal.denotations = Denotations.identifier)
  significant : word.kind.isTrivia = false
  valid : word.kind ≠ .invalid

theorem Terminal.Fits.means {terminal : Terminal} {word : Word} (fits : terminal.Fits word)
    (valid : word.kind ≠ .invalid) : terminal.Means word := by
  refine ⟨fits.origin, fits.text, fits.id, ?_, fits.significant, valid⟩
  rcases fits.denotations with same | ⟨free, same⟩
  · exact .inl same
  · simp only [Word.isFree, Bool.and_eq_true, beq_iff_eq] at free
    exact .inr ⟨free.1, same⟩

def Definition.Sound (definition : Definition) : Prop :=
  Word.isNameText definition.name = true →
    definition.id = (Word.name definition.name).id ∧
      (definition.denotations = (Word.name definition.name).denotations ∨
        definition.denotations = Denotations.identifier)

namespace ParseM

variable {α : Type} {context : Context} {tokens : List Token} {state : ParseState}

def Known (context : Context) (tokens : List Token) (terminal : Terminal) : Prop :=
  terminal = endTerminal context ∨
    ∃ token ∈ tokens, terminal.token? = some token ∧ terminal.Means token.word

/-- What holds of every state in the reading of `tokens`. -/
structure Understood (context : Context) (tokens : List Token) (state : ParseState) : Prop where
  bindings : state.scopes.All Definition.Sound
  ended : EndKnown context state
  ahead : state.ahead <:+ tokens
  lookahead : Known context tokens state.token

theorem meaning?_means (grammar : context.grammar = Grammar.standard)
    (bindings : state.scopes.All Definition.Sound) {token : Token} (lexical : token.Lexical)
    {terminal : Terminal} (meant : token.meaning? context state = some terminal) :
    terminal.Means token.word := by
  have unbound (same : token.meaning? context blank = some terminal) : terminal.Means token.word := by
    have regular : Regular context blank := ⟨grammar, ScopeTree.all_start⟩
    refine (regular.meaning?_fits same).means fun invalid => ?_
    have kind : token.kind = .invalid := invalid
    simp [Token.meaning?, kind] at same
  cases kind : token.kind with
  | name =>
      have word : token.word = Word.name token.text := by simp [Token.word, Word.name, kind]
      simp only [Token.meaning?, kind, Option.some.injEq] at meant unbound
      subst meant
      cases found : state.scopes.findWithin token.text state.scopes.size state.scope with
      | none =>
          refine unbound ?_
          have nothing : blank.scopes.findWithin token.text blank.scopes.size blank.scope = none := rfl
          simp only [ScopeTree.find, found, nothing]
      | some definition =>
          have bound : state.scopes.find state.scope token.text context.grammar =
              .defined definition := by simp [ScopeTree.find, found]
          obtain ⟨sound, same⟩ := bindings.found found
          obtain ⟨id, denotations⟩ := sound (by rw [same]; exact lexical.name_iff.mpr kind)
          rw [same, ← word] at id denotations
          rw [bound]
          refine ⟨rfl, rfl, id, ?_, by simp [word, Word.name, TokenKind.isTrivia],
            by simp [word, Word.name]⟩
          exact denotations.imp_right fun same => ⟨kind, same⟩
  | comment | whitespace | directive | invalid | operator | integer | string =>
      refine unbound ?_
      simpa only [Token.meaning?, kind] using meant

theorem Known.isNameText_iff {terminal : Terminal} (known : Known context tokens terminal)
    (lexical : ∀ token ∈ tokens, token.Lexical) :
    Word.isNameText terminal.text = true ↔ terminal.isName = true := by
  rcases known with rfl | ⟨token, member, _, means⟩
  · have text : Word.isNameText "(end)" = false := by decide
    simp [endTerminal, text, Terminal.isName]
  · rw [means.text, Terminal.isName, means.origin]
    simpa [Token.word] using (lexical token member).name_iff

theorem Known.id {terminal : Terminal} (known : Known context tokens terminal)
    (named : terminal.isName = true) : terminal.id = (Word.name terminal.text).id ∧
      (terminal.denotations = (Word.name terminal.text).denotations ∨
        terminal.denotations = Denotations.identifier) := by
  rcases known with rfl | ⟨token, _, _, means⟩
  · simp [endTerminal, Terminal.isName] at named
  · have kind : token.kind = .name := by
      simpa [Terminal.isName, means.origin, Token.word] using named
    have word : token.word = Word.name terminal.text := by
      simp [means.text, Token.word, Word.name, kind]
    rw [← word]
    exact ⟨means.id, means.denotations.imp_right (·.2)⟩

theorem Known.isName_of_operand {terminal : Terminal} (known : Known context tokens terminal)
    (grammar : context.grammar = Grammar.standard) (lexical : ∀ token ∈ tokens, token.Lexical)
    (named : terminal.denotations.operand? = some .itself ∨
      terminal.denotations.operand? = some .undefinedName) : terminal.isName = true := by
  have other : ∀ text ∈ "(end)" :: "(literal)" :: Token.operators,
      ¬ ((Grammar.standard.denotations text).operand? = some .itself ∨
        (Grammar.standard.denotations text).operand? = some .undefinedName) := by decide
  rcases known with rfl | ⟨token, member, _, means⟩
  · simp only [endTerminal, grammar] at named
    exact absurd named (other "(end)" (by simp))
  · have significant := means.significant
    rw [Terminal.isName, means.origin]
    cases kind : token.kind with
    | name => simp [Token.word, kind]
    | comment | whitespace | directive => simp [Token.word, kind, TokenKind.isTrivia] at significant
    | invalid => exact absurd kind means.valid
    | integer | string =>
        have same : terminal.denotations = Grammar.standard.denotations "(literal)" := by
          simpa [Token.word, Word.denotations, kind] using means.denotations
        exact absurd (same ▸ named) (other "(literal)" (by simp))
    | operator =>
        have same : terminal.denotations = Grammar.standard.denotations token.text := by
          simpa [Token.word, Word.denotations, Word.isFree, kind] using means.denotations
        have operator := (lexical token member).operator kind
        exact absurd (same ▸ named) (other token.text (by simp [operator]))

theorem Known.declared {terminal : Terminal} (known : Known context tokens terminal)
    (lexical : ∀ token ∈ tokens, token.Lexical) (arity : Arity) (valueType? : Option ValueType)
    (scope : Nat) : (declared terminal arity valueType? scope).Sound :=
  fun text => ⟨(known.id ((known.isNameText_iff lexical).mp text)).1, .inr rfl⟩

theorem Known.reservation {terminal : Terminal} (known : Known context tokens terminal)
    (named : terminal.isName = true) (scope : Nat) : (ScopeTree.reservation scope terminal).Sound :=
  fun _ => known.id named

theorem Arrival.known (grammar : context.grammar = Grammar.standard)
    (lexical : ∀ token ∈ tokens, token.Lexical) (bindings : state.scopes.All Definition.Sound)
    {passed pending : List Token} {terminal : Terminal}
    (arrival : Arrival context state passed pending terminal)
    (within : ∀ token ∈ passed, token ∈ tokens) : Known context tokens terminal := by
  cases arrival with
  | finish => exact .inl rfl
  | @terminal _ _ token _ _ meant =>
      have member := within token (by simp)
      exact .inr ⟨token, member, Token.meaning?_token? meant,
        meaning?_means grammar bindings (lexical token member) meant⟩

theorem understood_kept (grammar : context.grammar = Grammar.standard)
    (lexical : ∀ token ∈ tokens, token.Lexical) :
    Keeps context (Known context tokens) (Understood context tokens) := by
  have rebound {before after : ParseState} (understood : Understood context tokens before)
      (token : after.token = before.token) (pending : after.pending = before.pending)
      (bindings : after.scopes.All Definition.Sound) : Understood context tokens after := by
    refine ⟨bindings, understood.ended.of_eq token pending, ?_, token ▸ understood.lookahead⟩
    rw [ParseState.ahead, token, pending]
    exact understood.ahead
  refine .of_alike ?_ (·.lookahead) ?_ ?_ ?_ ?_ ?_
  · intro before after alike understood
    exact rebound understood alike.token alike.pending (alike.scopes ▸ understood.bindings)
  · intro state understood
    obtain ⟨terminal, passed, pending, events, ran, split, arrival⟩ := @advance_run context state
    have pendingAhead : state.pending <:+ tokens :=
      (List.suffix_append _ _).trans understood.ahead
    have onward := (@advance_ahead context state).trans pendingAhead
    have within : ∀ token ∈ passed, token ∈ tokens := by
      intro token member
      exact pendingAhead.subset (by simp [split, member])
    have known := arrival.known grammar lexical understood.bindings within
    rw [ran] at onward ⊢
    exact ⟨understood.bindings, arrival.endKnown, onward, known⟩
  · intro terminal arity valueType? state known understood
    rw [define_run]
    exact rebound understood rfl rfl
      (understood.bindings.define _ (known.declared lexical arity valueType? state.scope))
  · intro terminal state known understood
    rw [reserve_run]
    exact rebound understood rfl rfl
      (understood.bindings.reserve _ fun named _ => known.reservation named state.scope)
  · intro state understood
    exact rebound understood rfl rfl (understood.bindings.push state.scope)
  · intro state _ understood
    unfold popScope
    rw [run_get_bind]
    cases popped : state.scopes.pop state.scope with
    | error => exact rebound understood rfl rfl understood.bindings
    | ok scopes => exact rebound understood rfl rfl (understood.bindings.pop popped)

theorem start_understood (grammar : context.grammar = Grammar.standard)
    (lexical : ∀ token ∈ tokens, token.Lexical) :
    Understood context tokens (ParseState.start context tokens) := by
  obtain ⟨terminal, passed, pending, events, start, split, arrival⟩ := @start_eq context tokens
  have known := arrival.known grammar lexical ScopeTree.all_start
    (fun token member => by simp [split, member])
  have ahead := arrival.token?_suffix
  rw [← split] at ahead
  rw [start]
  exact ⟨ScopeTree.all_start, arrival.endKnown, ahead, known⟩

end ParseM

end Adventure
