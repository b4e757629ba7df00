import Adventure.Parse.Statement
import Adventure.Proofs.Tracing

/-!
What a terminal was made from, told by its id or by what it does. A name may have been bound to anything;
but only the symbol of the grammar starts a statement, stands between operands or opens one.
-/

namespace Adventure

open Word

def StatementForm.startsWith (text : String) : StatementForm → Bool
  | .block => text == "\x7b"
  | .verb => text == "verb"
  | .classDefinition => text == "class"
  | .returning => text == "return"
  | .guarded | .bare => isNameText text
  | .doWhile => text == "do"
  | .ifElse => text == "if"
  | .forLoop => text == "for"
  | .caseLabel => text == "case"
  | .declaration valueType => text == valueType.keyword

def OperandForm.startsWith (text : String) : OperandForm → Bool
  | .itself => false
  | .undefinedName => text == "(name)"
  | .literal => text == "(literal)"
  | .constant => text == "NULL"
  | .thisObject => text == "this"
  | .superObject => text == "super"
  | .unaryOperator => Token.operators.contains text
  | .group => text == "("

def OperatorForm.startsWith (text : String) : OperatorForm → Bool
  | .ternary => text == "?"
  | .member => text == "."
  | .index => text == "["
  | .call => text == "("
  | _ => Token.operators.contains text

namespace Grammar

theorem startsWith_of_operator? (text : String) :
    (standard.denotations text).operator?.all (·.startsWith text) = true :=
  @denotations_induction standard (fun id made => made.operator?.all (·.startsWith id) = true)
    (by simp) (by decide +kernel) text

theorem startsWith_of_statement? (text : String) :
    (standard.denotations text).statement?.all (·.startsWith text) = true :=
  @denotations_induction standard (fun id made => made.statement?.all (·.startsWith id) = true)
    (by simp) (by decide +kernel) text

theorem startsWith_of_operand? (text : String) :
    (standard.denotations text).operand?.all (·.startsWith text) = true :=
  @denotations_induction standard (fun id made => made.operand?.all (·.startsWith id) = true)
    (by simp) (by decide +kernel) text

theorem denotations_end : standard.denotations "(end)" = {} := by decide +kernel

theorem denotations_literal : standard.denotations "(literal)" = { operand? := some .literal } := by
  decide +kernel

end Grammar

open Grammar (denotations_end denotations_literal)

theorem OperatorForm.startsWith_operators {text : String} {form : OperatorForm}
    (starts : form.startsWith text = true) : text ∈ Token.operators := by
  have punctuation : "?" ∈ Token.operators ∧ "." ∈ Token.operators ∧ "[" ∈ Token.operators ∧
      "(" ∈ Token.operators := by decide
  cases form <;> simp_all [startsWith]

theorem Word.isNameText_operators : ∀ text ∈ Token.operators, isNameText text = false := by
  decide +kernel

theorem Token.not_mem_operators :
    "(end)" ∉ operators ∧ "(literal)" ∉ operators ∧ "(name)" ∉ operators := by
  decide

/-- Where a terminal of a legible text comes from. -/
inductive Terminal.Source (terminal : Terminal) : Prop
  | finish (origin : terminal.origin = none) (id : terminal.id = "(end)")
      (denotations : terminal.denotations = Grammar.standard.denotations "(end)")
  | name (origin : terminal.origin = some .name) (text : isNameText terminal.text = true)
      (words : terminal.words = [Word.name terminal.text])
      (id : terminal.id = (Word.name terminal.text).id)
      (denotations : terminal.denotations = (Word.name terminal.text).denotations ∨
        terminal.denotations = Denotations.identifier)
  | literal {kind : TokenKind} (origin : terminal.origin = some kind)
      (literal : kind = .integer ∨ kind = .string) (solid : isSolid ⟨kind, terminal.text⟩ = true)
      (words : terminal.words = [⟨kind, terminal.text⟩]) (id : terminal.id = "(literal)")
      (denotations : terminal.denotations = Grammar.standard.denotations "(literal)")
  | mark (origin : terminal.origin = some .operator) (operator : terminal.text ∈ Token.operators)
      (words : terminal.words = [Word.mark terminal.text]) (id : terminal.id = terminal.text)
      (denotations : terminal.denotations = Grammar.standard.denotations terminal.text)

namespace ParseM

variable {context : Context} {tokens : List Token} {terminal : Terminal}

theorem Known.source (known : Known context tokens terminal)
    (grammar : context.grammar = Grammar.standard) (lexical : ∀ token ∈ tokens, token.Lexical)
    (legible : ∀ token ∈ tokens, token.complaints Grammar.standard = []) : terminal.Source := by
  rcases known with rfl | ⟨token, member, _, means⟩
  · refine .finish rfl rfl ?_
    simp only [endTerminal, grammar]
    rfl
  · have words := means.words
    have significant := means.significant
    have lexeme := lexical token member
    obtain ⟨origin, text, id, denotations, _, valid⟩ := means
    have same : token.text = terminal.text := text.symm
    have word : token.word = ⟨token.kind, terminal.text⟩ := by rw [Token.word, same]
    rw [word] at words id denotations origin significant
    cases kind : token.kind with
    | comment | whitespace | directive => simp [kind, TokenKind.isTrivia] at significant
    | invalid => exact absurd kind valid
    | name =>
        rw [kind] at words id denotations origin
        exact .name origin (same ▸ lexeme.name_iff.mpr kind) words id (denotations.imp_right (·.2))
    | operator =>
        rw [kind] at words id denotations origin
        rcases denotations with denotations | ⟨other, _⟩
        · exact .mark origin (same ▸ lexeme.operator kind) words id denotations
        · cases other
    | integer =>
        rw [kind] at words id denotations origin
        rcases denotations with denotations | ⟨other, _⟩
        · exact .literal origin (.inl rfl) (same ▸ lexeme.integer kind) words id denotations
        · cases other
    | string =>
        have closed : token.isClosedString = true := by
          simpa [Token.complaints, kind] using legible token member
        rw [kind] at words id denotations origin
        rcases denotations with denotations | ⟨other, _⟩
        · exact .literal origin (.inr rfl) (same ▸ lexeme.string kind closed) words id denotations
        · cases other

end ParseM

namespace Terminal.Source

variable {terminal : Terminal} {text : String}

theorem names (source : terminal.Source) (named : terminal.isName = true) :
    terminal.head.Names ∧ terminal.words = [Word.name terminal.text] := by
  rw [Terminal.isName, beq_iff_eq] at named
  cases source with
  | name _ _ words id => exact ⟨⟨id, rfl⟩, words⟩
  | finish origin | mark origin => simp [origin] at named
  | literal origin literal =>
      rw [origin, Option.some.injEq] at named
      subst named
      simp at literal

theorem isCloser_of_isName (source : terminal.Source) (named : terminal.isName = true) :
    terminal.isCloser = false := by
  have closers : ∀ id ∈ [";", ")", "]", "\x7d", ",", ":"],
      isNameText id = false ∧ id ≠ "(name)" := by decide
  obtain ⟨names, _⟩ := source.names named
  rw [Terminal.isName, beq_iff_eq] at named
  simp only [Terminal.isCloser, Terminal.isEnd, named, Option.isNone_some, Bool.false_or]
  cases closes : [";", ")", "]", "\x7d", ",", ":"].contains terminal.id with
  | false => rfl
  | true =>
      obtain ⟨unnamed, other⟩ := closers terminal.id (by simpa using closes)
      cases source with
      | name _ text _ id =>
          rw [id_name] at id
          split at id
          · exact absurd id other
          · simp [id, text] at unnamed
      | finish origin | mark origin => simp [origin] at named
      | literal origin literal =>
          rw [origin, Option.some.injEq] at named
          subst named
          simp at literal

theorem id_of_mark (source : terminal.Source) (words : terminal.words = [Word.mark text]) :
    terminal.id = text := by
  cases source with
  | finish origin => simp [Terminal.words, Terminal.token?, origin, Token.words] at words
  | name _ _ own => simp [own, Word.name, Word.mark] at words
  | literal _ literal _ own =>
      simp only [own, Word.mark, List.cons.injEq, Word.mk.injEq, and_true] at words
      rcases literal with rfl | rfl <;> simp at words
  | mark _ _ own id =>
      simp only [own, Word.mark, List.cons.injEq, Word.mk.injEq, true_and, and_true] at words
      exact id.trans words

theorem mark_of_id (source : terminal.Source) (id : terminal.id = text)
    (operator : text ∈ Token.operators) :
    terminal.head.Spells text ∧ terminal.words = [Word.mark text] := by
  subst id
  have other := Token.not_mem_operators
  cases source with
  | finish _ id => exact absurd (id ▸ operator) other.1
  | literal _ _ _ _ id => exact absurd (id ▸ operator) other.2.1
  | mark _ _ words id => exact ⟨⟨rfl, id.symm, rfl⟩, id ▸ words⟩
  | name _ text _ id =>
      rw [id_name] at id
      split at id
      · exact absurd (id ▸ operator) other.2.2
      · simp [isNameText_operators _ (id ▸ operator)] at text

theorem name_of_id (source : terminal.Source) (id : terminal.id = text)
    (name : isNameText text = true) :
    terminal.head.Spells text ∧ terminal.words = [Word.name text] := by
  subst id
  have other : isNameText "(end)" = false ∧ isNameText "(literal)" = false ∧
      isNameText "(name)" = false := by decide
  cases source with
  | finish _ id => simp [id, other.1] at name
  | literal _ _ _ _ id => simp [id, other.2.1] at name
  | mark _ operator _ id => simp [id, isNameText_operators _ operator] at name
  | name _ text words id =>
      rw [id_name] at id
      split at id
      · simp [id, other.2.2] at name
      · exact ⟨⟨rfl, id.symm, rfl⟩, id ▸ words⟩

theorem of_grammar (source : terminal.Source)
    (finish : terminal.denotations ≠ Grammar.standard.denotations "(end)")
    (literal : terminal.denotations ≠ Grammar.standard.denotations "(literal)")
    (bound : terminal.denotations ≠ Denotations.identifier)
    (free : terminal.denotations ≠ Grammar.undefinedName.denotations) :
    terminal.denotations = Grammar.standard.denotations terminal.id := by
  cases source with
  | finish _ _ denotations => exact absurd denotations finish
  | literal _ _ _ _ _ denotations => exact absurd denotations literal
  | mark _ _ _ id denotations => rw [id, denotations]
  | name _ _ _ id denotations =>
      rcases denotations with denotations | denotations
      · rw [denotations_name] at denotations
        rw [id_name] at id
        split at denotations
        · exact absurd denotations free
        · rename_i used
          rw [id, if_neg used, denotations]
      · exact absurd denotations bound

theorem operator (source : terminal.Source) {form : OperatorForm}
    (acts : terminal.denotations.operator? = some form) : form.startsWith terminal.id = true ∧
      (Grammar.standard.denotations terminal.id).operator? = some form := by
  have own (idle : Denotations) (nothing : idle.operator? = none) : terminal.denotations ≠ idle := by
    rintro rfl
    simp [nothing] at acts
  have same := source.of_grammar (own _ (by rw [denotations_end])) (own _ (by rw [denotations_literal]))
    (own _ rfl) (own _ rfl)
  rw [same] at acts
  have starts := Grammar.startsWith_of_operator? terminal.id
  rw [acts] at starts
  exact ⟨starts, acts⟩

theorem statement (source : terminal.Source) {form : StatementForm}
    (acts : terminal.denotations.statement? = some form) :
    form.startsWith terminal.id = true ∧
      (Grammar.standard.denotations terminal.id).statement? = some form := by
  have own (idle : Denotations) (nothing : idle.statement? = none) : terminal.denotations ≠ idle := by
    rintro rfl
    simp [nothing] at acts
  have same := source.of_grammar (own _ (by rw [denotations_end])) (own _ (by rw [denotations_literal]))
    (own _ rfl) (own _ rfl)
  rw [same] at acts
  have starts := Grammar.startsWith_of_statement? terminal.id
  rw [acts] at starts
  exact ⟨starts, acts⟩

theorem operand (source : terminal.Source) {form : OperandForm}
    (acts : terminal.denotations.operand? = some form) (bound : form ≠ .itself)
    (free : form ≠ .undefinedName) (literal : form ≠ .literal) :
    form.startsWith terminal.id = true ∧
      (Grammar.standard.denotations terminal.id).operand? = some form := by
  have own (others : Denotations) (other : others.operand? ≠ some form) :
      terminal.denotations ≠ others := by
    rintro rfl
    exact other acts
  have same := source.of_grammar (own _ (by simp [denotations_end]))
    (own _ (by simp [denotations_literal, literal.symm]))
    (own _ (by simpa [Denotations.identifier] using bound.symm))
    (own _ (by simpa [Grammar.undefinedName] using free.symm))
  rw [same] at acts
  have starts := Grammar.startsWith_of_operand? terminal.id
  rw [acts] at starts
  exact ⟨starts, acts⟩

theorem isName_of_operand (source : terminal.Source)
    (acts : terminal.denotations.operand? = some .itself ∨
      terminal.denotations.operand? = some .undefinedName) : terminal.isName = true := by
  cases source with
  | name origin => simp [Terminal.isName, origin]
  | finish _ _ denotations =>
      simp [denotations, denotations_end] at acts
  | literal _ _ _ _ _ denotations =>
      simp [denotations, denotations_literal] at acts
  | mark _ operator _ _ denotations =>
      have starts := Grammar.startsWith_of_operand? terminal.text
      rw [← denotations] at starts
      rcases acts with acts | acts
      · simp [acts, OperandForm.startsWith] at starts
      · rw [acts] at starts
        have same : terminal.text = "(name)" := by simpa [OperandForm.startsWith] using starts
        exact absurd (same ▸ operator) Token.not_mem_operators.2.2

theorem literal_of_operand (source : terminal.Source)
    (acts : terminal.denotations.operand? = some .literal) :
    ∃ word, terminal.words = [word] ∧ (terminal.atom .literal).Spelled word := by
  have starts := Grammar.startsWith_of_operand? terminal.text
  have unnamed : isNameText "(literal)" = false := by decide
  cases source with
  | literal _ literal solid words id => exact ⟨_, words, .literal id rfl literal solid⟩
  | finish _ _ denotations =>
      simp [denotations, denotations_end] at acts
  | mark _ operator _ _ denotations =>
      rw [← denotations, acts] at starts
      have same : terminal.text = "(literal)" := by simpa [OperandForm.startsWith] using starts
      exact absurd (same ▸ operator) Token.not_mem_operators.2.1
  | name _ text _ _ denotations =>
      rcases denotations with denotations | denotations
      · rw [denotations_name] at denotations
        split at denotations
        · simp [denotations, Grammar.undefinedName] at acts
        · rw [← denotations, acts] at starts
          have same : terminal.text = "(literal)" := by simpa [OperandForm.startsWith] using starts
          simp [same, unnamed] at text
      · simp [denotations, Denotations.identifier] at acts

theorem taken (source : terminal.Source) (opens : terminal.isCloser = false) :
    (ParseM.atomOf terminal).Taken terminal.words := by
  simp only [Terminal.isCloser, Terminal.isEnd, Bool.or_eq_false_iff] at opens
  cases source with
  | finish origin => simp [origin] at opens
  | name origin _ words id =>
      have made : ParseM.atomOf terminal = terminal.atom .name := by
        simp [ParseM.atomOf, arity?, origin]
      rw [made, words]
      exact .name ⟨id, rfl⟩
  | literal origin literal solid words id =>
      have made : ParseM.atomOf terminal = terminal.atom .literal := by
        rcases literal with rfl | rfl <;> simp [ParseM.atomOf, arity?, origin]
      rw [made, words]
      exact .literal id rfl literal solid
  | mark origin _ words id =>
      have made : ParseM.atomOf terminal = terminal.atom .invalid := by
        simp [ParseM.atomOf, arity?, origin]
      rw [made, words]
      exact .mark ⟨id, rfl, rfl⟩ (id ▸ opens.2)

theorem taken_string (source : terminal.Source) (origin : terminal.origin = some .string) :
    terminal.isCloser = false ∧ ParseM.atomOf terminal = terminal.atom .literal ∧
      terminal.id = "(literal)" ∧ terminal.words = [⟨.string, terminal.text⟩] := by
  cases source with
  | literal origin' _ _ words id =>
      obtain rfl := Option.some.inj (origin.symm.trans origin')
      refine ⟨?_, ?_, id, words⟩
      · simp [Terminal.isCloser, Terminal.isEnd, origin, id]
      · simp [ParseM.atomOf, arity?, origin]
  | finish other | name other | mark other => simp [origin] at other

end Terminal.Source

namespace ParseM

variable {α : Type} {context : Context} {tokens : List Token} {action : ParseM α}
  {spells : α → List Word → Prop}

theorem Traces.headed {token : Terminal} (traces : Traces context tokens (some token) action spells)
    (source : token.Source) : Traces context tokens (some token) action fun value words =>
      spells value words ∧ ∀ word ∈ words.head?, token.words = [word] where
  sound := traces.sound
  faulty := traces.faulty
  spelled {state} sound same clean := by
    obtain ⟨words, split, spelled⟩ := traces.spelled sound same clean
    refine ⟨words, split, spelled, fun word head => ?_⟩
    obtain ⟨others, rfl⟩ := List.head?_eq_some_iff.mp head
    have ahead : state.words = state.token.words ++ Token.words state.pending :=
      Token.words_append _ _
    rw [same token rfl] at ahead
    have first : (token.words ++ Token.words state.pending).head? = some word := by
      rw [← ahead, split]
      rfl
    cases source with
    | name _ _ own | literal _ _ _ own | mark _ _ own =>
        rw [own] at first ⊢
        simpa using first
    | finish origin =>
        have ended : state.token.isEnd = true := by
          rw [same token rfl, Terminal.isEnd, origin]
          rfl
        have nothing := (sound.1.ended ended).2
        simp [Terminal.words, Terminal.token?, origin, nothing, Token.words] at first

end ParseM

end Adventure
