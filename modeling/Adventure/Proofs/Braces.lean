import Adventure.Proofs.Soundness
import Adventure.Proofs.StatementSurveys

/-!
Braces. While a reader reads, scopes are opened and braces are consumed. As long as nothing is reported that
tells of a word in a wrong place, only what is written between braces takes any, and all else takes none.
-/

namespace Adventure

open Word

structure Braces where
  scopes : Nat
  opened : Nat
  closed : Nat

namespace Braces

def pairs (count : Nat) : Braces := ⟨count, count, count⟩

def scope : Braces := ⟨1, 0, 0⟩

def opening : Braces := ⟨0, 1, 0⟩

def closing : Braces := ⟨0, 0, 1⟩

def none : Braces := pairs 0

instance : Add Braces :=
  ⟨fun first second =>
    ⟨first.scopes + second.scopes, first.opened + second.opened, first.closed + second.closed⟩⟩

def ofWords (words : List Word) : Braces := ⟨0, words.count (mark "\x7b"), words.count (mark "\x7d")⟩

@[simp] theorem ofWords_opening : ofWords [mark "\x7b"] = opening := rfl

@[simp] theorem ofWords_closing : ofWords [mark "\x7d"] = closing := rfl

theorem add_def (first second : Braces) : first + second =
    ⟨first.scopes + second.scopes, first.opened + second.opened, first.closed + second.closed⟩ := rfl

@[simp] theorem none_add (counts : Braces) : none + counts = counts := by
  simp [none, pairs, add_def]

@[simp] theorem add_none (counts : Braces) : counts + none = counts := by
  simp [none, pairs, add_def]

theorem add_assoc (first second third : Braces) : first + second + third = first + (second + third) := by
  simp [add_def, Nat.add_assoc]

theorem pairs_add (first second : Nat) : pairs first + pairs second = pairs (first + second) := rfl

theorem enclosed (count : Nat) : opening + (scope + (pairs count + closing)) = pairs (count + 1) := by
  simp [opening, scope, closing, pairs, add_def, Nat.add_comm]

theorem enclosed_scope (count : Nat) : scope + (opening + (pairs count + closing)) = pairs (count + 1) := by
  simp [opening, scope, closing, pairs, add_def, Nat.add_comm]

end Braces

/-! Words that are no braces. -/

namespace Word

def Unbraced (words : List Word) : Prop := ∀ word ∈ words, word ≠ mark "\x7b" ∧ word ≠ mark "\x7d"

variable {words others : List Word} {word : Word}

instance : Decidable (Unbraced words) :=
  inferInstanceAs (Decidable (∀ word ∈ words, word ≠ mark "\x7b" ∧ word ≠ mark "\x7d"))

theorem Unbraced.counts (unbraced : Unbraced words) : Braces.ofWords words = Braces.none := by
  have opened : words.count (mark "\x7b") = 0 :=
    List.count_eq_zero.mpr fun member => (unbraced _ member).1 rfl
  have closed : words.count (mark "\x7d") = 0 :=
    List.count_eq_zero.mpr fun member => (unbraced _ member).2 rfl
  rw [Braces.ofWords, opened, closed]
  rfl

@[simp] theorem unbraced_nil : Unbraced [] := by
  simp [Unbraced]

@[simp] theorem unbraced_cons :
    Unbraced (word :: words) ↔ (word ≠ mark "\x7b" ∧ word ≠ mark "\x7d") ∧ Unbraced words :=
  List.forall_mem_cons

@[simp] theorem unbraced_append : Unbraced (words ++ others) ↔ Unbraced words ∧ Unbraced others :=
  List.forall_mem_append

theorem unbraced_brackets {opening closing : String} (opens : opening ∉ ["\x7b", "\x7d"])
    (closes : closing ∉ ["\x7b", "\x7d"]) (inside : Unbraced words) :
    Unbraced (brackets opening closing words) := by
  simp_all [brackets, mark]

theorem unbraced_of_kind (other : word.kind ≠ .operator) : word ≠ mark "\x7b" ∧ word ≠ mark "\x7d" := by
  constructor <;> rintro rfl <;> exact other rfl

theorem name_unbraced (text : String) : name text ≠ mark "\x7b" ∧ name text ≠ mark "\x7d" :=
  unbraced_of_kind (by simp [name])

theorem unbraced_name (text : String) : Unbraced [name text] :=
  unbraced_cons.mpr ⟨name_unbraced text, unbraced_nil⟩

theorem unbraced_mark {text : String} {does : Denotations → Prop}
    (acts : does (Grammar.standard.denotations text))
    (others : ∀ brace ∈ ["\x7b", "\x7d"], ¬does (Grammar.standard.denotations brace)) :
    mark text ≠ mark "\x7b" ∧ mark text ≠ mark "\x7d" := by
  simp only [mark, ne_eq, Word.mk.injEq, true_and]
  constructor
  · rintro rfl
    exact others "\x7b" (by simp) acts
  · rintro rfl
    exact others "\x7d" (by simp) acts

end Word

theorem Atom.Spelled.kind {leaf : Atom} {word : Word} (spelled : leaf.Spelled word) :
    word.kind ≠ .operator := by
  cases spelled with
  | literal _ _ literal => rcases literal with rfl | rfl <;> simp
  | _ => simp [Word.name]

theorem Spelled.unbraced {room : Nat} {phrase : Phrase} {words : List Word}
    (spelled : Spelled room phrase words) : Unbraced words := by
  have comma : mark "," ≠ mark "\x7b" ∧ mark "," ≠ mark "\x7d" := by decide
  induction spelled with
  | atom spelled => simpa using unbraced_of_kind spelled.kind
  | group _ ih => exact unbraced_brackets (by decide) (by decide) ih
  | unary _ acts _ ih =>
      have plain := @unbraced_mark _ (·.operand? = some .unaryOperator) acts (by decide)
      exact unbraced_cons.mpr ⟨plain, ih⟩
  | step _ acts _ ih =>
      have plain := @unbraced_mark _ (·.operator? = some .step) acts (by decide)
      exact unbraced_append.mpr ⟨ih, unbraced_cons.mpr ⟨plain, unbraced_nil⟩⟩
  | @binary _ _ _ _ _ form _ _ _ acts _ _ _ firstIH secondIH =>
      have plain := @unbraced_mark _ (·.operator?.isSome = true) (Option.isSome_iff_exists.mpr ⟨_, acts⟩)
        (by decide)
      exact unbraced_append.mpr ⟨firstIH, unbraced_cons.mpr ⟨plain, secondIH⟩⟩
  | ternary _ _ _ _ firstIH secondIH thirdIH =>
      have colon : mark ":" ≠ mark "\x7b" ∧ mark ":" ≠ mark "\x7d" := by decide
      refine unbraced_append.mpr ⟨firstIH, unbraced_cons.mpr ⟨by decide, ?_⟩⟩
      exact unbraced_append.mpr ⟨secondIH, unbraced_cons.mpr ⟨colon, thirdIH⟩⟩
  | member _ _ _ ih =>
      exact unbraced_append.mpr ⟨ih, unbraced_cons.mpr ⟨by decide, unbraced_name _⟩⟩
  | index _ _ _ leftIH insideIH =>
      exact unbraced_append.mpr ⟨leftIH, unbraced_brackets (by decide) (by decide) insideIH⟩
  | call _ _ _ leftIH insideIH | methodCall _ _ _ _ leftIH insideIH =>
      exact unbraced_append.mpr ⟨leftIH, unbraced_brackets (by decide) (by decide) insideIH⟩
  | none => exact unbraced_nil
  | one _ ih => exact ih
  | more _ _ beforeIH lastIH => exact unbraced_append.mpr ⟨beforeIH, unbraced_cons.mpr ⟨comma, lastIH⟩⟩

theorem Optional.unbraced {room : Nat} {value? : Option Expr} {words : List Word}
    (optional : Optional room value? words) : Unbraced words := by
  cases optional with
  | none => exact unbraced_nil
  | some spelled => exact spelled.unbraced

namespace ParseM

variable {α β : Type} {context : Context} {tokens : List Token} {seen : Option Terminal} {room : Nat}

/-- So many scopes were opened on the way from one state to the other, and so many braces consumed. -/
structure Spends (before : ParseState) (counts : Braces) (after : ParseState) : Prop where
  scopes : after.scopes.pushes = before.scopes.pushes + counts.scopes
  opened : before.words.count (mark "\x7b") = counts.opened + after.words.count (mark "\x7b")
  closed : before.words.count (mark "\x7d") = counts.closed + after.words.count (mark "\x7d")

theorem Spends.trans {first second third : ParseState} {counts more : Braces}
    (spends : Spends first counts second) (spendsMore : Spends second more third) :
    Spends first (counts + more) third := by
  refine ⟨?_, ?_, ?_⟩
  · rw [spendsMore.scopes, spends.scopes, Nat.add_assoc]
    rfl
  · rw [spends.opened, spendsMore.opened, ← Nat.add_assoc]
    rfl
  · rw [spends.closed, spendsMore.closed, ← Nat.add_assoc]
    rfl

theorem spends_words {before after : ParseState} {words : List Word}
    (scopes : after.scopes.pushes = before.scopes.pushes) (split : before.words = words ++ after.words) :
    Spends before (Braces.ofWords words) after := by
  refine ⟨scopes, ?_, ?_⟩
  · rw [split, List.count_append]
    rfl
  · rw [split, List.count_append]
    rfl

theorem Spends.still {before after : ParseState} (scopes : after.scopes.pushes = before.scopes.pushes)
    (same : after.words = before.words) : Spends before Braces.none after :=
  @spends_words _ _ [] scopes same.symm

theorem pushScope_spends (state : ParseState) :
    Spends state Braces.scope (pushScope.run context state).2 :=
  ⟨rfl, (Nat.zero_add _).symm, (Nat.zero_add _).symm⟩

theorem popScope_spends (state : ParseState) : Spends state Braces.none (popScope.run context state).2 := by
  refine .still ?_ (congrArg Token.words (popScope_ahead state))
  simp only [popScope, run_get_bind, ScopeTree.pop]
  by_cases root : state.scope = 0
  · rw [if_pos root]
    rfl
  · rw [if_neg root]
    rfl

/-- An error was reported, or that an operand of a verb is not what it should be. -/
def Noisy (state : ParseState) : Prop :=
  ∃ diagnostic ∈ state.diagnostics, diagnostic.severity = .error ∨
    diagnostic.problem = .expectedActionIdentifier ∨ diagnostic.problem = .expectedIntegerLiteral

theorem noisy_kept : Keeps context (fun _ => True) Noisy := reported_kept _

theorem Faulty.noisy {state : ParseState} (faulty : Faulty state) : Noisy state := by
  obtain ⟨diagnostic, member, error⟩ := faulty
  exact ⟨diagnostic, member, .inl error⟩

theorem Noisy.adds {before after : ParseState} (noisy : Noisy before) (adds : Adds before after) :
    Noisy after := by
  obtain ⟨diagnostic, member, shape⟩ := noisy
  exact ⟨diagnostic, adds.mem member, shape⟩

/-- Where the lookahead is the one that was seen, if one was, scopes and braces are spent as the value tells,
unless there is noise afterwards. -/
def Mirrors (context : Context) (tokens : List Token) (seen : Option Terminal) (action : ParseM α)
    (makes : α → Braces → Prop) : Prop :=
  ∀ state, Sound context tokens state → (∀ token ∈ seen, state.token = token) →
    Sound context tokens (action.run context state).2 ∧
      (Noisy state → Noisy (action.run context state).2) ∧
      (¬ Noisy (action.run context state).2 → ∃ counts,
        Spends state counts (action.run context state).2 ∧ makes (action.run context state).1 counts)

abbrev Flat (context : Context) (tokens : List Token) (seen : Option Terminal) (action : ParseM α)
    (makes : α → Prop) : Prop :=
  Mirrors context tokens seen action fun value counts => counts = Braces.none ∧ makes value

namespace Mirrors

variable {action : ParseM α} {makes weaker : α → Braces → Prop}

theorem imp (mirrors : Mirrors context tokens seen action makes)
    (less : ∀ value counts, makes value counts → weaker value counts) :
    Mirrors context tokens seen action weaker := by
  intro state sound same
  obtain ⟨last, noisy, mirrored⟩ := mirrors state sound same
  refine ⟨last, noisy, fun quiet => ?_⟩
  obtain ⟨counts, spends, made⟩ := mirrored quiet
  exact ⟨counts, spends, less _ _ made⟩

theorem weaken (mirrors : Mirrors context tokens none action makes) :
    Mirrors context tokens seen action makes :=
  fun state sound _ => mirrors state sound (by simp)

theorem value {value : α} (made : makes value Braces.none) :
    Mirrors context tokens seen (pure value) makes :=
  fun _ sound _ => ⟨sound, id, fun _ => ⟨_, .still rfl rfl, made⟩⟩

/-- What is read first is spent first. What keeps to its place leaves the lookahead as it was seen. -/
theorem chain {later : Option Terminal} {first : ParseM β} {next : β → ParseM α}
    {makesFirst : β → Braces → Prop} (mirrors : Mirrors context tokens seen first makesFirst)
    (kept : ∀ state : ParseState, (∀ token ∈ seen, state.token = token) →
      ∀ token ∈ later, (first.run context state).2.token = token)
    (others : ∀ value, Mirrors context tokens later (next value) fun result more =>
      ∀ counts, makesFirst value counts → makes result (counts + more)) :
    Mirrors context tokens seen (first >>= next) makes := by
  intro state sound same
  obtain ⟨middle, noisy, mirrored⟩ := mirrors state sound same
  obtain ⟨last, noisyLater, mirroredLater⟩ := others _ _ middle (kept state same)
  refine ⟨last, fun early => noisyLater (noisy early), fun quiet => ?_⟩
  obtain ⟨counts, spends, made⟩ := mirrored fun early => quiet (noisyLater early)
  obtain ⟨more, spendsMore, madeMore⟩ := mirroredLater quiet
  exact ⟨counts + more, spends.trans spendsMore, madeMore counts made⟩

theorem bind {first : ParseM β} {next : β → ParseM α} {makesFirst : β → Braces → Prop}
    (mirrors : Mirrors context tokens seen first makesFirst)
    (others : ∀ value, Mirrors context tokens none (next value) fun result more =>
      ∀ counts, makesFirst value counts → makes result (counts + more)) :
    Mirrors context tokens seen (first >>= next) makes :=
  mirrors.chain (fun _ _ => by simp) others

theorem after {first : ParseM β} {next : β → ParseM α} {makesFirst : β → Prop}
    (flat : Flat context tokens seen first makesFirst)
    (others : ∀ value, Mirrors context tokens none (next value) fun result counts =>
      makesFirst value → makes result counts) :
    Mirrors context tokens seen (first >>= next) makes := by
  refine bind flat fun value => (others value).imp ?_
  rintro result more made _ ⟨rfl, holds⟩
  simpa using made holds

theorem look {next : Terminal → ParseM α}
    (others : ∀ token, Known context tokens token → (∀ other ∈ seen, token = other) →
      Mirrors context tokens (some token) (next token) makes) :
    Mirrors context tokens seen (current >>= next) makes :=
  fun state sound same => others _ sound.1.lookahead same state sound (by simp)

theorem ite {condition : Prop} [Decidable condition] {yes no : ParseM α}
    (mirrorsYes : condition → Mirrors context tokens seen yes makes)
    (mirrorsNo : ¬condition → Mirrors context tokens seen no makes) :
    Mirrors context tokens seen (if condition then yes else no) makes := by
  by_cases holds : condition
  · simpa only [holds, if_true] using mirrorsYes holds
  · simpa only [holds, if_false] using mirrorsNo holds

theorem vain (noise : ∀ {state}, Sound context tokens state →
      Sound context tokens (action.run context state).2 ∧ Noisy (action.run context state).2) :
    Mirrors context tokens seen action makes :=
  fun _ sound _ => ⟨(noise sound).1, fun _ => (noise sound).2, fun quiet => absurd (noise sound).2 quiet⟩

theorem of_alike (alike : ∀ state, Alike state (action.run context state).2)
    (adds : ∀ state, Adds state (action.run context state).2) :
    Flat context tokens seen action fun _ => True := by
  intro state sound _
  refine ⟨sound.of_alike (alike state) (adds state), fun noisy => noisy.adds (adds state), fun _ => ?_⟩
  refine ⟨_, .still (congrArg _ (alike state).scopes) ?_, rfl, trivial⟩
  rw [ParseState.words, ParseState.words, ParseState.ahead, (alike state).token, (alike state).pending]
  rfl

theorem whileToken {again : Terminal → Bool} {body : α → ParseM α}
    (round : ∀ value, Mirrors context tokens none (body value) fun result more =>
      ∀ counts, makes value counts → makes result (counts + more)) {value : α}
    (start : makes value Braces.none) :
    Mirrors context tokens seen (whileToken again body value) makes := by
  intro state sound _
  have rounds (value : α) (last : ParseState) :
      (Sound context tokens last ∧ (Noisy state → Noisy last) ∧
        (¬ Noisy last → ∃ counts, Spends state counts last ∧ makes value counts)) →
      Sound context tokens ((body value).run context last).2 ∧
        (Noisy state → Noisy ((body value).run context last).2) ∧
        (¬ Noisy ((body value).run context last).2 → ∃ counts,
          Spends state counts ((body value).run context last).2 ∧
            makes ((body value).run context last).1 counts) := by
    rintro ⟨sound, noisy, mirrored⟩
    obtain ⟨next, noisyLater, mirroredLater⟩ := round value last sound (by simp)
    refine ⟨next, fun early => noisyLater (noisy early), fun quiet => ?_⟩
    obtain ⟨counts, spends, made⟩ := mirrored fun early => quiet (noisyLater early)
    obtain ⟨more, spendsMore, madeMore⟩ := mirroredLater quiet
    exact ⟨counts + more, spends.trans spendsMore, madeMore counts made⟩
  exact whileToken_invariant rounds value state ⟨sound, id, fun _ => ⟨_, .still rfl rfl, start⟩⟩

section Readers

variable (grammar : context.grammar = Grammar.standard) (lexical : ∀ token ∈ tokens, token.Lexical)

def leveling : Survey context tokens where
  grammar
  lexical
  finds _ before after _ := after.scopes.pushes = before.scopes.pushes
  still _ _ same := same
  append found more := more.trans found
  deeper found := found
  take {state} _ := by
    obtain ⟨terminal, passed, pending, events, ran, _⟩ := @advance_run context state
    rw [ran]
  leaf {state _} _ _ := by
    obtain ⟨terminal, passed, pending, events, ran, _⟩ := @advance_run context state
    rw [ran]
  placeholder _ := rfl
  grouped found := found
  headed onward _ found _ _ := found.trans onward
  folded found _ others _ _ _ := others.trans found
  method found _ others _ := others.trans found

include grammar lexical

theorem of_traces (room : Nat) {reader : Open α} (composed : Composed (fun _ => True) none reader)
    {spells : α → List Word → Prop}
    (traces : Traces context tokens seen (reader (expression room) (statement room)) spells)
    {limit : Nat} {nodes : α → List Node}
    (level : ∀ state, (leveling grammar lexical).Finds limit state
      (reader (expression room) (statement room)) nodes) :
    Mirrors context tokens seen (reader (expression room) (statement room)) fun value counts =>
      ∃ words, counts = Braces.ofWords words ∧ spells value words := by
  intro state sound same
  refine ⟨traces.sound sound same, noisy_kept.reader composed room, fun quiet => ?_⟩
  obtain ⟨words, split, spelled⟩ := traces.spelled sound same fun faulty => quiet faulty.noisy
  exact ⟨_, spends_words (level state sound.1).2 split, words, rfl, spelled⟩

theorem flat_of_traces (room : Nat) {reader : Open α} (composed : Composed (fun _ => True) none reader)
    {spells : α → List Word → Prop}
    (traces : Traces context tokens seen (reader (expression room) (statement room)) spells)
    {limit : Nat} {nodes : α → List Node}
    (level : ∀ state, (leveling grammar lexical).Finds limit state
      (reader (expression room) (statement room)) nodes)
    (unbraced : ∀ value words, spells value words → Unbraced words) :
    Flat context tokens seen (reader (expression room) (statement room)) fun _ => True := by
  refine (of_traces grammar lexical room composed traces level).imp ?_
  rintro value counts ⟨words, rfl, spelled⟩
  exact ⟨(unbraced value words spelled).counts, trivial⟩

theorem of_plain {action : ParseM Unit} (plain : Plain (Known context tokens) action)
    (level : ∀ state, (leveling grammar lexical).Passes state action)
    (still : ∀ state : ParseState, (action.run context state).2.ahead = state.ahead) :
    Flat context tokens seen action fun _ => True := by
  intro state sound _
  have scopes := (level state sound.1).2
  exact ⟨(sound_kept grammar lexical).plain plain sound, fun noisy => noisy.adds (plain.adds state),
    fun _ => ⟨_, .still scopes (congrArg Token.words (still state)), rfl, trivial⟩⟩

theorem define {terminal : Terminal} (known : Known context tokens terminal) (arity : Arity)
    (valueType? : Option ValueType) :
    Flat context tokens seen (define terminal arity valueType?) fun _ => True :=
  of_plain grammar lexical (.define known arity valueType?) (fun _ => Survey.define known arity valueType?)
    fun state =>
      adopt_ahead (state.scopes.define state.scope (declared terminal arity valueType? state.scope)) state

theorem reserve {terminal : Terminal} (known : Known context tokens terminal) :
    Flat context tokens seen (reserve terminal) fun _ => True :=
  of_plain grammar lexical (.reserve known) (fun _ => Survey.reserve known)
    fun state => adopt_ahead (state.scopes.reserve state.scope terminal) state

theorem inScope (room : Nat) {body : Open α} (closable : Closable body)
    (composed : Composed (Known context tokens) none body)
    (mirrors : Mirrors context tokens none (body (expression room) (statement room)) makes) :
    Mirrors context tokens none (inScope (body (expression room) (statement room))) fun value counts =>
      ∃ inside, counts = Braces.scope + inside ∧ makes value inside := by
  have kept := sound_kept grammar lexical
  intro state sound _
  have opened : Sound context tokens (pushScope.run context state).2 := kept.push sound
  obtain ⟨last, noisy, mirrored⟩ := mirrors _ opened (by simp)
  have closed := @popScope_adds context
    ((body (expression room) (statement room)).run context (pushScope.run context state).2).2
  refine ⟨kept.reader (.inScope closable composed) room sound, fun early => ?_, fun quiet => ?_⟩
  · rw [inScope_run]
    exact (noisy (noisy_kept.push early)).adds closed
  · rw [inScope_run] at quiet ⊢
    obtain ⟨counts, spends, made⟩ := mirrored fun early => quiet (early.adds closed)
    refine ⟨Braces.scope + counts, ?_, counts, rfl, made⟩
    simpa using ((pushScope_spends state).trans spends).trans (popScope_spends _)

omit grammar lexical in
theorem of_failing {action : ParseM α} (traces : Traces context tokens seen action fun _ _ => False)
    {makes : α → Braces → Prop} : Mirrors context tokens seen action makes := by
  intro state sound same
  have faulty : Faulty (action.run context state).2 := by
    by_contra clean
    obtain ⟨_, _, impossible⟩ := traces.spelled sound same clean
    exact impossible
  exact ⟨traces.sound sound same, fun _ => faulty.noisy, fun quiet => absurd faulty.noisy quiet⟩

omit grammar lexical in
theorem errorUnless (met : Bool) {problem : Problem} (ordinary : problem.isOrdinary = true) (span : Span) :
    Flat context tokens seen (errorUnless met problem span) fun _ => met = true := by
  unfold ParseM.errorUnless
  cases met with
  | true => exact .value ⟨rfl, rfl⟩
  | false => exact of_failing (.error ordinary span)

omit grammar lexical in
theorem warningUnless (met : Bool) {problem : Problem} (ordinary : problem.isOrdinary = true) (span : Span) :
    Flat context tokens seen (warningUnless met problem span) fun _ => True := by
  unfold ParseM.warningUnless
  cases met with
  | true => exact .value ⟨rfl, trivial⟩
  | false =>
      have plain : Plain (fun _ => True) (report ⟨problem, span, .warning⟩) := .report ordinary
      exact of_alike (fun _ => ⟨rfl, rfl, rfl, rfl⟩) plain.adds

variable (legible : ∀ token ∈ tokens, token.complaints Grammar.standard = [])

include legible

theorem take {next : Terminal → ParseM α}
    (others : ∀ terminal, Known context tokens terminal → (∀ token ∈ seen, terminal = token) →
      Mirrors context tokens none (next terminal) fun value counts =>
        makes value (Braces.ofWords terminal.words + counts)) :
    Mirrors context tokens seen (advance >>= next) makes := by
  have kept := sound_kept grammar lexical
  intro state sound same
  obtain ⟨last, noisy, mirrored⟩ :=
    others _ sound.1.lookahead same (advance.run context state).2 (kept.take sound) (by simp)
  rw [run_bind, advance_value]
  refine ⟨last, fun early => noisy (noisy_kept.take early), fun quiet => ?_⟩
  obtain ⟨counts, spends, made⟩ := mirrored quiet
  have level : (advance.run context state).2.scopes.pushes = state.scopes.pushes :=
    ((leveling grammar lexical).advance sound.1).2.passed
  have spent := spends_words level (Traces.advance_words grammar legible sound.1)
  exact ⟨_, spent.trans spends, made⟩

theorem expect {text : String} (operator : text ∈ Token.operators) :
    Mirrors context tokens seen (expect text) fun _ counts => counts = Braces.ofWords [mark text] := by
  refine (of_traces grammar lexical 0 (.expect text) (.expect_mark grammar lexical legible operator)
    fun _ => Survey.expect text).imp ?_
  rintro _ _ ⟨_, rfl, rfl⟩
  rfl

theorem expect_flat {text : String} (operator : text ∈ Token.operators)
    (other : Unbraced [mark text]) : Flat context tokens seen (ParseM.expect text) fun _ => True := by
  refine (expect grammar lexical legible operator).imp ?_
  rintro _ _ rfl
  exact ⟨other.counts, trivial⟩

theorem pass {text : String} (operator : text ∈ Token.operators) (other : Unbraced [mark text])
    {next : Terminal → ParseM α} (others : ∀ value, Mirrors context tokens none (next value) makes) :
    Mirrors context tokens seen (ParseM.expect text >>= next) makes :=
  .after (expect_flat grammar lexical legible operator other) fun value =>
    (others value).imp fun _ _ made _ => made

theorem expect_name {text : String} (name : isNameText text = true) :
    Flat context tokens seen (ParseM.expect text) fun _ => True := by
  refine flat_of_traces grammar lexical 0 (.expect text) (.expect_name grammar lexical legible name)
    (fun _ => Survey.expect text) ?_
  rintro _ _ rfl
  exact unbraced_name text

theorem skip {token : Terminal} {text : String} (known : Known context tokens token)
    (id : token.id = text) (operator : text ∈ Token.operators) :
    Mirrors context tokens (some token) skip fun _ counts => counts = Braces.ofWords [mark text] := by
  refine (of_traces grammar lexical 0 .skip (skip_traces grammar lexical legible known id operator)
    fun _ => Survey.skip).imp ?_
  rintro _ _ ⟨_, rfl, rfl⟩
  rfl

theorem expectSemicolon : Flat context tokens seen expectSemicolon fun _ => True := by
  refine flat_of_traces grammar lexical 0 .expectSemicolon (expectSemicolon_traces grammar lexical legible)
    (fun _ => Survey.expectSemicolon) ?_
  rintro _ _ rfl
  decide

theorem expression (room power : Nat) :
    Flat context tokens seen (ParseM.expression room power) fun _ => True :=
  (flat_of_traces grammar lexical room (.inner power) (expression_traces grammar lexical legible room power)
    (fun _ => Survey.expression room power _) fun _ _ spelled => spelled.unbraced).weaken

theorem optional (closing : String) :
    Flat context tokens seen (ParseM.optional (ParseM.expression room) closing) fun _ => True :=
  flat_of_traces grammar lexical room (.optional closing) (optional_traces grammar lexical legible closing)
    (fun _ => Survey.optional closing) fun _ _ optional => optional.unbraced

theorem parenthesized :
    Flat context tokens seen (ParseM.parenthesized (ParseM.expression room)) fun _ => True :=
  pass grammar lexical legible (by decide) (by decide) fun _ =>
    .after (expression grammar lexical legible room _) fun _ =>
      pass grammar lexical legible (by decide) (by decide) fun _ => .value fun _ => ⟨rfl, trivial⟩

theorem opened {yes : ParseM α} {other : α} {makes : α → Braces → Prop}
    (mirrors : Mirrors context tokens none yes makes) :
    Mirrors context tokens seen
      (atBrace >>= fun opened => if opened then ParseM.skip >>= fun _ => yes else pure other)
      fun value counts => ∃ inside, counts = Braces.opening + inside ∧ makes value inside := by
  simp only [atBrace, bind_assoc, pure_bind]
  refine .look fun token known _ => ?_
  have kept (state : ParseState) (same : ∀ other ∈ some token, state.token = other) :
      ∀ other ∈ some token, ((ParseM.errorUnless (token.id == "\x7b") (.expected "\x7b")
        token.span).run context state).2.token = other := by
    rw [errorUnless_run]
    exact same
  refine (errorUnless _ rfl token.span).chain kept fun _ => .ite (fun open? => ?_) fun closed => ?_
  · refine .bind (skip grammar lexical legible known (eq_of_beq open?) (by decide)) fun _ =>
      mirrors.imp ?_
    rintro value inside made _ rfl _ ⟨rfl, _⟩
    exact ⟨inside, by simp, made⟩
  · exact .value fun counts met => absurd met.2 closed

end Readers

end Mirrors

end ParseM

end Adventure
