import Adventure.Proofs.Meaning
import Adventure.Proofs.Reports

/-!
What was read, traced back from what was made. As long as no error is reported, the words that a reader
takes are a spelling of the value that it returns; once one is reported, nothing is promised, and errors
are never taken back.
-/

namespace Adventure

def Terminal.words (terminal : Terminal) : List Word := Token.words terminal.token?.toList

theorem Terminal.Means.words {terminal : Terminal} {word : Word} (means : terminal.Means word) :
    terminal.words = [word] := by
  obtain ⟨kind, text⟩ := word
  have significant : Token.isSignificant ⟨kind, terminal.text, terminal.span⟩ = true := by
    simpa [Token.isSignificant] using means.significant
  simp only [Terminal.words, Terminal.token?, means.origin, Option.map_some, Option.toList_some,
    Token.words_cons, significant, if_true, Token.word]
  rw [means.text]
  rfl

namespace ParseM

variable {α β : Type} {context : Context} {tokens : List Token} {seen : Option Terminal}

def Faulty (state : ParseState) : Prop :=
  ∃ diagnostic ∈ state.diagnostics, diagnostic.severity = .error

theorem faulty_iff {state : ParseState} : Faulty state ↔ state.diagnostics.hasErrors = true := by
  simp [Faulty, Diagnostics.hasErrors]

theorem error_faulty (problem : Problem) (span : Span) (state : ParseState) :
    Faulty ((error problem span).run context state).2 := by
  simp [Faulty]

theorem faulty_kept : Keeps context (fun _ => True) Faulty := reported_kept _

/-- What is known of every state: what its bindings and its lookahead mean, and that nesting which is
too deep was an error. -/
def Sound (context : Context) (tokens : List Token) (state : ParseState) : Prop :=
  Understood context tokens state ∧ (state.depthReported = true → Faulty state)

theorem nesting_kept :
    Keeps context (fun _ => True) fun state => state.depthReported = true → Faulty state := by
  refine .of_adds ?_ ?_
  · intro before after adds nesting reported
    obtain ⟨diagnostic, member, error⟩ := nesting (adds.depthReported ▸ reported)
    exact ⟨diagnostic, adds.mem member, error⟩
  · intro state nesting _
    have faulty : Faulty (reportDepth.run context state).2 := by
      rw [reportDepth_run]
      dsimp only
      split
      · rename_i reported
        exact nesting reported
      · simp [Faulty]
    obtain ⟨diagnostic, member, error⟩ := faulty
    exact ⟨diagnostic, (refuse_adds state).mem member, error⟩

theorem Sound.of_alike {before after : ParseState} (alike : Alike before after)
    (adds : Adds before after) (sound : Sound context tokens before) : Sound context tokens after := by
  obtain ⟨⟨bindings, ended, ahead, lookahead⟩, nesting⟩ := sound
  refine ⟨⟨alike.scopes ▸ bindings, ended.of_eq alike.token alike.pending, ?_, alike.token ▸ lookahead⟩,
    fun reported => ?_⟩
  · rw [ParseState.ahead, alike.token, alike.pending]
    exact ahead
  · obtain ⟨diagnostic, member, error⟩ := nesting (adds.depthReported ▸ reported)
    exact ⟨diagnostic, adds.mem member, error⟩

theorem sound_kept (grammar : context.grammar = Grammar.standard)
    (lexical : ∀ token ∈ tokens, token.Lexical) :
    Keeps context (Known context tokens) (Sound context tokens) :=
  (understood_kept grammar lexical).and nesting_kept

/-- Where the lookahead is the one that was seen, if one was, the words that are taken spell the value,
unless there is an error afterwards. -/
structure Traces (context : Context) (tokens : List Token) (seen : Option Terminal)
    (action : ParseM α) (spells : α → List Word → Prop) : Prop where
  sound {state : ParseState} (sound : Sound context tokens state)
    (same : ∀ token ∈ seen, state.token = token) :
    Sound context tokens (action.run context state).2
  faulty {state : ParseState} (sound : Sound context tokens state)
    (same : ∀ token ∈ seen, state.token = token) :
    Faulty state → Faulty (action.run context state).2
  spelled {state : ParseState} (sound : Sound context tokens state)
    (same : ∀ token ∈ seen, state.token = token)
    (clean : ¬ Faulty (action.run context state).2) :
    ∃ words, state.words = words ++ (action.run context state).2.words ∧
      spells (action.run context state).1 words

namespace Traces

variable {action : ParseM α} {spells : α → List Word → Prop}

theorem imp {others : α → List Word → Prop} (traces : Traces context tokens seen action spells)
    (less : ∀ value words, spells value words → others value words) :
    Traces context tokens seen action others where
  sound := traces.sound
  faulty := traces.faulty
  spelled sound same clean := by
    obtain ⟨words, split, spelled⟩ := traces.spelled sound same clean
    exact ⟨words, split, less _ _ spelled⟩

theorem weaken (traces : Traces context tokens none action spells) :
    Traces context tokens seen action spells where
  sound sound _ := traces.sound sound (by simp)
  faulty sound _ := traces.faulty sound (by simp)
  spelled sound _ := traces.spelled sound (by simp)

theorem value {value : α} (spelled : spells value []) :
    Traces context tokens seen (pure value) spells where
  sound sound _ := sound
  faulty _ _ faulty := faulty
  spelled _ _ _ := ⟨[], rfl, spelled⟩

/-- What is read first is traced first, and then what is read after any value that it may have had. What
keeps to its place leaves the lookahead as it was seen. -/
theorem chain {later : Option Terminal} {first : ParseM β} {next : β → ParseM α}
    {spellsFirst : β → List Word → Prop}
    (traces : Traces context tokens seen first spellsFirst)
    (kept : ∀ state : ParseState, (∀ token ∈ seen, state.token = token) →
      ∀ token ∈ later, (first.run context state).2.token = token)
    (others : ∀ value, Traces context tokens later (next value) fun result rest =>
      ∀ words, spellsFirst value words → spells result (words ++ rest)) :
    Traces context tokens seen (first >>= next) spells where
  sound sound same := (others _).sound (traces.sound sound same) (kept _ same)
  faulty sound same faulty :=
    (others _).faulty (traces.sound sound same) (kept _ same) (traces.faulty sound same faulty)
  spelled {state} sound same clean := by
    have middle := traces.sound sound same
    have cleanFirst : ¬ Faulty (first.run context state).2 :=
      fun faulty => clean ((others _).faulty middle (kept _ same) faulty)
    obtain ⟨words, split, spelledFirst⟩ := traces.spelled sound same cleanFirst
    obtain ⟨rest, splitRest, spelled⟩ := (others _).spelled middle (kept _ same) clean
    refine ⟨words ++ rest, ?_, spelled words spelledFirst⟩
    rw [split, splitRest, List.append_assoc]
    rfl

theorem bind {first : ParseM β} {next : β → ParseM α} {spellsFirst : β → List Word → Prop}
    (traces : Traces context tokens seen first spellsFirst)
    (others : ∀ value, Traces context tokens none (next value) fun result rest =>
      ∀ words, spellsFirst value words → spells result (words ++ rest)) :
    Traces context tokens seen (first >>= next) spells :=
  traces.chain (fun _ _ => by simp) others

theorem map {first : ParseM β} {change : β → α} {spellsFirst : β → List Word → Prop}
    (traces : Traces context tokens seen first spellsFirst)
    (less : ∀ value words, spellsFirst value words → spells (change value) words) :
    Traces context tokens seen (first >>= fun value => pure (change value)) spells :=
  .bind traces fun value => .value fun words spelled => by
    simpa using less value words spelled

theorem look {next : Terminal → ParseM α}
    (others : ∀ token, Known context tokens token → (∀ other ∈ seen, token = other) →
      Traces context tokens (some token) (next token) spells) :
    Traces context tokens seen (current >>= next) spells where
  sound sound same := (others _ sound.1.lookahead same).sound sound (by simp)
  faulty sound same := (others _ sound.1.lookahead same).faulty sound (by simp)
  spelled sound same := (others _ sound.1.lookahead same).spelled sound (by simp)

theorem ite {condition : Prop} [Decidable condition] {yes no : ParseM α}
    (tracesYes : condition → Traces context tokens seen yes spells)
    (tracesNo : ¬condition → Traces context tokens seen no spells) :
    Traces context tokens seen (if condition then yes else no) spells := by
  by_cases holds : condition
  · simpa only [holds, if_true] using tracesYes holds
  · simpa only [holds, if_false] using tracesNo holds

theorem vain (sound : ∀ {state}, Sound context tokens state →
      Sound context tokens (action.run context state).2 ∧ Faulty (action.run context state).2) :
    Traces context tokens seen action spells where
  sound before _ := (sound before).1
  faulty before _ _ := (sound before).2
  spelled before _ clean := absurd (sound before).2 clean

theorem still (sound : ∀ {state}, Sound context tokens state →
      Sound context tokens (action.run context state).2)
    (adds : ∀ state, Adds state (action.run context state).2)
    (place : ∀ state, (action.run context state).2.ahead = state.ahead) :
    Traces context tokens seen action fun _ words => words = [] where
  sound before _ := sound before
  faulty _ _ faulty := by
    obtain ⟨diagnostic, member, error⟩ := faulty
    exact ⟨diagnostic, (adds _).mem member, error⟩
  spelled {state} _ _ _ := by
    refine ⟨[], ?_, rfl⟩
    rw [ParseState.words, ParseState.words, place]
    rfl

theorem of_alike (alike : ∀ state, Alike state (action.run context state).2)
    (adds : ∀ state, Adds state (action.run context state).2) :
    Traces context tokens seen action fun _ words => words = [] := by
  refine still (fun sound => sound.of_alike (alike _) (adds _)) adds fun state => ?_
  rw [ParseState.ahead, (alike state).token, (alike state).pending]
  rfl

theorem noteOccurrence (terminal : Terminal) :
    Traces context tokens seen (noteOccurrence terminal) fun _ words => words = [] :=
  of_alike (fun _ => ⟨rfl, rfl, rfl, rfl⟩) fun _ => .of_eq rfl rfl

theorem lastSpan : Traces context tokens seen lastSpan fun _ words => words = [] :=
  of_alike (fun _ => ⟨rfl, rfl, rfl, rfl⟩) fun _ => .of_eq rfl rfl

theorem enter : Traces context tokens seen enter fun _ words => words = [] :=
  of_alike (fun _ => ⟨rfl, rfl, rfl, rfl⟩) fun _ => .of_eq rfl rfl

theorem leave : Traces context tokens seen leave fun _ words => words = [] :=
  of_alike (fun _ => ⟨rfl, rfl, rfl, rfl⟩) fun _ => .of_eq rfl rfl

theorem log (event : Event) : Traces context tokens seen (log event) fun _ words => words = [] :=
  of_alike (fun _ => ⟨rfl, rfl, rfl, rfl⟩) fun _ => .of_eq rfl rfl

theorem warning {problem : Problem} (ordinary : problem.isOrdinary = true) (span : Span) :
    Traces context tokens seen (warning problem span) fun _ words => words = [] :=
  of_alike (fun _ => ⟨rfl, rfl, rfl, rfl⟩) fun state =>
    (Plain.report ordinary : Plain (fun _ => True) (report ⟨problem, span, .warning⟩)).adds state

theorem warningUnless (met : Bool) {problem : Problem} (ordinary : problem.isOrdinary = true)
    (span : Span) :
    Traces context tokens seen (warningUnless met problem span) fun _ words => words = [] := by
  unfold ParseM.warningUnless
  cases met with
  | true => exact .value rfl
  | false => exact warning ordinary span

theorem error {problem : Problem} (ordinary : problem.isOrdinary = true) (span : Span) :
    Traces context tokens seen (error problem span) fun _ _ => False := by
  refine .vain fun {state} sound => ⟨?_, error_faulty problem span state⟩
  have plain : Plain (fun _ => True) (report ⟨problem, span, .error⟩) := .report ordinary
  refine sound.of_alike ?_ (plain.adds state)
  exact ⟨rfl, rfl, rfl, rfl⟩

theorem errorUnless (met : Bool) {problem : Problem} (ordinary : problem.isOrdinary = true)
    (span : Span) :
    Traces context tokens seen (errorUnless met problem span) fun _ words =>
      words = [] ∧ met = true := by
  unfold ParseM.errorUnless
  cases met with
  | true => exact .value ⟨rfl, rfl⟩
  | false => exact (error ordinary span).imp fun _ _ => False.elim

theorem require {token : Terminal} (met : Bool) {problem : Problem}
    (ordinary : problem.isOrdinary = true) (span : Span) {next : Unit → ParseM α}
    (others : Traces context tokens (some token) (next ()) fun value words =>
      met = true → spells value words) :
    Traces context tokens (some token) (ParseM.errorUnless met problem span >>= next) spells := by
  have kept (state : ParseState) (same : ∀ other ∈ some token, state.token = other) :
      ∀ other ∈ some token,
        ((ParseM.errorUnless met problem span).run context state).2.token = other := by
    rw [errorUnless_run]
    exact same
  refine (errorUnless met ordinary span).chain kept fun _ => others.imp ?_
  rintro value rest spelled _ ⟨rfl, holds⟩
  exact spelled holds

theorem checkCallee (call callee : Expr) :
    Traces context tokens seen (checkCallee call callee) fun _ words => words = [] := by
  unfold ParseM.checkCallee
  cases call with
  | call => exact (errorUnless _ rfl _).imp fun _ _ made => made.1
  | _ => exact .value rfl

theorem checkAction : Traces context tokens seen checkAction fun _ words => words = [] :=
  of_alike checkAction_alike checkAction_adds

theorem whileToken {again : Terminal → Bool} {body : α → ParseM α}
    (round : ∀ value, Traces context tokens none (body value) fun after rest =>
      ∀ words, spells value words → spells after (words ++ rest)) (value : α) :
    Traces context tokens seen (whileToken again body value) fun last rest =>
      ∀ words, spells value words → spells last (words ++ rest) := by
  have bounded (count : Nat) : ∀ value, Traces context tokens none (rounds again body count value)
      fun last rest => ∀ words, spells value words → spells last (words ++ rest) := by
    induction count with
    | zero => exact fun value => .value fun words spelled => by simpa using spelled
    | succ count ih =>
        intro value
        refine .look fun token _ _ => .ite (fun _ => ?_) fun _ => .value fun words spelled => ?_
        · refine .bind (round value).weaken fun after => (ih after).imp ?_
          intro last rest others words made earlier spelled
          rw [← List.append_assoc]
          exact others _ (made earlier spelled)
        · simpa using spelled
  exact
    { sound := fun sound _ => (bounded _ value).sound sound (by simp)
      faulty := fun sound _ => (bounded _ value).faulty sound (by simp)
      spelled := fun sound _ => (bounded _ value).spelled sound (by simp) }

section Steps

variable (grammar : context.grammar = Grammar.standard) (lexical : ∀ token ∈ tokens, token.Lexical)

include grammar lexical

theorem after_error {first : ParseM β} {next : β → Open α}
    (traces : Traces context tokens seen first fun _ _ => False)
    (composed : ∀ value, Composed (Known context tokens) none (next value)) (room : Nat) :
    Traces context tokens seen
      (first >>= fun value => next value (expression room) (statement room)) spells := by
  have kept := (sound_kept grammar lexical).and faulty_kept
  refine ⟨?_, ?_, ?_⟩
  · intro state sound same
    exact (sound_kept grammar lexical).reader (composed _) room (traces.sound sound same)
  · intro state sound same faulty
    exact (kept.reader (composed _) room
      ⟨traces.sound sound same, traces.faulty sound same faulty⟩).2
  · intro state sound same clean
    by_cases faulty : Faulty (first.run context state).2
    · exact absurd (kept.reader (composed _) room ⟨traces.sound sound same, faulty⟩).2 clean
    · exact absurd (traces.spelled sound same faulty) (by simp)

theorem define {terminal : Terminal} (known : Known context tokens terminal) (arity : Arity)
    (valueType? : Option ValueType) :
    Traces context tokens seen (define terminal arity valueType?) fun _ words => words = [] := by
  have plain : Plain (Known context tokens) (ParseM.define terminal arity valueType?) :=
    .define known arity valueType?
  refine still (fun sound => (sound_kept grammar lexical).plain plain sound) plain.adds fun state => ?_
  exact adopt_ahead (state.scopes.define state.scope (declared terminal arity valueType? state.scope)) state

theorem reserve {terminal : Terminal} (known : Known context tokens terminal) :
    Traces context tokens seen (reserve terminal) fun _ words => words = [] := by
  have plain : Plain (Known context tokens) (ParseM.reserve terminal) := .reserve known
  refine still (fun sound => (sound_kept grammar lexical).plain plain sound) plain.adds fun state => ?_
  exact adopt_ahead (state.scopes.reserve state.scope terminal) state

theorem refuse {spells : Atom → List Word → Prop} : Traces context tokens seen refuse spells := by
  refine .vain fun {state} sound => ?_
  have kept := (sound_kept grammar lexical).refuse sound
  exact ⟨kept, kept.2 (refuse_reported state)⟩

theorem inScope {body : Open α} (closable : Closable body)
    (composed : Composed (Known context tokens) none body) {room : Nat}
    (traces : Traces context tokens none (body (expression room) (statement room)) spells) :
    Traces context tokens seen (inScope (body (expression room) (statement room))) spells := by
  have kept := sound_kept grammar lexical
  refine ⟨?_, ?_, ?_⟩
  · intro state sound _
    exact kept.reader (.inScope closable composed) room sound
  · intro state sound _ faulty
    exact ((kept.and faulty_kept).reader (.inScope closable composed) room ⟨sound, faulty⟩).2
  · intro state sound _ clean
    rw [inScope_run] at clean ⊢
    have opened : Sound context tokens (pushScope.run context state).2 := kept.push sound
    have closed := @popScope_adds context
      ((body (expression room) (statement room)).run context (pushScope.run context state).2).2
    obtain ⟨words, split, spelled⟩ := traces.spelled opened (by simp) fun ⟨diagnostic, member, error⟩ =>
      clean ⟨diagnostic, closed.mem member, error⟩
    refine ⟨words, ?_, spelled⟩
    simp only [ParseState.words, popScope_ahead]
    exact split

end Steps

section Words

variable (grammar : context.grammar = Grammar.standard) (lexical : ∀ token ∈ tokens, token.Lexical)
  (legible : ∀ token ∈ tokens, token.complaints Grammar.standard = [])

include grammar legible

theorem advance_words {state : ParseState} (understood : Understood context tokens state) :
    state.words = state.token.words ++ (advance.run context state).2.words := by
  obtain ⟨terminal, passed, pending, events, ran, split, arrival⟩ := @advance_run context state
  have within : ∀ token ∈ passed, token ∈ tokens := by
    intro token member
    refine understood.ahead.subset (List.mem_append_right _ ?_)
    simp [split, member]
  have words := arrival.words grammar fun token member => legible token (within token member)
  rw [ran, ParseState.words, ParseState.ahead, Token.words_append, split, Token.words_append, words]
  simp only [ParseState.words, ParseState.ahead, Token.words_append]
  rfl

include lexical

theorem take {next : Terminal → ParseM α}
    (others : ∀ terminal, Known context tokens terminal → (∀ token ∈ seen, terminal = token) →
      Traces context tokens none (next terminal) fun value rest =>
        spells value (terminal.words ++ rest)) :
    Traces context tokens seen (ParseM.advance >>= next) spells := by
  have kept := sound_kept grammar lexical
  refine ⟨?_, ?_, ?_⟩
  · intro state sound same
    rw [run_bind, advance_value]
    exact (others _ sound.1.lookahead same).sound (kept.take sound) (by simp)
  · intro state sound same faulty
    rw [run_bind, advance_value]
    exact (others _ sound.1.lookahead same).faulty (kept.take sound) (by simp)
      ((kept.and faulty_kept).take ⟨sound, faulty⟩).2
  · intro state sound same clean
    rw [run_bind, advance_value] at clean ⊢
    obtain ⟨words, split, spelled⟩ :=
      (others _ sound.1.lookahead same).spelled (kept.take sound) (by simp) clean
    refine ⟨state.token.words ++ words, ?_, spelled⟩
    rw [advance_words grammar legible sound.1, split, List.append_assoc]

theorem advance : Traces context tokens seen advance fun terminal words =>
    Known context tokens terminal ∧ (∀ token ∈ seen, terminal = token) ∧ words = terminal.words := by
  have taken : Traces context tokens seen (ParseM.advance >>= fun terminal => pure terminal)
      fun terminal words =>
        Known context tokens terminal ∧ (∀ token ∈ seen, terminal = token) ∧ words = terminal.words :=
    take grammar lexical legible fun terminal known same =>
      .value ⟨known, same, List.append_nil _⟩
  simpa only [bind_pure] using taken

theorem expect (id : String) : Traces context tokens seen (expect id) fun terminal words =>
    Known context tokens terminal ∧ (∀ token ∈ seen, terminal = token) ∧ terminal.id = id ∧
      words = terminal.words := by
  unfold ParseM.expect
  refine .look fun token known same => .require _ rfl _ ?_
  refine (advance grammar lexical legible).imp ?_
  rintro terminal words ⟨_, taken, rfl⟩ met
  obtain rfl := taken token rfl
  exact ⟨known, same, by simpa using met, rfl⟩

end Words

end Traces

end ParseM

end Adventure
