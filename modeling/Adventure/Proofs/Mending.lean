import Adventure.Proofs.Omissions
import Adventure.Proofs.Statements

/-!
Reading of a program that lacks some of its `;`. Each that is missing is reported where it was to be read,
at the word before it, and reading goes on as if it had been there.
-/

namespace Adventure

open Word

namespace Diagnostics

def errors (reported : Diagnostics) : Diagnostics := reported.filter (·.severity == .error)

theorem errors_append (first second : Diagnostics) :
    errors (first ++ second) = first.errors ++ second.errors :=
  List.filter_append ..

theorem errors_eq_nil {reported : Diagnostics} (silent : reported.hasErrors = false) :
    reported.errors = [] := by
  unfold hasErrors at silent
  rw [List.any_eq_false] at silent
  exact List.filter_eq_nil_iff.mpr silent

end Diagnostics

namespace Word

theorem power_of_resumes {word : Word} (resumes : word.resumes = true) :
    word.denotations.power = 0 := by
  have idle := @Grammar.denotations_induction Grammar.standard
    (fun _ denotations => denotations.statement?.isSome = true → denotations.power = 0)
    (fun _ => by simp) (by decide)
  simp only [Word.resumes, Bool.or_eq_true, beq_iff_eq] at resumes
  rcases resumes with acts | rfl
  · obtain ⟨form, starts⟩ := Option.isSome_iff_exists.mp acts
    obtain ⟨id, same⟩ := exists_denotations (isFree_of_statement? starts)
    rw [same] at acts ⊢
    exact idle id acts
  · decide

theorem id_ne_of_resumes {word : Word} {other : String} (resumes : word.resumes = true)
    (member : other ∈ [";", ",", "(", "else"]) : word.id ≠ other := by
  have facts : ∀ other ∈ [";", ",", "(", "else"],
      (Grammar.standard.denotations other).statement? = none ∧ "\x7d" ≠ other ∧
        other ≠ "(name)" ∧ other ≠ "(literal)" := by decide
  obtain ⟨idle, brace, named, literal⟩ := facts other member
  intro same
  simp only [Word.resumes, Bool.or_eq_true, beq_iff_eq] at resumes
  rcases resumes with acts | rfl
  · rw [denotations_of_id same named literal, idle] at acts
    cases acts
  · exact brace same

end Word

namespace ParseM

/-- Of `words` those that were not dropped are ahead, and `due` are the errors that were reported and those
that are to be. -/
structure Stands (context : Context) (dropped : Nat → Bool) (due : Diagnostics) (words : List Word)
    (state : ParseState) : Prop extends Settled context state where
  omits : Omits dropped words
  ahead : state.words = kept dropped words
  reports : state.diagnostics.errors ++ missing dropped state.trail words = due

/-- Where the words of `before` are ahead but for those that were dropped, `action` reads up to `after`, and
reports what was dropped in between. -/
def Mends {α : Type} (context : Context) (dropped : Nat → Bool) (action : ParseM α)
    (before after : List Word) (property : α → Prop) : Prop :=
  ∀ due state, Stands context dropped due before state →
    ∃ value final, action.run context state = (value, final) ∧
      Stands context dropped due after final ∧ property value

variable {context : Context} {dropped : Nat → Bool} {α β : Type}

theorem trail_length (state : ParseState) : state.trail.length = state.words.length + 1 := by
  simp [ParseState.trail, ParseState.words, Token.words]

theorem expect_reads (text : String) (rest : List Word) :
    Reads context (ParseM.expect text) (mark text :: rest) rest (Mild fun _ => True) := by
  apply (Reads.expect (id_mark text)).imp
  intro terminal found quiet
  exact ⟨trivial, quiet.mild.2⟩

theorem Stands.reads {action : ParseM α} {property : α → Prop} {words rest : List Word}
    {due : Diagnostics} {state : ParseState} (stands : Stands context dropped due (words ++ rest) state)
    (untouched : ∀ before word after, words = before ++ word :: after →
      dropped (after ++ rest).length = false) (apart : words.getLast? ≠ some (mark "."))
    (reads : Omits dropped rest →
      Reads context action (words ++ kept dropped rest) (kept dropped rest) (Mild property)) :
    ∃ value final, action.run context state = (value, final) ∧
      Stands context dropped due rest final ∧ property value := by
  have omits := stands.omits.suffix apart
  have ahead := stands.ahead
  rw [kept_append untouched] at ahead
  obtain ⟨value, final, found, ran, brings, ahead', told, holds, silent⟩ :=
    reads omits state stands.toSettled ahead
  have trail : final.trail = state.trail.drop words.length := by
    have same := List.suffix_iff_eq_drop.mp brings.trail
    have lengths : state.trail.length - final.trail.length = words.length := by
      rw [trail_length, trail_length, ahead, ahead', List.length_append]
      omega
    rw [lengths] at same
    exact same
  refine ⟨value, final, ran, ⟨brings.toSettled, omits, ahead', ?_⟩, holds⟩
  have reports := stands.reports
  rw [missing_append untouched, ← trail] at reports
  rw [told, Diagnostics.errors_append, Diagnostics.errors_eq_nil silent, List.append_nil]
  exact reports

namespace Mends

variable {action : ParseM α} {next : α → ParseM β} {before middle after rest words : List Word}
  {word : Word} {property : α → Prop} {property' : β → Prop}

theorem value {value : α} (holds : property value) :
    Mends context dropped (pure value) before before property := by
  intro due state stands
  exact ⟨value, state, rfl, stands, holds⟩

theorem bind (first : Mends context dropped action before middle property)
    (second : ∀ value, property value → Mends context dropped (next value) middle after property') :
    Mends context dropped (action >>= next) before after property' := by
  intro due state stands
  obtain ⟨value, between, ran, stands', holds⟩ := first due state stands
  obtain ⟨last, final, ran', stands'', holds'⟩ := second value holds due between stands'
  refine ⟨last, final, ?_, stands'', holds'⟩
  rw [run_bind_of_eq ran, ran']

theorem of_reads (tidy : Tidy words) (reads : Omits dropped rest →
    Reads context action (words ++ kept dropped rest) (kept dropped rest) (Mild property)) :
    Mends context dropped action (words ++ rest) rest property := by
  intro due state stands
  exact stands.reads (stands.omits.untouched tidy.1) tidy.2 reads

theorem aside (reads : ∀ before, Reads context action before before (Mild property)) :
    Mends context dropped action before before property :=
  @of_reads context dropped α action before [] property tidy_nil fun _ => reads _

theorem single (tidy : word.isTidy = true)
    (reads : ∀ rest, Reads context action (word :: rest) rest (Mild property)) :
    Mends context dropped action (word :: rest) rest property :=
  @of_reads context dropped α action rest [word] property (tidy_singleton tidy) fun _ => reads _

theorem upTo (tidy : Tidy words) (other : word ≠ mark ";")
    (reads : ∀ rest, Reads context action (words ++ word :: rest) (word :: rest) (Mild property)) :
    Mends context dropped action (words ++ word :: rest) (word :: rest) property := by
  apply of_reads tidy
  intro omits
  rw [omits.kept_cons other]
  exact reads _

theorem current {next : Terminal → ParseM α}
    (mends : ∀ terminal, Omits dropped before → Faces context terminal (kept dropped before) →
      Mends context dropped (next terminal) before after property) :
    Mends context dropped (ParseM.current >>= next) before after property := by
  intro due state stands
  have faces := stands.faces
  rw [stands.ahead] at faces
  rw [run_current_bind]
  exact mends state.token stands.omits faces due state stands

theorem facing {next : Terminal → ParseM α} (other : word ≠ mark ";")
    (mends : ∀ terminal : Terminal, terminal.Fits word →
      Mends context dropped (next terminal) (word :: rest) after property) :
    Mends context dropped (ParseM.current >>= next) (word :: rest) after property := by
  apply current
  intro terminal omits faces
  rw [omits.kept_cons other] at faces
  exact mends terminal faces

theorem expect {text : String} (tidy : (mark text).isTidy = true) :
    Mends context dropped (ParseM.expect text) (mark text :: rest) rest fun _ => True := by
  apply single tidy
  exact expect_reads text

theorem stop {again : Terminal → Bool} {body : α → ParseM α} {start : α}
    (past : Omits dropped before → ∀ terminal, Faces context terminal (kept dropped before) →
      (!terminal.isEnd && again terminal) = false) (holds : property start) :
    Mends context dropped (whileToken again body start) before before property := by
  intro due state stands
  have faces := stands.faces
  rw [stands.ahead] at faces
  exact ⟨start, state, whileToken_stop start (past stands.omits state.token faces), stands, holds⟩

theorem round {again : Terminal → Bool} {body : α → ParseM α} {start : α}
    (advances : Advances context again body) (other : word ≠ mark ";")
    (goesOn : ∀ terminal, terminal.Fits word → again terminal = true)
    (mends : Mends context dropped (body start >>= whileToken again body) (word :: rest) after property) :
    Mends context dropped (whileToken again body start) (word :: rest) after property := by
  intro due state stands
  have faces := stands.faces
  rw [stands.ahead, stands.omits.kept_cons other] at faces
  rw [whileToken_round advances start faces.isEnd (goesOn state.token faces)]
  exact mends due state stands

end Mends

/-! ## The ends of statements -/

theorem resumes_of_dropped {rest : List Word} (omits : Omits dropped (mark ";" :: rest))
    (drops : dropped rest.length = true) : ∀ word ∈ (kept dropped rest).head?, word.resumes = true := by
  intro word member
  have follows := (omits [] (mark ";") rest rfl drops).2.2
  cases rest with
  | nil => cases member
  | cons next others =>
      have resumes := follows next rfl
      have other : next ≠ mark ";" := by
        rintro rfl
        exact id_ne_of_resumes resumes (by decide) (id_mark ";")
      have later := @Omits.suffix dropped [mark ";"] (next :: others) omits (by decide)
      rw [later.kept_cons other] at member
      obtain rfl := Option.some.inj member
      exact resumes

theorem ending {rest : List Word} (omits : Omits dropped (mark ";" :: rest)) :
    ∀ word ∈ (kept dropped (mark ";" :: rest)).head?, word = mark ";" ∨ word.resumes = true := by
  intro word member
  rw [kept] at member
  by_cases drops : dropped rest.length = true
  · rw [if_pos drops] at member
    exact .inr (resumes_of_dropped omits drops word member)
  · rw [if_neg drops] at member
    obtain rfl := Option.some.inj member
    exact .inl rfl

theorem limit_of_ending {words : List Word}
    (ending : ∀ word ∈ words.head?, word = mark ";" ∨ word.resumes = true) : limit words = 0 := by
  cases words with
  | nil => rfl
  | cons word others =>
      rcases ending word rfl with rfl | resumes
      · exact closing_limit ";" (by decide)
      · exact power_of_resumes resumes

theorem id_ne_of_ending {words : List Word} {terminal : Terminal} {other : String}
    (ending : ∀ word ∈ words.head?, word = mark ";" ∨ word.resumes = true)
    (faces : Faces context terminal words) (member : other ∈ [",", "("]) : terminal.id ≠ other := by
  cases words with
  | nil =>
      have ended : terminal = endTerminal context := faces
      have apart : ∀ other ∈ [",", "("], "(end)" ≠ other := by decide
      rw [ended]
      exact apart other member
  | cons word others =>
      rw [Terminal.Fits.id faces]
      rcases ending word rfl with rfl | resumes
      · have apart : ∀ other ∈ [",", "("], ";" ≠ other := by decide
        exact apart other member
      · have among : ∀ other ∈ [",", "("], other ∈ [";", ",", "(", "else"] := by decide
        exact id_ne_of_resumes resumes (among other member)

theorem stays_of_goesOn {rest : List Word} (omits : Omits dropped (mark ";" :: rest))
    (goesOn : ∃ next ∈ rest.head?, next.resumes = false) : dropped rest.length = false := by
  obtain ⟨next, member, other⟩ := goesOn
  by_contra drops
  have resumes := (omits [] (mark ";") rest rfl (by simpa using drops)).2.2 next member
  simp [other] at resumes

theorem untouched_singleton {single : Word} {rest : List Word} (stays : dropped rest.length = false) :
    ∀ before word after, [single] = before ++ word :: after → dropped (after ++ rest).length = false := by
  intro before word after split
  cases before with
  | nil =>
      obtain ⟨_, rfl⟩ := List.cons.inj split
      exact stays
  | cons first before => simp at split

theorem Mends.expectSemicolon {rest : List Word} :
    Mends context dropped ParseM.expectSemicolon (mark ";" :: rest) rest fun _ => True := by
  intro due state stands
  by_cases drops : dropped rest.length = true
  · have ahead := stands.ahead
    rw [kept, if_pos drops] at ahead
    have faces := stands.faces
    rw [ahead] at faces
    have here : state.token.id ≠ ";" := by
      have resumes := resumes_of_dropped stands.omits drops
      cases next : kept dropped rest with
      | nil =>
          rw [next] at faces
          have ended : state.token = endTerminal context := faces
          have id : (endTerminal context).id = "(end)" := rfl
          rw [ended, id]
          decide
      | cons word others =>
          rw [next] at faces resumes
          rw [Terminal.Fits.id faces]
          exact id_ne_of_resumes (resumes word rfl) (by decide)
    have reports := stands.reports
    rw [ParseState.trail, missing, if_pos drops] at reports
    let lacking : Diagnostic := ⟨.missingSemicolon, state.previousSpan, .error⟩
    let final := { state with diagnostics := state.diagnostics ++ [lacking] }
    have ran : ParseM.expectSemicolon.run context state = ((), final) := by
      simp [ParseM.expectSemicolon, here, final, lacking]
    refine ⟨(), final, ran, ⟨stands.of_eq rfl rfl rfl, ?_, ahead, ?_⟩, trivial⟩
    · exact @Omits.suffix dropped [mark ";"] rest stands.omits (by decide)
    · rw [Diagnostics.errors_append, List.append_assoc]
      exact reports
  · have untouched := @untouched_singleton dropped (mark ";") rest (by simpa using drops)
    apply @Stands.reads context dropped Unit _ _ [mark ";"] rest due state stands untouched (by decide)
    intro omits
    exact Reads.expectSemicolon.calm

theorem Mends.expectBetween {rest : List Word} (goesOn : ∃ next ∈ rest.head?, next.resumes = false) :
    Mends context dropped (ParseM.expect ";") (mark ";" :: rest) rest fun _ => True := by
  intro due state stands
  have untouched := @untouched_singleton dropped (mark ";") rest (stays_of_goesOn stands.omits goesOn)
  apply @Stands.reads context dropped _ _ _ [mark ";"] rest due state stands untouched (by decide)
  intro omits
  exact expect_reads ";" _

end ParseM

end Adventure
