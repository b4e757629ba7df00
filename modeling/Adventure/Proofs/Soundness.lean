import Adventure.Proofs.Passing
import Adventure.Proofs.StatementTraces

/-!
Nothing is dropped and nothing is made up. A document without errors is written with the words of its source,
all of them and in their order.
-/

namespace Adventure

theorem Token.severity_of_complaints (grammar : Grammar) (token : Token) :
    ∀ diagnostic ∈ token.complaints grammar, diagnostic.severity = .error := by
  unfold complaints
  split
  · simp
  · split <;> simp
  · split <;> simp
  · simp

namespace ParseM

variable {context : Context} {tokens : List Token}

theorem start_words (grammar : context.grammar = Grammar.standard)
    (legible : ∀ token ∈ tokens, token.complaints Grammar.standard = []) :
    (ParseState.start context tokens).words = Token.words tokens := by
  obtain ⟨terminal, passed, pending, events, start, split, arrival⟩ := @start_eq context tokens
  have words := arrival.words grammar fun token member => legible token (by simp [split, member])
  rw [start, ParseState.words, ParseState.ahead, Token.words_append, ← words, ← Token.words_append, split]

theorem start_sound (grammar : context.grammar = Grammar.standard)
    (lexical : ∀ token ∈ tokens, token.Lexical) :
    Sound context tokens (ParseState.start context tokens) := by
  refine ⟨start_understood grammar lexical, fun reported => ?_⟩
  have none : (ParseState.start context tokens).depthReported = false := (start_adds tokens).depthReported
  simp [none] at reported

end ParseM

namespace Document

open ParseM

theorem run_clean {options : Options} {source : String}
    (clean : (parse Grammar.standard options source).hasErrors = false) :
    ¬ Faulty (run Grammar.standard options source).2 := by
  rw [faulty_iff]
  rw [hasErrors, diagnostics_parse, Diagnostics.hasErrors_append, Bool.or_eq_false_iff] at clean
  simp [clean.1]

theorem legible_of_clean {options : Options} {source : String}
    (clean : ¬ Faulty (run Grammar.standard options source).2) :
    ∀ token ∈ tokens source, token.complaints Grammar.standard = [] := by
  intro token member
  refine List.eq_nil_iff_forall_not_mem.mpr fun diagnostic complaint => clean ⟨diagnostic, ?_, ?_⟩
  · have lexical := (run_passes Grammar.standard options source).lexical
    have reported : diagnostic ∈ (run Grammar.standard options source).2.diagnostics.lexical := by
      rw [lexical]
      exact List.mem_append_right _ (List.mem_flatMap.mpr ⟨token, member, complaint⟩)
    exact (List.mem_filter.mp reported).1
  · exact token.severity_of_complaints Grammar.standard diagnostic complaint

/-- If no error is reported, the tree is written with the words of the source: each of them stands in it
in its place, and it has no part that was not read. -/
theorem parse_written_back (options : Options) (source : String)
    (clean : (parse Grammar.standard options source).hasErrors = false) :
    Written options.maxDepth (.body (parse Grammar.standard options source).statements)
      (Token.words (tokens source)) := by
  have clean := run_clean clean
  have legible := legible_of_clean clean
  have grammar : (context Grammar.standard options source).grammar = Grammar.standard := rfl
  have lexical := tokens_lexical source
  have traces := statements_traces grammar lexical legible options.maxDepth
  have sound := start_sound grammar lexical
  obtain ⟨words, split, written⟩ := traces.spelled sound (by simp) clean
  have nothing : (run Grammar.standard options source).2.words = [] := by
    have ended : (run Grammar.standard options source).2.remaining = 0 :=
      run_reached.endKnown.remaining run_token_isEnd
    rw [ParseState.words, List.length_eq_zero_iff.mp ended]
    rfl
  have all : (ParseState.start (context Grammar.standard options source) (tokens source)).words =
      words ++ (run Grammar.standard options source).2.words := split
  rw [start_words grammar legible, nothing, List.append_nil] at all
  have made : (parse Grammar.standard options source).statements =
      (run Grammar.standard options source).1 := by
    simp only [parse, statements_analyzed, ofRun]
  rw [all, made]
  exact written

theorem parse_written_back_call :
    (parse Grammar.standard Options.default "f((x)); // twice").hasErrors = false ∧
      Written Options.default.maxDepth
        (.body (parse Grammar.standard Options.default "f((x)); // twice").statements)
        (Token.words (tokens "f((x)); // twice")) := by
  have clean : (parse Grammar.standard Options.default "f((x)); // twice").hasErrors = false := by
    decide +kernel
  exact ⟨clean, parse_written_back Options.default "f((x)); // twice" clean⟩

end Document

end Adventure
