import Adventure.Proofs.Exports
import Adventure.Proofs.Impartiality
import Adventure.Proofs.Undefined

/-!
Resolution. Whether the names of a document are looked up with the document or later makes no difference:
what is read does not depend on it. Every import takes away the warnings about the names that its top level
declares, and those are names that its own statements introduce there.
-/

namespace Adventure

def Diagnostic.settledBy (diagnostic : Diagnostic) (documents : List Document) : Bool :=
  match diagnostic.problem with
  | .undefined name => documents.any (·.scopes.root.declares name)
  | _ => false

namespace Document

open ParseM

theorem ofRun_withOptions (grammar : Grammar) (options others : Options) (source : String)
    (limit : others.maxDepth = options.maxDepth) :
    ofRun (run grammar others source) = ofRun (run grammar options source) := by
  obtain ⟨events, started⟩ := start_withOptions (context grammar options source) others (tokens source)
  obtain ⟨logged, ran⟩ := (@Composed.statements _ none).impartially options.maxDepth
    (context grammar options source) others [] events
    (ParseState.start (context grammar options source) (tokens source)) limit
  have moved : (context grammar options source).withOptions others = context grammar others source := rfl
  rw [← started, moved] at ran
  rw [run_eq, run_eq, limit, ran, ofRun_following, List.nil_append]

variable (options : Options) (source : String) (document : Document) (imports others : List Document)

theorem diagnostics_parse_analyze :
    (parse Grammar.standard { options with analyze := true } source).diagnostics =
      (parse Grammar.standard { options with analyze := false } source).diagnostics ++
        (parse Grammar.standard { options with analyze := false } source).resolveAcross [] options := by
  have same := ofRun_withOptions Grammar.standard { options with analyze := false }
    { options with analyze := true } source rfl
  have diagnostics := congrArg Document.diagnostics same
  simp only [ofRun] at diagnostics
  rw [diagnostics_parse, diagnostics_parse, same, diagnostics]
  simp only [parse, analyzed, if_true, Bool.false_eq_true, if_false, List.append_nil]
  rfl

theorem resolveAcross_append :
    document.resolveAcross (imports ++ others) options =
      (document.resolveAcross imports options).filter (!·.settledBy others) := by
  unfold resolveAcross Occurrence.resolve
  rw [List.filter_map, List.filter_filter]
  congr 1
  apply List.filter_congr
  intro occurrence _
  have settled : (Occurrence.undefined occurrence).settledBy others =
      (others.map (·.scopes.root)).any (·.declares occurrence.name) := by
    simp [Diagnostic.settledBy, Occurrence.undefined, List.any_map, Function.comp_def]
  simp only [Function.comp_apply, settled, Occurrence.isUnresolved, List.map_append, List.any_append,
    Bool.not_or]
  grind

/-- Only which imports there are makes a difference. -/
theorem resolveAcross_congr (same : ∀ imported, imported ∈ imports ↔ imported ∈ others) :
    document.resolveAcross imports options = document.resolveAcross others options := by
  unfold resolveAcross Occurrence.resolve
  congr 1
  apply List.filter_congr
  intro occurrence _
  have declared : (imports.map (·.scopes.root)).any (·.declares occurrence.name) =
      (others.map (·.scopes.root)).any (·.declares occurrence.name) := by
    rw [Bool.eq_iff_iff]
    simp [same]
  rw [Occurrence.isUnresolved, declared, Occurrence.isUnresolved]

theorem run_exports :
    Exports (context Grammar.standard options source) (tokens source) 0
      ((run Grammar.standard options source).1.flatMap Stmt.introduced)
      (run Grammar.standard options source).2 := by
  have lexical := tokens_lexical source
  have started := @start_exports (context Grammar.standard options source) (tokens source) rfl lexical
  rw [run_eq]
  exact statements_exports rfl lexical started options.maxDepth

theorem introduced_of_declares {name : String}
    (declares : (parse Grammar.standard options source).scopes.root.declares name = true) :
    ∃ statement ∈ (parse Grammar.standard options source).statements, name ∈ statement.introduced := by
  have final := run_exports options source
  obtain ⟨root, present⟩ := ScopeTree.get?_of_lt final.standing.grounded.rooted.nonempty
  rw [parse, scopes_analyzed, ofRun, ScopeTree.root, present] at declares
  rw [parse_statements]
  exact List.mem_flatMap.mp (final.only name ⟨root, present, declares⟩)

/-- The names of a document can be looked up with it or afterwards; the warnings are the same. Imports
take away those about the names that they declare at their top, so there are never more of them with more
imported documents, and neither order nor repetition counts. What a document declares at its top is what
the statements there introduce: no name inside of its functions, classes or blocks. -/
theorem parse_resolution :
    (∀ source, (parse Grammar.standard { options with analyze := true } source).diagnostics =
        (parse Grammar.standard { options with analyze := false } source).diagnostics ++
          (parse Grammar.standard { options with analyze := false } source).resolveAcross [] options) ∧
      (∀ document imports others,
        resolveAcross document (imports ++ others) options =
            (document.resolveAcross imports options).filter (!·.settledBy others) ∧
          (document.resolveAcross (imports ++ others) options).Sublist
            (document.resolveAcross imports options)) ∧
      (∀ document imports others, (∀ imported, imported ∈ imports ↔ imported ∈ others) →
        resolveAcross document imports options = document.resolveAcross others options) ∧
      ∀ settings source name,
        (parse Grammar.standard settings source).scopes.root.declares name = true →
          ∃ statement ∈ (parse Grammar.standard settings source).statements,
            name ∈ statement.introduced := by
  refine ⟨diagnostics_parse_analyze options, fun document imports others => ?_,
    resolveAcross_congr options, fun settings source name => introduced_of_declares settings source⟩
  have settles := resolveAcross_append options document imports others
  refine ⟨settles, ?_⟩
  rw [settles]
  exact List.filter_sublist

theorem parse_resolution_score :
    let score := parse Grammar.standard Options.default "int score;"
    let other := parse Grammar.standard Options.default "f(score);"
    other.resolveAcross [score, other] Options.default =
        other.resolveAcross [other, score, score] Options.default ∧
      score.scopes.root.declares "score" = true ∧
      ∃ statement ∈ score.statements, "score" ∈ statement.introduced := by
  intro score other
  obtain ⟨_, _, unordered, declared⟩ := parse_resolution Options.default
  have same (imported : Document) : imported ∈ [score, other] ↔ imported ∈ [other, score, score] := by
    simp only [List.mem_cons, List.not_mem_nil, or_false, or_self]
    exact or_comm
  have declares : score.scopes.root.declares "score" = true := by decide +kernel
  have introduces := declared Options.default "int score;" "score" declares
  exact ⟨unordered other [score, other] [other, score, score] same, declares, introduces⟩

end Document

end Adventure
