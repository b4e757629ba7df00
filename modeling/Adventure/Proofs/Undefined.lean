import Adventure.Proofs.Declarations
import Adventure.Proofs.Limits
import Adventure.Proofs.Occurrences

/-!
Warnings about undefined names. There is one for each occurrence that nothing in reach binds, and none
for a name that a statement of the document introduces, wherever the name stands.
-/

namespace Adventure

def Problem.isUndefined : Problem → Bool
  | .undefined _ => true
  | _ => false

namespace ScopeTree

variable {tree : ScopeTree} {scope : Nat} {name : String}

theorem Binds.of_root (rooted : Rooted tree) (bound : Binds tree name 0) (present : scope < tree.size) :
    Binds tree name scope := by
  induction scope using Nat.strongRecOn with
  | ind scope ih =>
      obtain ⟨found, there⟩ := get?_of_lt present
      cases inside : found.parent? with
      | none =>
          rw [(rooted.parent?_eq_none_iff there).mp inside]
          exact bound
      | some parent =>
          have lower := rooted.parent_lt there inside
          exact .outer there inside (ih parent lower (by omega))

end ScopeTree

namespace Occurrence

variable {scopes : ScopeTree} {occurrences : List Occurrence} {grammar : Grammar} {options : Options}

theorem analyze_sublist :
    (analyze scopes occurrences grammar options).Sublist (occurrences.map undefined) :=
  List.filter_sublist.map undefined

theorem mem_analyze (rooted : ScopeTree.Rooted scopes) {diagnostic : Diagnostic} :
    diagnostic ∈ analyze scopes occurrences grammar options ↔
      ∃ occurrence ∈ occurrences, diagnostic = occurrence.undefined ∧
        ¬ scopes.Binds occurrence.name occurrence.scope ∧
        grammar.get? occurrence.name = none ∧ options.isIntrinsic occurrence.name = false := by
  have unresolved (occurrence : Occurrence) :
      occurrence.isUnresolved scopes grammar options [] = true ↔
        (¬ scopes.Binds occurrence.name occurrence.scope ∧ grammar.get? occurrence.name = none) ∧
          options.isIntrinsic occurrence.name = false := by
    rw [← ScopeTree.find_isUndefined_iff rooted]
    simp [isUnresolved]
  simp only [analyze, resolve, List.mem_map, List.mem_filter, unresolved]
  constructor
  · rintro ⟨occurrence, ⟨member, ⟨unbound, unknown⟩, other⟩, rfl⟩
    exact ⟨occurrence, member, rfl, unbound, unknown, other⟩
  · rintro ⟨occurrence, member, rfl, unbound, unknown, other⟩
    exact ⟨occurrence, ⟨member, ⟨unbound, unknown⟩, other⟩, rfl⟩

end Occurrence

namespace ParseM

variable {context : Context} {tokens : List Token} {state : ParseState}

/-- While a document is read, no name is reported as undefined yet. -/
def Unresolved (state : ParseState) : Prop :=
  ∀ diagnostic ∈ state.diagnostics, diagnostic.problem.isUndefined = false

theorem Adds.unresolved {before after : ParseState} (adds : Adds before after)
    (unresolved : Unresolved before) : Unresolved after := by
  obtain ⟨_, added, grown, isLocal⟩ := adds
  intro diagnostic member
  rw [grown, List.mem_append] at member
  rcases member with old | new
  · exact unresolved diagnostic old
  · have other := isLocal diagnostic new
    cases problem : diagnostic.problem <;> simp_all [Problem.isLocal, Problem.isUndefined]

theorem unresolved_kept : Keeps context (fun _ => True) Unresolved := by
  refine .of_adds Adds.unresolved fun {state} unresolved => ?_
  refine (refuse_adds state).unresolved ?_
  rw [reportDepth_run]
  split
  · exact unresolved
  · intro diagnostic member
    rcases List.mem_append.mp member with old | new
    · exact unresolved diagnostic old
    · rw [List.mem_singleton.mp new]
      rfl

end ParseM

namespace Document

open ParseM

variable (options : Options) (source : String)

theorem run_eq (grammar : Grammar) :
    run grammar options source =
      (ParseM.statements (statement options.maxDepth)).run (context grammar options source)
        (ParseState.start (context grammar options source) (tokens source)) := rfl

theorem run_introduces :
    Introduces (context Grammar.standard options source) (tokens source) 0
      ((run Grammar.standard options source).1.flatMap Stmt.introduced)
      (run Grammar.standard options source).2 := by
  have lexical := tokens_lexical source
  have standing := @start_standing (context Grammar.standard options source) (tokens source) rfl lexical
  rw [run_eq]
  exact statements_introduces lexical rfl standing options.maxDepth

theorem run_noted : Noted (tokens source) (run Grammar.standard options source).2 := by
  have lexical := tokens_lexical source
  have standing := @start_standing (context Grammar.standard options source) (tokens source) rfl lexical
  have noted := @start_noted (context Grammar.standard options source) (tokens source) rfl lexical
  have keeps := @noted_kept (context Grammar.standard options source) (tokens source) rfl lexical
  rw [run_eq]
  exact (keeps.reader .statements options.maxDepth
    ⟨⟨standing.understood, standing.grounded⟩, noted⟩).2

theorem run_unresolved (grammar : Grammar) :
    Unresolved (run grammar options source).2 := by
  have start : Unresolved (ParseState.start (context grammar options source) (tokens source)) :=
    (start_adds (tokens source)).unresolved (by simp [Unresolved, blank])
  rw [run_eq]
  exact unresolved_kept.reader .statements options.maxDepth start

theorem parse_occurrences (grammar : Grammar) :
    (parse grammar options source).occurrences = (run grammar options source).2.occurrences := by
  rw [parse, occurrences_analyzed, ofRun]

theorem parse_statements (grammar : Grammar) :
    (parse grammar options source).statements = (run grammar options source).1 := by
  rw [parse, statements_analyzed, ofRun]

theorem filter_isUndefined (grammar : Grammar) :
    (parse grammar options source).diagnostics.filter (·.problem.isUndefined) =
      if options.analyze then
        Occurrence.analyze (run grammar options source).2.scopes
          (run grammar options source).2.occurrences grammar options
      else [] := by
  have unresolved := run_unresolved options source grammar
  have first : (run grammar options source).2.diagnostics.filter (·.problem.isUndefined) = [] := by
    rw [List.filter_eq_nil_iff]
    intro diagnostic member
    simp [unresolved diagnostic member]
  rw [diagnostics_parse, List.filter_append, first, List.nil_append, undefinedNames, ofRun]
  split
  · rw [List.filter_eq_self]
    intro diagnostic member
    obtain ⟨occurrence, _, rfl⟩ := List.mem_map.mp member
    rfl
  · rfl

/-- Names are noted in the order of the source, and each place of a name once at most; a name is
reported as undefined only if no scope on the way outwards from its own binds it in the end, which is
never so for a name that a statement of the document introduces. -/
theorem parse_undefined :
    ((parse Grammar.standard options source).occurrences.map Occurrence.token).Sublist
        (tokens source) ∧
      let document := parse Grammar.standard options source
      document.occurrences.Pairwise (·.span.start.Precedes ·.span.start) ∧
      (∀ occurrence ∈ document.occurrences, occurrence.scope < document.scopes.size) ∧
      (document.diagnostics.filter (·.problem.isUndefined)).Sublist
        (document.occurrences.map Occurrence.undefined) ∧
      (∀ diagnostic ∈ document.diagnostics, diagnostic.problem.isUndefined = true →
        ∃ occurrence ∈ document.occurrences, diagnostic = occurrence.undefined ∧
          ¬ document.scopes.Binds occurrence.name occurrence.scope) ∧
      ∀ statement ∈ document.statements, ∀ name ∈ statement.introduced,
        ∀ diagnostic ∈ document.diagnostics, diagnostic.problem ≠ .undefined name := by
  have noted := run_noted options source
  have introduces := run_introduces options source
  have rooted := introduces.standing.grounded.rooted
  obtain ⟨consumed, split, sublist⟩ := noted.consumed
  have inOrder : ((run Grammar.standard options source).2.occurrences.map Occurrence.token).Sublist
      (tokens source) := by
    rw [split]
    exact sublist.trans (List.sublist_append_left _ _)
  have ordered := (tokens_ordered source).sublist inOrder
  -- Every such report stems from an occurrence that nothing binds in the end.
  have stems (diagnostic : Diagnostic)
      (member : diagnostic ∈ (parse Grammar.standard options source).diagnostics)
      (undefined : diagnostic.problem.isUndefined = true) :
      ∃ occurrence ∈ (run Grammar.standard options source).2.occurrences,
        diagnostic = occurrence.undefined ∧
          ¬ (run Grammar.standard options source).2.scopes.Binds occurrence.name occurrence.scope ∧
          Grammar.standard.get? occurrence.name = none := by
    have among : diagnostic ∈
        (parse Grammar.standard options source).diagnostics.filter (·.problem.isUndefined) :=
      List.mem_filter.mpr ⟨member, undefined⟩
    rw [filter_isUndefined] at among
    split at among
    · obtain ⟨occurrence, present, same, unbound, unknown, _⟩ := (Occurrence.mem_analyze rooted).mp among
      exact ⟨occurrence, present, same, unbound, unknown⟩
    · cases among
  simp only [parse_occurrences, parse_scopes, parse_statements]
  refine ⟨inOrder, (List.pairwise_map.mp ordered :), noted.scopes, ?_, ?_, ?_⟩
  · rw [filter_isUndefined]
    split
    · exact Occurrence.analyze_sublist
    · exact List.nil_sublist _
  · intro diagnostic member undefined
    obtain ⟨occurrence, present, same, unbound, _⟩ := stems diagnostic member undefined
    exact ⟨occurrence, present, same, unbound⟩
  -- What is introduced is bound at the root, and so from every place where it could be noted.
  · intro statement stated name introduced diagnostic member problem
    obtain ⟨occurrence, present, same, unbound, unknown⟩ :=
      stems diagnostic member (by rw [problem]; rfl)
    have read : occurrence.name = name := by
      rw [same] at problem
      exact Problem.undefined.inj problem
    have token : occurrence.token ∈ tokens source :=
      inOrder.subset (List.mem_map_of_mem present)
    have text : Word.isNameText occurrence.name = true :=
      ((tokens_lexical source) occurrence.token token).name_iff.mpr rfl
    have supplied := introduces.supplied name
      (List.mem_flatMap.mpr ⟨statement, stated, introduced⟩)
    obtain ⟨found, root, bound⟩ := supplied (read ▸ text) (read ▸ unknown)
    rw [read] at unbound
    exact unbound (ScopeTree.Binds.of_root rooted (.here root bound) (noted.scopes occurrence present))

end Document

end Adventure
