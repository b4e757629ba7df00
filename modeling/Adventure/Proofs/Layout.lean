import Adventure.Proofs.Forgetting
import Adventure.Proofs.Positions
import Adventure.Proofs.StatementNaturality

/-!
Layout. What a document reads as depends on its significant tokens alone. Blanks, comments and directives
between them only change where things stand, and everything stands where a significant token does, or
at the end.
-/

namespace Adventure

open ParseM

/-! ## Places -/

def places (source : String) : List Span :=
  ((tokens source).filter Token.isSignificant).map (·.span) ++
    [Span.at (Cursor.ofSource source).readAll.2.position]

theorem Position.Precedes.ne {first second : Position} (before : first.Precedes second) :
    first ≠ second := by
  rintro rfl
  unfold Precedes at before
  omega

theorem token_span_nonempty {source : String} {token : Token} (member : token ∈ tokens source) :
    token.span.start.Precedes token.span.stop := by
  obtain ⟨before, after, split⟩ := List.append_of_mem member
  have nonempty : token.text.toList ≠ [] := by
    simpa using (tokens_cover source).nonempty token member
  rw [(tokens_placed split).stop]
  exact Position.precedes_afterAll _ nonempty

theorem places_nodup (source : String) : (places source).Nodup := by
  have ordered : ((tokens source).filter Token.isSignificant).Pairwise (·.span ≠ ·.span) :=
    (tokens_ordered source).filter _ |>.imp fun before same => before.ne (congrArg Span.start same)
  refine List.nodup_append.mpr ⟨List.pairwise_map.mpr ordered, by simp, ?_⟩
  intro span member finish last same
  obtain ⟨token, found, rfl⟩ := List.mem_map.mp member
  have nonempty := (token_span_nonempty (List.mem_filter.mp found).1).ne
  rw [same, List.mem_singleton.mp last] at nonempty
  exact nonempty rfl

namespace Document

variable {place : Span → Span} {here there : Context}

/-! ## Reading at other places -/

def ofTokens (context : Context) (tokens : List Token) : Document :=
  (ofRun ((ParseM.statements (statement context.options.maxDepth)).run context
    (ParseState.start context tokens))).analyzed context.grammar context.options

theorem parse_eq_ofTokens (grammar : Grammar) (options : Options) (source : String) :
    parse grammar options source = ofTokens (context grammar options source) (tokens source) := by
  simp only [parse, run, start, ofTokens, context]

def withoutImports (document : Document) : Document := { document with imports := [] }

theorem spans_withoutImports (document : Document) :
    document.withoutImports.spans = document.spans := rfl

theorem withoutImports_analyzed (grammar : Grammar) (options : Options) (document : Document) :
    (document.analyzed grammar options).withoutImports =
      document.withoutImports.analyzed grammar options := by
  unfold analyzed
  split <;> rfl

theorem undefinedNames_respan (place : Span → Span) (grammar : Grammar) (options : Options)
    (document : Document) :
    (respan place document).undefinedNames grammar options =
      respan place (document.undefinedNames grammar options) := by
  have unresolved (occurrence : Occurrence) :
      (respan place occurrence).isUnresolved (respan place document.scopes) grammar options [] =
        occurrence.isUnresolved document.scopes grammar options [] := by
    unfold Occurrence.isUnresolved
    rw [ScopeTree.find_respan, Lookup.isUndefined_respan]
    rfl
  have kept : (respan place document.occurrences).filter
      (Occurrence.isUnresolved (respan place document.scopes) grammar options []) =
        respan place (document.occurrences.filter
          (Occurrence.isUnresolved document.scopes grammar options [])) := by
    rw [Spanned.respan_list, List.filter_map]
    exact congrArg (List.map (respan place)) (List.filter_congr fun _ _ => unresolved _)
  exact (congrArg (List.map Occurrence.undefined) kept).trans
    (Spanned.map_respan place Occurrence.undefined (fun _ => rfl) _)

theorem analyzed_respan (place : Span → Span) (grammar : Grammar) (options : Options)
    (document : Document) :
    (respan place document).analyzed grammar options =
      respan place (document.analyzed grammar options) := by
  unfold analyzed
  split
  · rw [undefinedNames_respan]
    exact congrArg (fun diagnostics => { respan place document with diagnostics })
      (Spanned.respan_append place _ _).symm
  · rfl

theorem ofRun_respan {outcome image : List Stmt × ParseState}
    (statements : image.1 = respan place outcome.1) (mirrors : outcome.2.Mirrors place image.2) :
    (ofRun image).withoutImports = (respan place (ofRun outcome)).withoutImports := by
  simp only [ofRun, withoutImports, statements, mirrors.scopes, mirrors.occurrences,
    mirrors.diagnostics]
  rfl

theorem ofRun_previousSpan {context : Context} (room : Nat) (state : ParseState) (span : Span) :
    ofRun ((ParseM.statements (statement room)).run context { state with previousSpan := span }) =
      ofRun ((ParseM.statements (statement room)).run context state) := by
  cases ended : state.token.isEnd with
  | false => rw [Forgets.statements room ended span]
  | true =>
      have nothing (before : ParseState) (same : before.token = state.token) :
          (ParseM.statements (statement room)).run context before = ([], before) := by
        have stops : (statementsUntilBrace (statement room)).run context before = ([], before) :=
          whileToken_stop [] (by simp [same, ended])
        unfold ParseM.statements
        rw [run_bind_of_eq stops]
        exact whileToken_stop [] (by simp [same, ended])
      rw [nothing state rfl, nothing { state with previousSpan := span } rfl]
      rfl

theorem start_mirrors (contexts : here.Mirrors place there) (tokens : List Token) :
    (ParseState.start here tokens).Mirrors place
      { ParseState.start there (respan place (tokens.filter Token.isSignificant)) with
        previousSpan := place {} } := by
  have blanks : blank.Mirrors place
      { blank with token := respan place blank.token, previousSpan := place {} } := by
    have scopes : ({} : ScopeTree) = respan place {} := (ScopeTree.respan_root place).symm
    constructor <;> first | exact scopes | rfl
  obtain ⟨token, mirrors⟩ := Natural.terminalFrom tokens here there _ _ contexts blanks
  rw [@terminalFrom_refill there _ blank (respan place blank.token) (place {})] at token mirrors
  exact { mirrors with token }

theorem ofTokens_respan (contexts : here.Mirrors place there) (tokens : List Token) :
    (ofTokens there (respan place (tokens.filter Token.isSignificant))).withoutImports =
      (respan place (ofTokens here tokens)).withoutImports := by
  obtain ⟨statements, mirrors⟩ :=
    Natural.statements here.options.maxDepth here there _ _ contexts (start_mirrors contexts tokens)
  have read := ofRun_respan statements mirrors
  rw [ofRun_previousSpan] at read
  unfold ofTokens
  rw [contexts.options, contexts.grammar, ← analyzed_respan, withoutImports_analyzed,
    withoutImports_analyzed, read]

/-! ## Reading a source -/

section

variable (grammar : Grammar) (options : Options) (source : String)

theorem parse_respan {finish : Position}
    (moved : Span.at finish = place (Span.at (Cursor.ofSource source).readAll.2.position)) :
    (respan place (parse grammar options source)).withoutImports =
      (ofTokens ⟨grammar, options, finish⟩
        (respan place ((tokens source).filter Token.isSignificant))).withoutImports := by
  have contexts : (context grammar options source).Mirrors place ⟨grammar, options, finish⟩ :=
    ⟨rfl, rfl, moved⟩
  rw [parse_eq_ofTokens, ofTokens_respan contexts]

/-- Everything in a document stands where a significant token does, or at the end: were it elsewhere, it
would be in another place when only that place is changed. -/
theorem parse_spans : ∀ span ∈ (parse grammar options source).spans, span ∈ places source := by
  intro span member
  by_contra elsewhere
  let moved (other : Span) : Span :=
    if other = span then ⟨⟨span.start.line + 1, 0⟩, span.stop⟩ else other
  have stays : ∀ other ∈ places source, moved other = id other := by
    intro other known
    have different : other ≠ span := fun same => elsewhere (same ▸ known)
    simp [moved, different]
  have finish := stays (Span.at (Cursor.ofSource source).readAll.2.position) (by simp [places])
  have tokens : respan moved ((tokens source).filter Token.isSignificant) =
      respan id ((tokens source).filter Token.isSignificant) := by
    refine List.map_congr_left fun token found => ?_
    have known : token.span ∈ places source := List.mem_append_left _ (List.mem_map_of_mem found)
    exact congrArg (fun span => { token with span }) (stays token.span known)
  have same : (respan moved (parse grammar options source)).withoutImports =
      (respan id (parse grammar options source)).withoutImports := by
    have unmoved := @parse_respan id grammar options source _ rfl
    rw [parse_respan grammar options source finish.symm, tokens, unmoved]
  have spans : (parse grammar options source).spans.map moved =
      (parse grammar options source).spans.map id := by
    rw [← spans_respan, ← spans_respan, ← spans_withoutImports, same, spans_withoutImports]
  have unmoved := congrArg (·.start.line) (List.map_inj_left.mp spans span member)
  simp [moved] at unmoved

end

/-- A span that says which of the places of a source it is. -/
def index (source : String) (span : Span) : Span := Span.at ⟨0, (places source).idxOf span⟩

def numbered (words : List Word) : List Token :=
  words.mapIdx fun number word => ⟨word.kind, word.text, Span.at ⟨0, number⟩⟩

/-- The document with every span replaced by the number of the significant token that stands there; the end
counts as one more. The files that it includes are left out. -/
def indexed (source : String) (document : Document) : Document :=
  (respan (index source) document).withoutImports

theorem index_of_getElem? {source : String} {number : Nat} {span : Span}
    (found : (places source)[number]? = some span) : index source span = Span.at ⟨0, number⟩ := by
  obtain ⟨bound, rfl⟩ := List.getElem?_eq_some_iff.mp found
  rw [index, (places_nodup source).idxOf_getElem number bound]

theorem index_finish (source : String) :
    index source (Span.at (Cursor.ofSource source).readAll.2.position) =
      Span.at ⟨0, (Token.words (tokens source)).length⟩ :=
  index_of_getElem? (by simp [places, Token.words])

theorem respan_index (source : String) :
    respan (index source) ((tokens source).filter Token.isSignificant) =
      numbered (Token.words (tokens source)) := by
  refine List.ext_getElem? fun number => ?_
  simp only [Spanned.respan_list, numbered, Token.words, List.getElem?_map, List.getElem?_mapIdx]
  cases found : ((tokens source).filter Token.isSignificant)[number]? with
  | none => rfl
  | some token =>
      have place : (places source)[number]? = some token.span := by
        obtain ⟨bound, rfl⟩ := List.getElem?_eq_some_iff.mp found
        simp [places, List.getElem?_append_left, bound]
      simp only [Option.map_some, ← index_of_getElem? place]
      rfl

/-- Only the words of a source are left in its document when its places are numbered. -/
theorem indexed_parse (grammar : Grammar) (options : Options) (source : String) :
    (parse grammar options source).indexed source =
      (ofTokens ⟨grammar, options, ⟨0, (Token.words (tokens source)).length⟩⟩
        (numbered (Token.words (tokens source)))).withoutImports := by
  rw [indexed, parse_respan grammar options source (index_finish source).symm, respan_index]

/-- Sources with the same significant tokens read as the same document, up to where things stand; only the
files that are included may differ. Everything in a document stands where just one significant token
does, or at the end. -/
theorem parse_layout (grammar : Grammar) (options : Options) {first second : String}
    (same : Token.words (tokens first) = Token.words (tokens second)) :
    (parse grammar options first).indexed first = (parse grammar options second).indexed second ∧
      ∀ source, (places source).Nodup ∧
        ∀ span ∈ (parse grammar options source).spans, span ∈ places source := by
  refine ⟨?_, fun source => ⟨places_nodup source, parse_spans grammar options source⟩⟩
  rw [indexed_parse, indexed_parse, same]

theorem parse_layout_include :
    Token.words (tokens "f(x)") = Token.words (tokens "#include \"g\"\nf /* twice */ (\n  x )") ∧
      (parse Grammar.standard Options.default "f(x)").indexed "f(x)" =
        (parse Grammar.standard Options.default "#include \"g\"\nf /* twice */ (\n  x )").indexed
          "#include \"g\"\nf /* twice */ (\n  x )" := by
  have same : Token.words (tokens "f(x)") =
      Token.words (tokens "#include \"g\"\nf /* twice */ (\n  x )") := by
    decide +kernel
  exact ⟨same, (parse_layout Grammar.standard Options.default same).1⟩

end Document

end Adventure
