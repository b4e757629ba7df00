import Adventure.Proofs.ExpressionTraces

/-!
Statements, traced back to their words. Every recovery reports an error, so without one all the words of a
statement are in its node.
-/

namespace Adventure

open Word

theorem Written.ne_nil {room : Nat} {statement : Stmt} {words : List Word}
    (written : Written room (.statement statement) words) : words ≠ [] := by
  cases written <;> simp [brackets, braces]

namespace ParseM

variable {α : Type} {context : Context} {tokens : List Token} {seen : Option Terminal} {room : Nat}

def operandBefore (closing : String) : ParseM Atom := do
  let atom ← takeAtom
  let _ ← expect closing
  return atom

def word : ParseM Atom := do
  checkWord
  takeAtom

/-- Each operand of a verb is read with the mark after it, which tells whether it was left out. -/
theorem verb_operands (terminal : Terminal) :
    verb terminal = (do
      let _ ← expect "("
      let word ← word
      let _ ← expect ","
      checkAction
      let action ← operandBefore ","
      checkFlags
      let flags ← operandBefore ")"
      expectSemicolon
      return .verb terminal.head word action flags) := by
  simp only [verb, word, operandBefore, bind_assoc, pure_bind]

theorem checkFlags_traces : Traces context tokens seen checkFlags fun _ words => words = [] :=
  .look fun _ _ _ => .warningUnless _ rfl _

theorem parameterType?_eq_some {terminal : Terminal} {valueType : ValueType}
    (typed : parameterType? terminal = some valueType) :
    terminal.isName = true ∧ terminal.text = valueType.keyword ∧ valueType.isStorable = true := by
  unfold parameterType? at typed
  split at typed
  · rename_i named
    rw [Option.filter_eq_some_iff] at typed
    exact ⟨named, ValueType.keyword_of_ofKeyword? typed.1, typed.2⟩
  · cases typed

section Pieces

variable (grammar : context.grammar = Grammar.standard) (lexical : ∀ token ∈ tokens, token.Lexical)
  (legible : ∀ token ∈ tokens, token.complaints Grammar.standard = [])

include grammar lexical legible

theorem skip_traces {token : Terminal} {text : String} (known : Known context tokens token)
    (id : token.id = text) (operator : text ∈ Token.operators) :
    Traces context tokens (some token) skip fun _ words => words = [mark text] := by
  refine (Traces.advance grammar lexical legible).map ?_
  rintro terminal words ⟨_, same, rfl⟩
  obtain rfl := same token rfl
  exact ((known.source grammar lexical legible).mark_of_id id operator).2

theorem expectSemicolon_traces :
    Traces context tokens seen expectSemicolon fun _ words => words = [mark ";"] := by
  rw [expectSemicolon_eq]
  refine .look fun token known _ => .ite (fun id => ?_) fun _ => ?_
  · exact skip_traces grammar lexical legible known id (by decide)
  · exact .bind .lastSpan fun span => (Traces.error rfl span).imp fun _ _ => False.elim

theorem opened_traces {yes : ParseM α} {other : α} {spells : α → List Word → Prop}
    (traces : Traces context tokens none yes spells) :
    Traces context tokens seen
      (atBrace >>= fun opened => if opened then skip >>= fun _ => yes else pure other)
      fun value words => ∃ rest, words = mark "\x7b" :: rest ∧ spells value rest := by
  simp only [atBrace, bind_assoc, pure_bind]
  refine .look fun token known _ => .require _ rfl _ ?_
  refine .ite (fun opened => ?_) fun unopened => .value fun opened => absurd opened unopened
  refine .bind (skip_traces grammar lexical legible known (eq_of_beq opened) (by decide)) fun _ => ?_
  refine traces.imp ?_
  rintro value rest spelled _ rfl _
  exact ⟨rest, rfl, spelled⟩

theorem operandBefore_traces {closing : String} (operator : closing ∈ Token.operators)
    (closes : closers.contains closing = true) :
    Traces context tokens seen (operandBefore closing) fun atom words =>
      ∃ own, atom.Taken own ∧ words = own ++ [mark closing] := by
  simp only [operandBefore, takeAtom, bind_assoc]
  refine .look fun token known _ => ?_
  have source := known.source grammar lexical legible
  cases closer : token.isCloser with
  | true =>
      simp only [if_true, pure_bind]
      refine (Traces.expect grammar lexical legible closing).map ?_
      rintro terminal words ⟨_, same, id, rfl⟩
      obtain rfl := same token rfl
      obtain ⟨spells, own⟩ := source.mark_of_id id operator
      exact ⟨[], .closer spells closes, own⟩
  | false =>
      simp only [Bool.false_eq_true, if_false, bind_assoc, pure_bind]
      refine Traces.take grammar lexical legible fun terminal _ same => ?_
      obtain rfl := same token rfl
      refine (Traces.expect_mark grammar lexical legible operator).map ?_
      rintro _ _ rfl
      exact ⟨terminal.words, source.taken closer, rfl⟩

theorem word_traces : Traces context tokens seen word fun atom words =>
    ∃ head : Head, atom = ⟨.literal, head⟩ ∧ head.id = "(literal)" ∧ head.parenthesized = false ∧
      words = [⟨.string, head.text⟩] := by
  simp only [word, checkWord, takeAtom, bind_assoc]
  refine .look fun token known _ => .require _ rfl _ (.look fun token' _ same => ?_)
  obtain rfl := same token rfl
  have source := known.source grammar lexical legible
  refine .ite (fun closer => .value fun met => ?_) fun _ => ?_
  · simp [(source.taken_string (eq_of_beq met)).1] at closer
  · refine Traces.take grammar lexical legible fun terminal _ same => .value fun met => ?_
    obtain rfl := same token' rfl
    obtain ⟨_, made, id, words⟩ := source.taken_string (eq_of_beq met)
    exact ⟨terminal.head, made, id, rfl, by rw [words]; rfl⟩

theorem verb_traces (terminal : Terminal) (spells : terminal.head.Spells "verb") (room : Nat) :
    Traces context tokens seen (verb terminal) fun statement rest =>
      Written (room + 1) (.statement statement) (Word.name "verb" :: rest) := by
  rw [verb_operands]
  refine .bind (.expect_mark grammar lexical legible (by decide)) fun _ => ?_
  refine .bind (word_traces grammar lexical legible) fun first => ?_
  refine .bind (.expect_mark grammar lexical legible (by decide)) fun _ => .bind .checkAction fun _ => ?_
  refine .bind (operandBefore_traces grammar lexical legible (by decide) (by decide)) fun second => ?_
  refine .bind checkFlags_traces fun _ => ?_
  refine .bind (operandBefore_traces grammar lexical legible (by decide) (by decide)) fun third => ?_
  refine (expectSemicolon_traces grammar lexical legible).map ?_
  rintro _ _ rfl _ ⟨flags, taken', rfl⟩ _ rfl _ ⟨action, taken, rfl⟩ _ rfl _ rfl _
    ⟨head, rfl, id, plain, rfl⟩ _ rfl
  have written := @Written.verb room _ _ _ _ _ _ spells id plain taken taken'
  simpa [brackets] using written

theorem abstractModifier_traces : Traces context tokens seen abstractModifier fun isAbstract words =>
    words = if isAbstract then [Word.name "abstract"] else [] := by
  refine .look fun token known _ => .ite (fun modifier => ?_) fun _ => .value rfl
  simp only [Bool.and_eq_true, beq_iff_eq] at modifier
  obtain ⟨_, words⟩ := (known.source grammar lexical legible).names modifier.1
  refine Traces.take grammar lexical legible fun terminal known' same => ?_
  obtain rfl := same token rfl
  refine (Traces.reserve grammar lexical known').map ?_
  rintro _ _ rfl
  rw [words, modifier.2]
  rfl

theorem className_traces (keyword : Terminal) :
    Traces context tokens seen (className keyword) fun name words =>
      name.head.Names ∧ words = [Word.name name.head.text] := by
  refine .look fun token known _ => .ite (fun named => ?_) fun _ => ?_
  · obtain ⟨names, words⟩ := (known.source grammar lexical legible).names named
    refine Traces.take grammar lexical legible fun terminal known' same => ?_
    obtain rfl := same token rfl
    refine (Traces.define grammar lexical known' _ _).map ?_
    rintro _ _ rfl
    exact ⟨names, by rw [words]; rfl⟩
  · exact .after_error grammar lexical (.error rfl _)
      (fun _ => .ite (fun _ => .value _) fun _ => .advance) 0

theorem superclassName_traces : Traces context tokens seen superclassName fun superclass? words =>
    ∃ head : Head, superclass? = some ⟨.name, head⟩ ∧ head.Names ∧ words = [Word.name head.text] := by
  refine .look fun token known _ => .ite (fun named => ?_) fun _ => ?_
  · obtain ⟨names, words⟩ := (known.source grammar lexical legible).names named
    refine Traces.take grammar lexical legible fun terminal _ same => ?_
    obtain rfl := same token rfl
    refine (Traces.noteOccurrence terminal).map ?_
    rintro _ _ rfl
    exact ⟨terminal.head, rfl, names, by rw [words]; rfl⟩
  · exact .after_error grammar lexical (.error rfl _) (fun _ => .value _) 0

theorem superclass_traces : Traces context tokens seen superclass Superclass := by
  refine .look fun token known _ => .ite (fun id => ?_) fun _ => .value .none
  refine .bind (skip_traces grammar lexical legible known id (by decide)) fun _ => ?_
  refine (superclassName_traces grammar lexical legible).imp ?_
  rintro _ _ ⟨head, rfl, names, rfl⟩ _ rfl
  exact .some names

theorem parameterName_traces (valueType : ValueType) (storable : valueType.isStorable = true) :
    Traces context tokens seen (parameterName (some valueType)) fun parameter rest =>
      parameter.Spelled (Word.name valueType.keyword :: rest) := by
  refine .look fun token known _ => .ite (fun named => ?_) fun _ => ?_
  · obtain ⟨names, words⟩ := (known.source grammar lexical legible).names named
    refine Traces.take grammar lexical legible fun terminal known' same => ?_
    obtain rfl := same token rfl
    refine (Traces.define grammar lexical known' _ _).map ?_
    rintro _ _ rfl
    rw [words]
    exact .mk storable names
  · exact .after_error grammar lexical (.error rfl _)
      (fun _ => .advanceUnlessCloser fun _ _ => .value _) 0

omit legible in
theorem untypedParameter_traces {first : Terminal} (known : Known context tokens first)
    {spells : Parameter → List Word → Prop} :
    Traces context tokens seen (untypedParameter first) spells :=
  .after_error grammar lexical (.error rfl _) (fun _ => .look fun _ _ => .ite
    (fun _ => .bind (.step (.define known _ _)) fun _ => .value _) fun _ => .parameterName none) 0

theorem parameter_traces : Traces context tokens seen parameter Parameter.Spelled := by
  refine .look fun token known _ => .ite (fun _ => ?_) fun _ => ?_
  · exact .after_error grammar lexical (.error rfl token.span) (fun _ => .value _) 0
  · refine Traces.take grammar lexical legible fun first known' _ => ?_
    cases typed : parameterType? first with
    | some valueType =>
        obtain ⟨named, text, storable⟩ := parameterType?_eq_some typed
        obtain ⟨_, words⟩ := (known'.source grammar lexical legible).names named
        rw [words, text]
        exact parameterName_traces grammar lexical legible valueType storable
    | none => exact untypedParameter_traces grammar lexical known'

theorem named_traces {next : Terminal → ParseM α} {spells : α → List Word → Prop}
    (others : ∀ terminal, Known context tokens terminal →
      Traces context tokens none (next terminal) fun value rest =>
        terminal.isName = true ∧ (terminal.head.Names →
          spells value (Word.name terminal.text :: rest))) :
    Traces context tokens seen (advanceUnlessCloser >>= next) spells := by
  simp only [advanceUnlessCloser, bind_assoc]
  refine .look fun token known _ => ?_
  have source := known.source grammar lexical legible
  cases closer : token.isCloser with
  | true =>
      simp only [if_true, pure_bind]
      refine (others token known).weaken.imp ?_
      rintro value rest ⟨named, _⟩
      simp [source.isCloser_of_isName named] at closer
  | false =>
      simp only [Bool.false_eq_true, if_false]
      refine Traces.take grammar lexical legible fun terminal known' same => ?_
      obtain rfl := same token rfl
      refine (others terminal known').imp ?_
      rintro value rest ⟨named, spelled⟩
      obtain ⟨names, words⟩ := source.names named
      rw [words]
      exact spelled names

omit legible in
theorem functionName_traces {name : Terminal} (known : Known context tokens name)
    (returnType : ValueType) :
    Traces context tokens seen (functionName name returnType) fun _ words =>
      words = [] ∧ name.isName = true := by
  refine .ite (fun named => ?_) fun _ => (Traces.error rfl _).imp fun _ _ => False.elim
  exact (Traces.define grammar lexical known _ _).imp fun _ _ still => ⟨still, named⟩

omit legible in
theorem variableName_traces {name : Terminal} (known : Known context tokens name)
    (valueType : ValueType) :
    Traces context tokens seen (variableName name valueType) fun atom words =>
      words = [] ∧ name.isName = true ∧ atom = ⟨.name, name.head⟩ := by
  refine .ite (fun named => ?_) fun _ => ?_
  · exact (Traces.define grammar lexical known _ _).map fun _ _ still => ⟨still, named, rfl⟩
  · exact .after_error grammar lexical (.error rfl _) (fun _ => .value _) 0

end Pieces

section Blocks

variable (grammar : context.grammar = Grammar.standard) (lexical : ∀ token ∈ tokens, token.Lexical)
  (legible : ∀ token ∈ tokens, token.complaints Grammar.standard = [])
  (nested : Traces context tokens none (statement room) fun statement? words =>
    ∃ made, statement? = some made ∧ Written room (.statement made) words)

include grammar lexical legible

theorem parenthesized_traces : Traces context tokens seen (parenthesized (expression room))
    fun value words => ∃ inside, Spelled room (.value value) inside ∧ words = brackets "(" ")" inside := by
  refine .bind (.expect_mark grammar lexical legible (by decide)) fun _ => ?_
  refine .bind (expression_traces grammar lexical legible room _) fun value => ?_
  refine (Traces.expect_mark grammar lexical legible (by decide)).map ?_
  rintro _ _ rfl inside spelled _ rfl
  exact ⟨inside, spelled, rfl⟩

theorem optional_traces (closing : String) :
    Traces context tokens seen (ParseM.optional (expression room) closing) (Optional room) := by
  refine .look fun token _ _ => .ite (fun _ => .value .none) fun _ => ?_
  exact (expression_traces grammar lexical legible room _).weaken.map fun _ _ spelled => .some spelled

theorem arraySize_traces : Traces context tokens seen (arraySize (expression room))
    fun array words => ArraySize room array.1 array.2 words := by
  refine .look fun token known _ => .ite (fun id => ?_) fun _ => .value .none
  refine .bind (skip_traces grammar lexical legible known id (by decide)) fun _ => ?_
  refine .bind (optional_traces grammar lexical legible "]") fun size? => ?_
  refine (Traces.expect_mark grammar lexical legible (by decide)).map ?_
  rintro _ _ rfl words size _ rfl
  exact .brackets size

theorem initialValue_traces (isArray : Bool) :
    Traces context tokens seen (initialValue (expression room) isArray) fun initializer words =>
      Initial room isArray (some initializer) (mark "=" :: words) := by
  refine .look fun token known _ => .ite (fun list => ?_) fun other => ?_
  · simp only [Bool.and_eq_true, beq_iff_eq] at list
    refine .bind (skip_traces grammar lexical legible known list.2 (by decide)) fun _ => ?_
    refine (arguments_traces grammar lexical legible
      (expression_traces grammar lexical legible room)).map ?_
    rintro values _ ⟨inside, spelled, rfl⟩ _ rfl
    rw [list.1]
    exact .list spelled
  · have source := known.source grammar lexical legible
    have traces := expression_traces grammar lexical legible room Power.none
    refine (traces.weaken.headed source).map ?_
    rintro value words ⟨spelled, starts⟩
    refine .expression spelled fun array opens => other ?_
    simp [array, source.id_of_mark (starts _ opens)]

theorem initializer_traces (isArray : Bool) :
    Traces context tokens seen (initializer (expression room) isArray) fun initializer? words =>
      Initial room isArray initializer? words := by
  refine .look fun token known _ => .ite (fun id => ?_) fun _ => .value .none
  refine .bind (skip_traces grammar lexical legible known id (by decide)) fun _ => ?_
  refine (initialValue_traces grammar lexical legible isArray).map ?_
  rintro _ _ initial _ rfl
  exact initial

theorem declarator_traces {name : Terminal} (known : Known context tokens name)
    (valueType : ValueType) :
    Traces context tokens seen (declarator (expression room) valueType name) fun declarator rest =>
      name.isName = true ∧ (name.head.Names →
        declarator.Spelled room (Word.name name.text :: rest)) := by
  refine .bind (variableName_traces grammar lexical known valueType) fun atom => ?_
  refine .bind (arraySize_traces grammar lexical legible) fun array => ?_
  refine (initializer_traces grammar lexical legible array.1).map ?_
  rintro initializer? others initial words size _ ⟨rfl, named, rfl⟩
  refine ⟨named, fun names => ?_⟩
  rw [List.nil_append]
  exact .mk names size initial

theorem nextDeclarator_traces (valueType : ValueType) :
    Traces context tokens seen (nextDeclarator (expression room) valueType) (Declarator.Spelled room) :=
  named_traces grammar lexical legible fun _ known =>
    declarator_traces grammar lexical legible known valueType

theorem variableList_traces {first : Terminal} (known : Known context tokens first)
    (keyword : Terminal) (valueType : ValueType) (storable : valueType.isStorable = true)
    (spells : keyword.head.Spells valueType.keyword) :
    Traces context tokens seen (variableList (expression room) keyword first valueType)
      fun statement rest => first.isName = true ∧ (first.head.Names →
        Written (room + 1) (.statement statement)
          (Word.name valueType.keyword :: Word.name first.text :: rest)) := by
  refine .bind (declarator_traces grammar lexical legible known valueType) fun declared => ?_
  refine .bind (.afterCommas grammar lexical legible
    (nextDeclarator_traces grammar lexical legible valueType)) fun declarators => ?_
  refine (expectSemicolon_traces grammar lexical legible).map ?_
  rintro _ _ rfl others separated words ⟨named, spelled⟩
  refine ⟨named, fun names => ?_⟩
  have written := Written.declaration spells storable (separated _ (.one (spelled names)))
  simpa using written

include nested

omit grammar lexical legible in
theorem statementsUntilBrace_traces : Traces context tokens seen (statementsUntilBrace (statement room))
    fun body words => Written room (.body body) words := by
  have round (statements : List Stmt) : Traces context tokens none
      (anotherStatement (statement room) statements) fun after rest =>
        ∀ words, Written room (.body statements) words → Written room (.body after) (words ++ rest) := by
    refine nested.map ?_
    rintro _ rest ⟨made, rfl, written⟩ words before
    exact .another before written
  exact (Traces.whileToken round []).imp fun _ words written => written [] .nothing

theorem blockBody_traces : Traces context tokens seen (blockBody (statement room)) fun body words =>
    ∃ inside, Written room (.body body) inside ∧ words = inside ++ [mark "\x7d"] := by
  rw [blockBody_eq]
  refine .bind (.inScope grammar lexical .statements .statementsUntilBrace
    (statementsUntilBrace_traces nested)) fun body => ?_
  refine (Traces.expect_mark grammar lexical legible (by decide)).map ?_
  rintro _ _ rfl inside written
  exact ⟨inside, written, rfl⟩

theorem block_traces : Traces context tokens seen (block (statement room)) fun body words =>
    ∃ inside, Written room (.body body) inside ∧ words = braces inside := by
  refine (opened_traces grammar lexical legible
    (blockBody_traces grammar lexical legible nested)).imp ?_
  rintro body _ ⟨_, rfl, inside, written, rfl⟩
  exact ⟨inside, written, rfl⟩

theorem functionScope_traces : Traces context tokens seen (functionScope (statement room))
    fun read words => ∃ body inside others, read.2 = some body ∧ Parameters read.1 inside ∧
      Written room (.body body) others ∧
      words = inside ++ mark ")" :: mark "\x7b" :: others := by
  refine .bind (.commaList grammar lexical legible (parameter_traces grammar lexical legible) ")")
    fun parameters => ?_
  refine .bind (.expect_mark grammar lexical legible (by decide)) fun _ => ?_
  have body : Traces context tokens none (do
      let body ← statementsUntilBrace (statement room)
      return (parameters, some body)) fun read words => ∃ body, read = (parameters, some body) ∧
        Written room (.body body) words :=
    (statementsUntilBrace_traces nested).map fun body _ written =>
      ⟨body, rfl, written⟩
  refine (opened_traces grammar lexical legible body).imp ?_
  rintro _ _ ⟨others, rfl, body, rfl, written⟩ _ rfl inside listed
  refine ⟨body, inside, others, rfl, ?_, written, rfl⟩
  rcases listed with ⟨rfl, rfl⟩ | separated
  · exact .none
  · exact .some separated

omit nested in
theorem closeBody_traces (body? : Option (List Stmt)) :
    Traces context tokens seen (closeBody body?) fun body words =>
      ∀ inside, body? = some inside → body = inside ∧ words = [mark "\x7d"] := by
  cases body? with
  | none => exact .value (by simp)
  | some body =>
      refine (Traces.expect_mark grammar lexical legible (by decide)).map ?_
      rintro _ _ rfl inside same
      exact ⟨Option.some.inj same, rfl⟩

theorem function_traces {name : Terminal} (known : Known context tokens name)
    (returnType : ValueType) :
    Traces context tokens seen (function (statement room) name returnType) fun statement rest =>
      name.isName = true ∧ (name.head.Names → Written (room + 1) (.statement statement)
        (Word.name returnType.keyword :: Word.name name.text :: rest)) := by
  rw [function_eq]
  refine .bind (functionName_traces grammar lexical known returnType) fun _ => ?_
  refine .bind (.expect_mark grammar lexical legible (by decide)) fun _ => ?_
  refine .bind (.inScope grammar lexical .function .functionScope
    (functionScope_traces grammar lexical legible nested)) fun read => ?_
  refine (closeBody_traces grammar lexical legible read.2).map ?_
  rintro body words closed _ ⟨inside, signature, others, made, parameters, written, rfl⟩ _ rfl _
    ⟨rfl, named⟩
  obtain ⟨rfl, rfl⟩ := closed inside made
  refine ⟨named, fun names => ?_⟩
  have function := @Written.function _ _ returnType _ _ _ _ names parameters written
  simpa [brackets, braces, Terminal.head] using function

theorem classDefinition_traces (terminal : Terminal) :
    Traces context tokens seen (classDefinition (statement room) terminal) fun statement rest =>
      Written (room + 1) (.statement statement) (Word.name "class" :: rest) := by
  refine .bind (abstractModifier_traces grammar lexical legible) fun isAbstract => ?_
  refine .bind (className_traces grammar lexical legible terminal) fun name => ?_
  refine .bind (superclass_traces grammar lexical legible) fun superclass? => ?_
  refine (block_traces grammar lexical legible nested).map ?_
  rintro body _ ⟨inside, written, rfl⟩ words superclass _ ⟨names, rfl⟩ _ rfl
  exact .classDefinition names superclass written

theorem guarded_traces (terminal : Terminal) {text : String} (spells : terminal.head.Spells text)
    (acts : (Grammar.standard.denotations text).statement? = some .guarded) :
    Traces context tokens seen (guarded (expression room) (statement room) terminal)
      fun statement rest => Written (room + 1) (.statement statement) (Word.name text :: rest) := by
  refine .bind (parenthesized_traces grammar lexical legible) fun subject => ?_
  refine (block_traces grammar lexical legible nested).map ?_
  rintro body _ ⟨others, written, rfl⟩ _ ⟨words, spelled, rfl⟩
  exact .guarded spells acts spelled written

theorem doWhile_traces (terminal : Terminal) (spells : terminal.head.Spells "do") :
    Traces context tokens seen (doWhile (expression room) (statement room) terminal)
      fun statement rest => Written (room + 1) (.statement statement) (Word.name "do" :: rest) := by
  refine .bind (block_traces grammar lexical legible nested) fun body => ?_
  refine .look fun keyword known _ => .bind (.reserve grammar lexical known) fun _ => ?_
  refine .bind (.expect_name grammar lexical legible (by decide)) fun _ => ?_
  refine .bind (parenthesized_traces grammar lexical legible) fun condition => ?_
  refine (expectSemicolon_traces grammar lexical legible).map ?_
  rintro _ _ rfl _ ⟨others, spelled, rfl⟩ _ rfl _ rfl _ ⟨words, written, rfl⟩
  exact .doWhile spells written spelled

/-- An `else` was consumed. Only another `if` may go on without a brace. -/
theorem alternative_traces : Traces context tokens seen (alternative (statement room))
    fun body rest => Written room (.alternative (some body)) (Word.name "else" :: rest) := by
  refine .look fun token known _ => .ite (fun id => ?_) fun _ => ?_
  · have source := known.source grammar lexical legible
    obtain ⟨_, own⟩ := source.name_of_id id (by decide)
    refine (nested.weaken.headed source).map ?_
    rintro _ words ⟨⟨made, rfl, written⟩, starts⟩
    obtain ⟨word, others, rfl⟩ := List.exists_cons_of_ne_nil written.ne_nil
    have first := starts word rfl
    rw [own, List.cons.injEq] at first
    exact .elseIf (by rw [first.1]; rfl) written
  · refine (block_traces grammar lexical legible nested).imp ?_
    rintro body _ ⟨inside, written, rfl⟩
    exact .elseBlock written

theorem elseBody_traces : Traces context tokens seen (elseBody (statement room))
    fun body? words => Written room (.alternative body?) words := by
  refine .look fun token known _ => .ite (fun id => ?_) fun _ => .value .noElse
  obtain ⟨_, own⟩ := (known.source grammar lexical legible).name_of_id id (by decide)
  refine Traces.take grammar lexical legible fun keyword known' same => ?_
  obtain rfl := same token rfl
  refine .bind (.reserve grammar lexical known') fun _ => ?_
  refine (alternative_traces grammar lexical legible nested).map ?_
  rintro body rest written _ rfl
  rw [own]
  exact written

theorem ifElse_traces (terminal : Terminal) (spells : terminal.head.Spells "if") :
    Traces context tokens seen (ifElse (expression room) (statement room) terminal)
      fun statement rest => Written (room + 1) (.statement statement) (Word.name "if" :: rest) := by
  refine .bind (parenthesized_traces grammar lexical legible) fun condition => ?_
  refine .bind (block_traces grammar lexical legible nested) fun thenBody => ?_
  refine (elseBody_traces grammar lexical legible nested).map ?_
  rintro elseBody? elseWords other _ ⟨thenWords, written, rfl⟩ _ ⟨words, spelled, rfl⟩
  exact .ifElse spells spelled written other

theorem forLoop_traces (terminal : Terminal) (spells : terminal.head.Spells "for") :
    Traces context tokens seen (forLoop (expression room) (statement room) terminal)
      fun statement rest => Written (room + 1) (.statement statement) (Word.name "for" :: rest) := by
  refine .bind (.expect_mark grammar lexical legible (by decide)) fun _ => ?_
  refine .bind (optional_traces grammar lexical legible ";") fun first? => ?_
  refine .bind (.expect_mark grammar lexical legible (by decide)) fun _ => ?_
  refine .bind (optional_traces grammar lexical legible ";") fun condition? => ?_
  refine .bind (.expect_mark grammar lexical legible (by decide)) fun _ => ?_
  refine .bind (optional_traces grammar lexical legible ")") fun step? => ?_
  refine .bind (.expect_mark grammar lexical legible (by decide)) fun _ => ?_
  refine (block_traces grammar lexical legible nested).map ?_
  rintro body _ ⟨words, written, rfl⟩ _ rfl stepWords step _ rfl conditionWords condition _ rfl
    firstWords first _ rfl
  simpa [brackets] using Written.forLoop spells first condition step written

omit nested in
theorem returning_traces (terminal : Terminal) (spells : terminal.head.Spells "return") :
    Traces context tokens seen (returning (expression room) terminal) fun statement rest =>
      Written (room + 1) (.statement statement) (Word.name "return" :: rest) := by
  refine .bind (optional_traces grammar lexical legible ";") fun value? => ?_
  refine .bind (expectSemicolon_traces grammar lexical legible) fun _ => ?_
  refine .look fun token _ _ => (Traces.warningUnless _ rfl _).map ?_
  rintro _ _ rfl _ rfl words value
  exact .returning spells value

omit nested in
theorem caseLabel_traces (terminal : Terminal) (spells : terminal.head.Spells "case") :
    Traces context tokens seen (caseLabel (expression room) terminal) fun statement rest =>
      Written (room + 1) (.statement statement) (Word.name "case" :: rest) := by
  refine .bind (parenthesized_traces grammar lexical legible) fun value => ?_
  refine (expectSemicolon_traces grammar lexical legible).map ?_
  rintro _ _ rfl _ ⟨words, spelled, rfl⟩
  exact .caseLabel spells spelled

omit nested in
theorem bare_traces (terminal : Terminal) {text : String} (spells : terminal.head.Spells text)
    (acts : (Grammar.standard.denotations text).statement? = some .bare) :
    Traces context tokens seen (bare terminal) fun statement rest =>
      Written (room + 1) (.statement statement) (Word.name text :: rest) := by
  refine (expectSemicolon_traces grammar lexical legible).map ?_
  rintro _ _ rfl
  exact .bare spells acts

theorem declaration_traces (keyword : Terminal) (valueType : ValueType)
    (spells : keyword.head.Spells valueType.keyword) :
    Traces context tokens seen (declaration (expression room) (statement room) keyword valueType)
      fun statement rest =>
        Written (room + 1) (.statement statement) (Word.name valueType.keyword :: rest) := by
  refine named_traces grammar lexical legible fun name known => ?_
  refine .look fun token _ _ => .ite (fun _ => ?_) fun named => ?_
  · exact function_traces grammar lexical legible nested known valueType
  · have storable : valueType.isStorable = true := by
      simp only [Bool.or_eq_true, not_or, Bool.not_eq_true', Bool.not_eq_false] at named
      exact named.1
    exact variableList_traces grammar lexical legible known keyword valueType storable spells

theorem statementForm_traces {terminal : Terminal} (known : Known context tokens terminal)
    {form : StatementForm} (acts : terminal.denotations.statement? = some form) :
    Traces context tokens seen (statementForm (expression room) (statement room) terminal form)
      fun statement rest => Written (room + 1) (.statement statement) (terminal.words ++ rest) := by
  have source := known.source grammar lexical legible
  obtain ⟨starts, acts⟩ := source.statement acts
  cases form with
  | block =>
      obtain ⟨spells, own⟩ := source.mark_of_id (eq_of_beq starts) (by decide)
      rw [own]
      refine (blockBody_traces grammar lexical legible nested).map ?_
      rintro body _ ⟨inside, written, rfl⟩
      exact .block spells written
  | verb =>
      obtain ⟨spells, own⟩ := source.name_of_id (eq_of_beq starts) (by decide)
      rw [own]
      exact verb_traces grammar lexical legible terminal spells room
  | classDefinition =>
      obtain ⟨_, own⟩ := source.name_of_id (eq_of_beq starts) (by decide)
      rw [own]
      exact classDefinition_traces grammar lexical legible nested terminal
  | returning =>
      obtain ⟨spells, own⟩ := source.name_of_id (eq_of_beq starts) (by decide)
      rw [own]
      exact returning_traces grammar lexical legible terminal spells
  | guarded =>
      obtain ⟨spells, own⟩ := source.name_of_id rfl starts
      rw [own]
      exact guarded_traces grammar lexical legible nested terminal spells acts
  | doWhile =>
      obtain ⟨spells, own⟩ := source.name_of_id (eq_of_beq starts) (by decide)
      rw [own]
      exact doWhile_traces grammar lexical legible nested terminal spells
  | ifElse =>
      obtain ⟨spells, own⟩ := source.name_of_id (eq_of_beq starts) (by decide)
      rw [own]
      exact ifElse_traces grammar lexical legible nested terminal spells
  | forLoop =>
      obtain ⟨spells, own⟩ := source.name_of_id (eq_of_beq starts) (by decide)
      rw [own]
      exact forLoop_traces grammar lexical legible nested terminal spells
  | caseLabel =>
      obtain ⟨spells, own⟩ := source.name_of_id (eq_of_beq starts) (by decide)
      rw [own]
      exact caseLabel_traces grammar lexical legible terminal spells
  | bare =>
      obtain ⟨spells, own⟩ := source.name_of_id rfl starts
      rw [own]
      exact bare_traces grammar lexical legible terminal spells acts
  | declaration valueType =>
      obtain ⟨spells, own⟩ := source.name_of_id (eq_of_beq starts) (by cases valueType <;> decide)
      rw [own]
      exact declaration_traces grammar lexical legible nested terminal valueType spells

theorem formedStatement_traces {token : Terminal} {form : StatementForm}
    (acts : token.denotations.statement? = some form) :
    Traces context tokens (some token) (formedStatement (expression room) (statement room) form)
      fun statement words => Written (room + 1) (.statement statement) words := by
  refine Traces.take grammar lexical legible fun terminal known same => ?_
  obtain rfl := same token rfl
  refine .bind (.log _) fun _ => .bind (.reserve grammar lexical known) fun _ => ?_
  refine (statementForm_traces grammar lexical legible nested known acts).imp ?_
  rintro statement rest written _ rfl _ rfl
  exact written

omit nested in
theorem expressionStatement_traces : Traces context tokens seen (expressionStatement (expression room))
    fun statement words => Written (room + 1) (.statement statement) words := by
  refine .bind (expression_traces grammar lexical legible room _).weaken fun value => ?_
  refine .bind (.warningUnless _ rfl _) fun _ => ?_
  refine (expectSemicolon_traces grammar lexical legible).map ?_
  rintro _ _ rfl _ rfl words spelled
  exact .expression spelled

omit legible nested in
theorem recover_traces (skipped : Terminal → Bool) :
    Traces context tokens seen (recover skipped) fun _ _ => False :=
  .look fun token _ _ => .after_error grammar lexical (.error rfl token.span)
    (fun _ => .whileToken skipped (fun _ => .skip) ()) 0

theorem statementBody_traces :
    Traces context tokens seen (statementBody (expression room) (statement room))
      fun statement? words => ∃ made, statement? = some made ∧
        Written (room + 1) (.statement made) words := by
  refine .look fun token known _ => ?_
  cases starts : token.denotations.statement? with
  | some form =>
      refine (formedStatement_traces grammar lexical legible nested starts).map ?_
      exact fun made words written => ⟨made, rfl, written⟩
  | none =>
      cases token.denotations.operand? with
      | some form =>
          refine (expressionStatement_traces grammar lexical legible).map ?_
          exact fun made words written => ⟨made, rfl, written⟩
      | none =>
          exact .after_error grammar lexical
            (.after_error grammar lexical (recover_traces grammar lexical _)
              (fun _ => .look fun _ _ => .ite (fun _ => .skip) fun _ => .value _) 0)
            (fun _ => .value _) 0

end Blocks

section Documents

variable (grammar : context.grammar = Grammar.standard) (lexical : ∀ token ∈ tokens, token.Lexical)
  (legible : ∀ token ∈ tokens, token.complaints Grammar.standard = [])

include grammar lexical legible

/-- Without an error, a statement was read from the words that spell it, and from no others. -/
theorem statement_traces (room : Nat) : Traces context tokens none (statement room)
    fun statement? words => ∃ made, statement? = some made ∧ Written room (.statement made) words := by
  induction room with
  | zero => exact .after_error grammar lexical (.refuse grammar lexical) (fun _ => .value _) 0
  | succ room ih =>
      refine .bind .enter fun _ => ?_
      refine .bind (statementBody_traces grammar lexical legible ih) fun statement? => ?_
      refine Traces.leave.map ?_
      rintro _ _ rfl words written _ rfl
      simpa using written

theorem statements_traces (room : Nat) : Traces context tokens none (statements (statement room))
    fun body words => Written room (.body body) words := by
  refine .bind (statementsUntilBrace_traces (statement_traces grammar lexical legible room))
    fun first => ?_
  have round (body : List Stmt) : Traces context tokens none (afterStrayBrace (statement room) body)
      fun after rest => ∀ words, Written room (.body body) words →
        Written room (.body after) (words ++ rest) :=
    .after_error grammar lexical (recover_traces grammar lexical _)
      (fun _ => .bind .statementsUntilBrace fun _ => .value _) room
  exact .whileToken round first

end Documents

end ParseM

end Adventure
