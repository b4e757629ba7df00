import Adventure.Proofs.Balance
import Adventure.Proofs.Braces

/-!
Scopes mirror braces. A function opens one scope for its parameters and its body together, and so does every
block, whatever it belongs to; no other part of a document opens any or is written with braces. An operand of
a verb may be any word at all, even a brace, and only a warning tells of that.
-/

namespace Adventure

open Word

namespace Stmt

def isPlain : Stmt → Bool
  | .expression _ | .verb .. | .declaration .. | .returning .. | .caseLabel .. | .bare _ => true
  | _ => false

/-- The statement may follow an `else` without braces. It is an expression where the name `if` is bound. -/
def isChained : Stmt → Bool
  | .ifElse .. | .expression _ => true
  | _ => false

end Stmt

/-- How many scopes are opened where a part of a document is read. The tree does not tell an `else if` from
an `else` with a block that has only an `if` in it, which opens one more. -/
inductive Opens : Part → Nat → Prop
  | plain {statement : Stmt} (plain : statement.isPlain = true) : Opens (.statement statement) 0
  | function {head : Head} {returnType : ValueType} {parameters : List Parameter} {body : List Stmt}
      {count : Nat} (inside : Opens (.body body) count) :
      Opens (.statement (.function head returnType parameters body)) (count + 1)
  | classDefinition {head : Head} {isAbstract : Bool} {superclass? : Option Atom} {body : List Stmt}
      {count : Nat} (inside : Opens (.body body) count) :
      Opens (.statement (.classDefinition head isAbstract superclass? body)) (count + 1)
  | block {head : Head} {body : List Stmt} {count : Nat} (inside : Opens (.body body) count) :
      Opens (.statement (.block head body)) (count + 1)
  | guarded {head : Head} {subject : Expr} {body : List Stmt} {count : Nat}
      (inside : Opens (.body body) count) : Opens (.statement (.guarded head subject body)) (count + 1)
  | doWhile {head : Head} {body : List Stmt} {condition : Expr} {count : Nat}
      (inside : Opens (.body body) count) : Opens (.statement (.doWhile head body condition)) (count + 1)
  | ifElse {head : Head} {condition : Expr} {thenBody : List Stmt} {elseBody? : Option (List Stmt)}
      {count others : Nat} (inside : Opens (.body thenBody) count)
      (other : Opens (.alternative elseBody?) others) :
      Opens (.statement (.ifElse head condition thenBody elseBody?)) (count + 1 + others)
  | forLoop {head : Head} {first? condition? step? : Option Expr} {body : List Stmt} {count : Nat}
      (inside : Opens (.body body) count) :
      Opens (.statement (.forLoop head first? condition? step? body)) (count + 1)
  | nothing : Opens (.body []) 0
  | another {statements : List Stmt} {statement : Stmt} {count others : Nat}
      (before : Opens (.body statements) count) (last : Opens (.statement statement) others) :
      Opens (.body (statements ++ [statement])) (count + others)
  | noElse : Opens (.alternative none) 0
  | elseBlock {body : List Stmt} {count : Nat} (inside : Opens (.body body) count) :
      Opens (.alternative (some body)) (count + 1)
  | elseIf {statement : Stmt} {count : Nat} (chained : statement.isChained = true)
      (inside : Opens (.statement statement) count) : Opens (.alternative (some [statement])) count

def Part.Pairs (part : Part) (counts : Braces) : Prop :=
  ∃ count, Opens part count ∧ counts = Braces.pairs count

theorem Opens.pairs {part : Part} {count : Nat} (opens : Opens part count) :
    part.Pairs (Braces.pairs count) :=
  ⟨count, opens, rfl⟩

theorem Part.pairs_plain {statement : Stmt} (plain : statement.isPlain = true) :
    (Part.statement statement).Pairs Braces.none :=
  ⟨0, .plain plain, rfl⟩

theorem Separated.unbraced {α : Type} {item : α → List Word → Prop} {items : List α} {words : List Word}
    (separated : Separated item items words) (each : ∀ value words, item value words → Unbraced words) :
    Unbraced words := by
  have comma : mark "," ≠ mark "\x7b" ∧ mark "," ≠ mark "\x7d" := by decide
  induction separated with
  | one only => exact each _ _ only
  | more _ last ih => exact unbraced_append.mpr ⟨ih, unbraced_cons.mpr ⟨comma, each _ _ last⟩⟩

theorem ArraySize.unbraced {room : Nat} {isArray : Bool} {size? : Option Expr} {words : List Word}
    (size : ArraySize room isArray size? words) : Unbraced words := by
  cases size with
  | none => exact unbraced_nil
  | brackets size => exact unbraced_brackets (by decide) (by decide) size.unbraced

theorem Initial.unbraced {room : Nat} {isArray : Bool} {initializer? : Option Initializer}
    {words : List Word} (initial : Initial room isArray initializer? words) : Unbraced words := by
  have equals : mark "=" ≠ mark "\x7b" ∧ mark "=" ≠ mark "\x7d" := by decide
  cases initial with
  | none => exact unbraced_nil
  | expression spelled => exact unbraced_cons.mpr ⟨equals, spelled.unbraced⟩
  | list spelled =>
      exact unbraced_cons.mpr ⟨equals, unbraced_brackets (by decide) (by decide) spelled.unbraced⟩

theorem Declarator.Spelled.unbraced {room : Nat} {declarator : Declarator} {words : List Word}
    (spelled : declarator.Spelled room words) : Unbraced words := by
  cases spelled with
  | mk _ size initial =>
      exact unbraced_cons.mpr ⟨name_unbraced _, unbraced_append.mpr ⟨size.unbraced, initial.unbraced⟩⟩

theorem Parameter.Spelled.unbraced {parameter : Parameter} {words : List Word}
    (spelled : parameter.Spelled words) : Unbraced words := by
  cases spelled with
  | mk => exact unbraced_cons.mpr ⟨name_unbraced _, unbraced_name _⟩

theorem Superclass.unbraced {superclass? : Option Atom} {words : List Word}
    (superclass : Superclass superclass? words) : Unbraced words := by
  cases superclass with
  | none => exact unbraced_nil
  | some => exact unbraced_cons.mpr ⟨by decide, unbraced_name _⟩

theorem Terminal.unbraced {terminal : Terminal} (other : terminal.origin ≠ some .operator) :
    Unbraced terminal.words := by
  intro word member
  obtain ⟨token, ⟨made, _⟩, rfl⟩ : ∃ token,
      (terminal.token? = some token ∧ token.isSignificant = true) ∧ token.word = word := by
    simpa [Terminal.words, Token.words] using member
  obtain ⟨kind, origin, rfl⟩ := Option.map_eq_some_iff.mp made
  exact unbraced_of_kind fun operator => other (origin.trans (congrArg some operator))

theorem Terminal.unbraced_of_isName {terminal : Terminal} (named : terminal.isName = true) :
    Unbraced terminal.words := by
  refine terminal.unbraced fun operator => ?_
  simp [isName, operator] at named

namespace ParseM.Mirrors

variable {α : Type} {context : Context} {tokens : List Token} {seen : Option Terminal} {room : Nat}
  {makes : α → Braces → Prop}

/-! Operands of a verb. -/

theorem warning {problem : Problem} (ordinary : problem.isOrdinary = true) (span : Span)
    (noise : problem = .expectedActionIdentifier ∨ problem = .expectedIntegerLiteral)
    {makes : Unit → Braces → Prop} : Mirrors context tokens seen (warning problem span) makes := by
  refine .vain fun {state} sound => ⟨?_, ?_⟩
  · have plain : Plain (fun _ => True) (report ⟨problem, span, .warning⟩) := .report ordinary
    have alike : Alike state ((ParseM.warning problem span).run context state).2 := ⟨rfl, rfl, rfl, rfl⟩
    exact sound.of_alike alike (plain.adds state)
  · exact ⟨⟨problem, span, .warning⟩, by simp, .inr noise⟩

structure Checks (context : Context) (tokens : List Token) (report : Terminal → ParseM Unit) : Prop where
  flat (token : Terminal) : Flat context tokens (some token) (report token) fun _ =>
    token.origin ≠ some .operator
  still (token : Terminal) (state : ParseState) :
    ((report token).run context state).2.token = state.token

theorem word_checks : Checks context tokens fun token =>
    ParseM.errorUnless (token.origin == some .string) .expectedStringLiteral token.span where
  flat token := by
    refine (errorUnless _ rfl token.span).imp ?_
    rintro _ _ ⟨rfl, string⟩
    exact ⟨rfl, by simp [eq_of_beq string]⟩
  still token state := by rw [errorUnless_run]

theorem action_checks : Checks context tokens fun token =>
    if token.isName then noteIfUndefined token
    else ParseM.warning .expectedActionIdentifier token.span where
  flat token := by
    refine .ite (fun named => ?_) fun _ => warning rfl token.span (.inl rfl)
    refine (of_alike (fun state => ?_) fun state => ?_).imp ?_
    · rw [noteIfUndefined_run]
      split <;> exact ⟨rfl, rfl, rfl, rfl⟩
    · rw [noteIfUndefined_run]
      split <;> exact .of_eq rfl rfl
    · rintro _ _ ⟨rfl, _⟩
      refine ⟨rfl, fun operator => ?_⟩
      simp [Terminal.isName, operator] at named
  still token state := by
    rw [run_ite]
    split
    · rw [noteIfUndefined_run]
      split <;> rfl
    · rfl

theorem flags_checks : Checks context tokens fun token =>
    ParseM.warningUnless (token.origin == some .integer) .expectedIntegerLiteral token.span where
  flat token := by
    unfold ParseM.warningUnless
    cases integer : token.origin == some .integer with
    | true => exact .value ⟨rfl, by simp [eq_of_beq integer]⟩
    | false => exact warning rfl token.span (.inr rfl)
  still token state := by
    unfold ParseM.warningUnless
    split <;> rfl

section Pieces

variable (grammar : context.grammar = Grammar.standard) (lexical : ∀ token ∈ tokens, token.Lexical)
  (legible : ∀ token ∈ tokens, token.complaints Grammar.standard = [])

include grammar lexical legible

theorem takeAtom {token : Terminal} : Mirrors context tokens (some token) takeAtom fun _ counts =>
    token.origin ≠ some .operator → counts = Braces.none := by
  refine .look fun token' _ same => .ite (fun _ => .value fun _ => rfl) fun _ => ?_
  refine take grammar lexical legible fun terminal _ taken => .value fun other => ?_
  obtain rfl := taken token' rfl
  obtain rfl := same token rfl
  rw [(Terminal.unbraced other).counts]
  rfl

theorem operand {report : Terminal → ParseM Unit} (checks : Checks context tokens report)
    {next : Atom → ParseM α} (others : ∀ leaf, Mirrors context tokens none (next leaf) makes) :
    Mirrors context tokens seen ((current >>= report) >>= fun _ => ParseM.takeAtom >>= next) makes := by
  simp only [bind_assoc]
  refine .look fun token _ _ => ?_
  have kept (state : ParseState) (same : ∀ other ∈ some token, state.token = other) :
      ∀ other ∈ some token, ((report token).run context state).2.token = other := by
    rwa [checks.still]
  refine (checks.flat token).chain kept fun _ => ?_
  refine .bind (takeAtom grammar lexical legible) fun leaf => (others leaf).imp ?_
  rintro value counts made taken plain _ ⟨rfl, other⟩
  rw [plain other]
  simpa using made

theorem verb (terminal : Terminal) :
    Flat context tokens seen (verb terminal) fun made => made.isPlain = true :=
  pass grammar lexical legible (by decide) (by decide) fun _ =>
    operand grammar lexical legible word_checks fun _ =>
    pass grammar lexical legible (by decide) (by decide) fun _ =>
    operand grammar lexical legible action_checks fun _ =>
    pass grammar lexical legible (by decide) (by decide) fun _ =>
    operand grammar lexical legible flags_checks fun _ =>
    pass grammar lexical legible (by decide) (by decide) fun _ =>
    .after (expectSemicolon grammar lexical legible) fun _ => .value fun _ => ⟨rfl, rfl⟩

theorem returning (terminal : Terminal) :
    Flat context tokens seen (returning (ParseM.expression room) terminal) fun made => made.isPlain = true :=
  .after (optional grammar lexical legible ";") fun _ =>
    .after (expectSemicolon grammar lexical legible) fun _ => .look fun _ _ _ =>
    .after (warningUnless _ rfl _) fun _ => .value fun _ _ _ => ⟨rfl, rfl⟩

theorem caseLabel (terminal : Terminal) :
    Flat context tokens seen (caseLabel (ParseM.expression room) terminal) fun made => made.isPlain = true :=
  .after (parenthesized grammar lexical legible) fun _ =>
    .after (expectSemicolon grammar lexical legible) fun _ => .value fun _ _ => ⟨rfl, rfl⟩

theorem bare (terminal : Terminal) :
    Flat context tokens seen (bare terminal) fun made => made.isPlain = true :=
  .after (expectSemicolon grammar lexical legible) fun _ => .value fun _ => ⟨rfl, rfl⟩

theorem expressionStatement :
    Flat context tokens seen (expressionStatement (ParseM.expression room)) fun made =>
      made.isPlain = true ∧ made.isChained = true :=
  .after (expression grammar lexical legible room _) fun _ => .after (warningUnless _ rfl _) fun _ =>
    .after (expectSemicolon grammar lexical legible) fun _ => .value fun _ _ _ => ⟨rfl, rfl, rfl⟩

/-! Declarations. -/

theorem parameters :
    Flat context tokens seen (commaList ")" parameter) fun _ => True := by
  refine flat_of_traces grammar lexical 0 (.commaList ")" .parameter)
    (.commaList grammar lexical legible (parameter_traces grammar lexical legible) ")")
    (fun _ => Survey.parameters) ?_
  rintro items words (⟨rfl, rfl⟩ | separated)
  · exact unbraced_nil
  · exact separated.unbraced fun _ _ spelled => spelled.unbraced

theorem arraySize : Flat context tokens seen (arraySize (ParseM.expression room)) fun _ => True :=
  flat_of_traces grammar lexical room .arraySize (arraySize_traces grammar lexical legible)
    (fun _ => Survey.arraySize) fun _ _ size => size.unbraced

theorem initializer (isArray : Bool) :
    Flat context tokens seen (initializer (ParseM.expression room) isArray) fun _ => True :=
  flat_of_traces grammar lexical room (.initializer isArray)
    (initializer_traces grammar lexical legible isArray) (fun _ => Survey.initializer isArray)
    fun _ _ initial => initial.unbraced

theorem nextDeclarator (valueType : ValueType) :
    Flat context tokens seen (nextDeclarator (ParseM.expression room) valueType) fun _ => True :=
  flat_of_traces grammar lexical room (.nextDeclarator valueType)
    (nextDeclarator_traces grammar lexical legible valueType) (fun _ => Survey.nextDeclarator valueType)
    fun _ _ spelled => spelled.unbraced

theorem abstractModifier : Flat context tokens seen abstractModifier fun _ => True := by
  have level (state : ParseState) :
      (leveling grammar lexical).Finds 0 state ParseM.abstractModifier fun _ => [] := Survey.abstractModifier
  refine flat_of_traces grammar lexical 0 .abstractModifier (abstractModifier_traces grammar lexical legible)
    level ?_
  rintro isAbstract _ rfl
  cases isAbstract <;> decide

theorem superclass : Flat context tokens seen superclass fun _ => True :=
  flat_of_traces grammar lexical 0 .superclass (superclass_traces grammar lexical legible)
    (fun _ => Survey.superclass) fun _ _ superclass => superclass.unbraced

omit legible in
theorem variableName {name : Terminal} (known : Known context tokens name) (valueType : ValueType) :
    Flat context tokens seen (variableName name valueType) fun _ => name.isName = true :=
  .ite (fun named => .after (define grammar lexical known _ _) fun _ => .value fun _ => ⟨rfl, named⟩)
    fun _ => of_failing (.after_error grammar lexical (.error rfl _) (fun _ => .value _) 0)

omit legible in
theorem functionName {name : Terminal} (known : Known context tokens name) (returnType : ValueType) :
    Flat context tokens seen (functionName name returnType) fun _ => name.isName = true :=
  .ite (fun named => (define grammar lexical known _ _).imp fun _ _ flat => ⟨flat.1, named⟩)
    fun _ => of_failing (.error rfl _)

theorem className (keyword : Terminal) : Flat context tokens seen (className keyword) fun _ => True := by
  refine .look fun token _ _ => .ite (fun named => ?_) fun _ => ?_
  · refine take grammar lexical legible fun name known same => ?_
    obtain rfl := same token rfl
    refine .after (define grammar lexical known _ _) fun _ => .value fun _ => ?_
    rw [(Terminal.unbraced_of_isName named).counts]
    exact ⟨rfl, trivial⟩
  · exact of_failing (.after_error grammar lexical (.error rfl _)
      (fun _ => .ite (fun _ => .value _) fun _ => .advance) 0)

theorem named {next : Terminal → ParseM α}
    (others : ∀ name, Known context tokens name → Mirrors context tokens none (next name)
      fun value counts => name.isName = true ∧ makes value counts) :
    Mirrors context tokens seen (advanceUnlessCloser >>= next) makes := by
  simp only [advanceUnlessCloser, bind_assoc]
  refine .look fun token known _ => ?_
  have source := known.source grammar lexical legible
  cases closer : token.isCloser with
  | true =>
      simp only [if_true, pure_bind]
      refine (others token known).weaken.imp ?_
      rintro value counts ⟨named, _⟩
      simp [source.isCloser_of_isName named] at closer
  | false =>
      simp only [Bool.false_eq_true, if_false]
      refine take grammar lexical legible fun name known _ => (others name known).imp ?_
      rintro value counts ⟨named, made⟩
      rw [(Terminal.unbraced_of_isName named).counts]
      simpa using made

theorem declarator {name : Terminal} (known : Known context tokens name) (valueType : ValueType) :
    Flat context tokens seen (declarator (ParseM.expression room) valueType name) fun _ =>
      name.isName = true :=
  .after (variableName grammar lexical known valueType) fun _ => .after (arraySize grammar lexical legible)
    fun _ => .after (initializer grammar lexical legible _) fun _ => .value fun _ _ named => ⟨rfl, named⟩

theorem variableList {first : Terminal} (known : Known context tokens first) (keyword : Terminal)
    (valueType : ValueType) :
    Flat context tokens seen (variableList (ParseM.expression room) keyword first valueType) fun made =>
      first.isName = true ∧ made.isPlain = true := by
  have others (declared : Declarator) : Flat context tokens none
      (afterCommas (ParseM.nextDeclarator (ParseM.expression room) valueType) declared) fun _ => True :=
    .whileToken (fun items => pass grammar lexical legible (by decide) (by decide) fun _ =>
      .after (nextDeclarator grammar lexical legible valueType) fun next =>
        .value fun _ counts flat => ⟨by rw [flat.1, Braces.none_add], trivial⟩) ⟨rfl, trivial⟩
  exact .after (declarator grammar lexical legible known valueType) fun declared =>
    .after (others declared) fun _ => .after (expectSemicolon grammar lexical legible) fun _ =>
      .value fun _ _ named => ⟨rfl, named, rfl⟩

end Pieces

section Blocks

abbrev Paired (context : Context) (tokens : List Token) (seen : Option Terminal) (action : ParseM α)
    (part : α → Part) : Prop :=
  Mirrors context tokens seen action fun made counts => (part made).Pairs counts

theorem paired {action : ParseM Stmt}
    (flat : Flat context tokens seen action fun made => made.isPlain = true) :
    Paired context tokens seen action .statement := by
  refine flat.imp ?_
  rintro made _ ⟨rfl, plain⟩
  exact Part.pairs_plain plain

theorem statementsUntilBrace (within : Mirrors context tokens none (statement room) fun made? counts =>
      ∃ made, made? = some made ∧ (Part.statement made).Pairs counts) :
    Paired context tokens seen (statementsUntilBrace (statement room)) .body := by
  refine .whileToken (fun statements => ?_) ⟨0, .nothing, rfl⟩
  refine within.bind fun next => .value ?_
  rintro _ ⟨made, rfl, others, last, rfl⟩ _ ⟨count, before, rfl⟩
  exact ⟨count + others, .another before last, rfl⟩

variable (grammar : context.grammar = Grammar.standard) (lexical : ∀ token ∈ tokens, token.Lexical)
  (legible : ∀ token ∈ tokens, token.complaints Grammar.standard = [])
  (within : Mirrors context tokens none (statement room) fun made? counts =>
    ∃ made, made? = some made ∧ (Part.statement made).Pairs counts)

include grammar lexical legible within

theorem blockBody : Mirrors context tokens seen (blockBody (statement room)) fun body counts =>
    ∃ count, Opens (.body body) count ∧ Braces.opening + counts = Braces.pairs (count + 1) := by
  have body : Paired context tokens none (ParseM.statementsUntilBrace (statement room)) .body :=
    statementsUntilBrace within
  have whole := inScope grammar lexical room .statements .statementsUntilBrace body
  rw [blockBody_eq]
  refine .bind whole.weaken fun body => ?_
  refine .bind (expect grammar lexical legible (by decide)) fun _ => .value ?_
  rintro _ rfl _ ⟨_, rfl, count, opens, rfl⟩
  refine ⟨count, opens, ?_⟩
  rw [← Braces.enclosed, Braces.ofWords_closing, Braces.add_none, Braces.add_assoc]

theorem block : Mirrors context tokens seen (block (statement room)) fun body counts =>
    ∃ count, Opens (.body body) count ∧ counts = Braces.pairs (count + 1) := by
  refine (opened grammar lexical legible (blockBody grammar lexical legible within)).imp ?_
  rintro body _ ⟨_, rfl, made⟩
  exact made

theorem functionScope : Mirrors context tokens none (functionScope (statement room)) fun read counts =>
    ∃ body count, read.2 = some body ∧ Opens (.body body) count ∧
      counts = Braces.opening + Braces.pairs count := by
  refine .after (parameters grammar lexical legible) fun parameters => ?_
  refine pass grammar lexical legible (by decide) (by decide) fun _ => ?_
  have body : Mirrors context tokens none (do
      let body ← ParseM.statementsUntilBrace (statement room)
      return (parameters, some body)) fun read counts => ∃ body count,
        read.2 = some body ∧ Opens (.body body) count ∧ counts = Braces.pairs count := by
    refine (statementsUntilBrace within).bind fun body => .value ?_
    rintro _ ⟨count, opens, rfl⟩
    exact ⟨body, count, rfl, opens, Braces.add_none _⟩
  refine (opened grammar lexical legible body).imp ?_
  rintro _ _ ⟨_, rfl, body, count, made, opens, rfl⟩ _
  exact ⟨body, count, made, opens, rfl⟩

omit within in
theorem closeBody (body? : Option (List Stmt)) : Mirrors context tokens seen (closeBody body?)
    fun body counts => ∀ inside, body? = some inside → body = inside ∧ counts = Braces.closing := by
  cases body? with
  | none => exact .value (by simp)
  | some body =>
      refine .bind (expect grammar lexical legible (by decide)) fun _ => .value ?_
      rintro _ rfl inside same
      exact ⟨Option.some.inj same, by simp⟩

theorem function {name : Terminal} (known : Known context tokens name) (returnType : ValueType) :
    Mirrors context tokens seen (function (statement room) name returnType) fun made counts =>
      name.isName = true ∧ (Part.statement made).Pairs counts := by
  have whole := inScope grammar lexical room .function .functionScope
    (functionScope grammar lexical legible within)
  rw [function_eq]
  refine .after (functionName grammar lexical known returnType) fun _ => ?_
  refine pass grammar lexical legible (by decide) (by decide) fun _ => .bind whole fun read => ?_
  refine .bind (closeBody grammar lexical legible read.2) fun body => .value ?_
  rintro _ closed _ ⟨_, rfl, inside, count, made, opens, rfl⟩ named
  obtain ⟨rfl, rfl⟩ := closed inside made
  refine ⟨named, count + 1, .function opens, ?_⟩
  rw [← Braces.enclosed_scope, Braces.add_none, Braces.add_assoc, Braces.add_assoc]

theorem classDefinition (terminal : Terminal) :
    Paired context tokens seen (classDefinition (statement room) terminal) .statement := by
  refine .after (abstractModifier grammar lexical legible) fun isAbstract => ?_
  refine .after (className grammar lexical legible terminal) fun name => ?_
  refine .after (superclass grammar lexical legible) fun superclass? => ?_
  refine .bind (block grammar lexical legible within) fun body => .value ?_
  rintro _ ⟨count, opens, rfl⟩ _ _ _
  exact ⟨count + 1, .classDefinition opens, Braces.add_none _⟩

theorem guarded (terminal : Terminal) :
    Paired context tokens seen (guarded (ParseM.expression room) (statement room) terminal) .statement := by
  refine .after (parenthesized grammar lexical legible) fun subject => ?_
  refine .bind (block grammar lexical legible within) fun body => .value ?_
  rintro _ ⟨count, opens, rfl⟩ _
  exact ⟨count + 1, .guarded opens, Braces.add_none _⟩

theorem doWhile (terminal : Terminal) :
    Paired context tokens seen (doWhile (ParseM.expression room) (statement room) terminal) .statement := by
  refine .bind (block grammar lexical legible within) fun body => .look fun keyword known _ => ?_
  refine .after (reserve grammar lexical known) fun _ => ?_
  refine .after (expect_name grammar lexical legible (by decide)) fun _ => ?_
  refine .after (parenthesized grammar lexical legible) fun condition => ?_
  refine .after (expectSemicolon grammar lexical legible) fun _ => .value ?_
  rintro _ _ _ _ _ ⟨count, opens, rfl⟩
  exact ⟨count + 1, .doWhile opens, Braces.add_none _⟩

theorem forLoop (terminal : Terminal) :
    Paired context tokens seen (forLoop (ParseM.expression room) (statement room) terminal) .statement := by
  refine pass grammar lexical legible (by decide) (by decide) fun _ => ?_
  refine .after (optional grammar lexical legible ";") fun first? => ?_
  refine pass grammar lexical legible (by decide) (by decide) fun _ => ?_
  refine .after (optional grammar lexical legible ";") fun condition? => ?_
  refine pass grammar lexical legible (by decide) (by decide) fun _ => ?_
  refine .after (optional grammar lexical legible ")") fun step? => ?_
  refine pass grammar lexical legible (by decide) (by decide) fun _ => ?_
  refine .bind (block grammar lexical legible within) fun body => .value ?_
  rintro _ ⟨count, opens, rfl⟩ _ _ _
  exact ⟨count + 1, .forLoop opens, Braces.add_none _⟩

end Blocks

section Choices

def Inner (context : Context) (tokens : List Token) (room : Nat) : Prop :=
  ∀ seen, Mirrors context tokens seen (statement room) fun made? counts =>
    ∃ made, made? = some made ∧ (Part.statement made).Pairs counts ∧
      ∀ token ∈ seen, token.id = "if" → made.isChained = true

theorem Inner.within (inner : Inner context tokens room) :
    Mirrors context tokens none (statement room) fun made? counts =>
      ∃ made, made? = some made ∧ (Part.statement made).Pairs counts :=
  (inner none).imp fun _ _ ⟨made, same, pairs, _⟩ => ⟨made, same, pairs⟩

variable (grammar : context.grammar = Grammar.standard) (lexical : ∀ token ∈ tokens, token.Lexical)
  (legible : ∀ token ∈ tokens, token.complaints Grammar.standard = [])
  (inner : Inner context tokens room)

include grammar lexical legible inner

theorem alternative : Paired context tokens none (alternative (statement room)) fun body =>
    .alternative (some body) := by
  refine .look fun token known _ => .ite (fun id => ?_) fun _ => ?_
  · refine (inner (some token)).bind fun next => .value ?_
    rintro _ ⟨made, rfl, ⟨count, opens, rfl⟩, chained⟩
    exact ⟨count, .elseIf (chained token rfl id) opens, Braces.add_none _⟩
  · refine (block grammar lexical legible inner.within).imp ?_
    rintro body _ ⟨count, opens, rfl⟩
    exact (Opens.elseBlock opens).pairs

theorem elseBody : Paired context tokens none (elseBody (statement room)) .alternative := by
  refine .look fun token known _ => .ite (fun id => ?_) fun _ => .value Opens.noElse.pairs
  obtain ⟨_, own⟩ := (known.source grammar lexical legible).name_of_id id (by decide)
  refine take grammar lexical legible fun keyword known same => ?_
  obtain rfl := same token rfl
  refine .after (reserve grammar lexical known) fun _ => ?_
  refine .bind (alternative grammar lexical legible inner) fun body => .value ?_
  rintro _ pairs _
  rw [own, (unbraced_name "else").counts]
  simpa using pairs

theorem ifElse (terminal : Terminal) : Mirrors context tokens seen
    (ifElse (ParseM.expression room) (statement room) terminal) fun made counts =>
      (Part.statement made).Pairs counts ∧ made.isChained = true := by
  refine .after (parenthesized grammar lexical legible) fun condition => ?_
  refine .bind (block grammar lexical legible inner.within) fun thenBody => ?_
  refine .bind (elseBody grammar lexical legible inner) fun elseBody? => .value ?_
  rintro _ ⟨others, other, rfl⟩ _ ⟨count, opens, rfl⟩ _
  exact ⟨⟨count + 1 + others, .ifElse opens other, by rw [Braces.add_none, Braces.pairs_add]⟩, rfl⟩

theorem declaration (keyword : Terminal) (valueType : ValueType) : Paired context tokens seen
    (declaration (ParseM.expression room) (statement room) keyword valueType) .statement := by
  refine named grammar lexical legible fun name known => .look fun token _ _ => .ite (fun _ => ?_) fun _ => ?_
  · exact function grammar lexical legible inner.within known valueType
  · refine (variableList grammar lexical legible known keyword valueType).imp ?_
    rintro made _ ⟨rfl, named, plain⟩
    exact ⟨named, Part.pairs_plain plain⟩

theorem statementForm {terminal : Terminal} (known : Known context tokens terminal) {form : StatementForm}
    (acts : terminal.denotations.statement? = some form) : Mirrors context tokens seen
      (statementForm (ParseM.expression room) (statement room) terminal form) fun made counts =>
        (Part.statement made).Pairs (Braces.ofWords terminal.words + counts) ∧
          (form = .ifElse → made.isChained = true) := by
  have source := known.source grammar lexical legible
  have starts := (source.statement acts).1
  have within := inner.within
  have alone {action : ParseM Stmt} (paired : Paired context tokens seen action .statement)
      (name : isNameText terminal.id = true) (other : form ≠ .ifElse) :
      Mirrors context tokens seen action fun made counts =>
        (Part.statement made).Pairs (Braces.ofWords terminal.words + counts) ∧
          (form = .ifElse → made.isChained = true) := by
    refine paired.imp fun made counts pairs => ⟨?_, fun same => absurd same other⟩
    rw [(source.name_of_id rfl name).2, (unbraced_name terminal.id).counts, Braces.none_add]
    exact pairs
  have keyword {text : String} (same : (terminal.id == text) = true) (name : isNameText text = true) :
      isNameText terminal.id = true := by
    rw [eq_of_beq same, name]
  cases form with
  | block =>
      refine .bind (blockBody grammar lexical legible within) fun body => .value ?_
      rintro _ ⟨count, opens, same⟩
      rw [(source.mark_of_id (eq_of_beq starts) (by decide)).2, Braces.ofWords_opening, Braces.add_none]
      exact ⟨⟨count + 1, .block opens, same⟩, nofun⟩
  | verb => exact alone (paired (verb grammar lexical legible terminal)) (keyword starts (by decide)) nofun
  | classDefinition =>
      exact alone (classDefinition grammar lexical legible within terminal) (keyword starts (by decide)) nofun
  | returning =>
      exact alone (paired (returning grammar lexical legible terminal)) (keyword starts (by decide)) nofun
  | guarded => exact alone (guarded grammar lexical legible within terminal) starts nofun
  | doWhile =>
      exact alone (doWhile grammar lexical legible within terminal) (keyword starts (by decide)) nofun
  | ifElse =>
      refine (ifElse grammar lexical legible inner terminal).imp fun made counts ⟨pairs, chained⟩ => ?_
      rw [(source.name_of_id (eq_of_beq starts) (by decide)).2, (unbraced_name _).counts, Braces.none_add]
      exact ⟨pairs, fun _ => chained⟩
  | forLoop =>
      exact alone (forLoop grammar lexical legible within terminal) (keyword starts (by decide)) nofun
  | caseLabel =>
      exact alone (paired (caseLabel grammar lexical legible terminal)) (keyword starts (by decide)) nofun
  | bare => exact alone (paired (bare grammar lexical legible terminal)) starts nofun
  | declaration valueType =>
      exact alone (declaration grammar lexical legible inner terminal valueType)
        (keyword starts (by cases valueType <;> decide)) nofun

theorem formedStatement {token : Terminal} {form : StatementForm}
    (acts : token.denotations.statement? = some form) : Mirrors context tokens (some token)
      (formedStatement (ParseM.expression room) (statement room) form) fun made counts =>
        (Part.statement made).Pairs counts ∧ (form = .ifElse → made.isChained = true) := by
  refine take grammar lexical legible fun terminal known same => ?_
  obtain rfl := same token rfl
  refine .after (of_alike (fun _ => ⟨rfl, rfl, rfl, rfl⟩) fun _ => .of_eq rfl rfl) fun _ => ?_
  refine .after (reserve grammar lexical known) fun _ => ?_
  exact (statementForm grammar lexical legible inner known acts).imp fun _ _ made _ _ => made

theorem statementBody : Mirrors context tokens seen
    (statementBody (ParseM.expression room) (statement room)) fun made? counts =>
      ∃ made, made? = some made ∧ (Part.statement made).Pairs counts ∧
        ∀ token ∈ seen, token.id = "if" → made.isChained = true := by
  have chooses : (Grammar.standard.denotations "if").statement? = some .ifElse := by decide
  refine .look fun token known same => ?_
  cases starts : token.denotations.statement? with
  | some form =>
      refine .bind (formedStatement grammar lexical legible inner starts) fun made => .value ?_
      rintro counts ⟨pairs, chained⟩
      refine ⟨made, rfl, by rwa [Braces.add_none], fun other member id => chained ?_⟩
      have acts := ((known.source grammar lexical legible).statement starts).2
      rw [same other member, id, chooses] at acts
      exact (Option.some.inj acts).symm
  | none =>
      cases token.denotations.operand? with
      | some form =>
          refine .after (expressionStatement grammar lexical legible) fun made => .value ?_
          rintro ⟨plain, chained⟩
          exact ⟨made, rfl, Part.pairs_plain plain, fun _ _ _ => chained⟩
      | none =>
          exact of_failing <| .after_error grammar lexical
            (.after_error grammar lexical (recover_traces grammar lexical _)
              (fun _ => .look fun _ _ => .ite (fun _ => .skip) fun _ => .value _) 0)
            (fun _ => .value _) 0

end Choices

section Documents

variable (grammar : context.grammar = Grammar.standard) (lexical : ∀ token ∈ tokens, token.Lexical)
  (legible : ∀ token ∈ tokens, token.complaints Grammar.standard = [])

include grammar lexical legible

/-- By induction on the room for what is inside the statement. -/
theorem statement (room : Nat) : Inner context tokens room := by
  induction room with
  | zero =>
      exact fun _ => of_failing <|
        .after_error grammar lexical (.refuse grammar lexical) (fun _ => .value _) 0
  | succ room ih =>
      intro seen
      have entered : Flat context tokens seen enter fun _ => True :=
        of_alike (fun _ => ⟨rfl, rfl, rfl, rfl⟩) fun _ => .of_eq rfl rfl
      refine entered.chain (fun _ same => same) fun _ => ?_
      refine .bind (statementBody grammar lexical legible ih) fun made? => ?_
      refine .after (of_alike (fun _ => ⟨rfl, rfl, rfl, rfl⟩) fun _ => .of_eq rfl rfl) fun _ => .value ?_
      rintro _ counts made _ ⟨rfl, _⟩
      simpa using made

theorem statements (room : Nat) :
    Paired context tokens none (statements (ParseM.statement room)) .body := by
  refine .bind (statementsUntilBrace (statement grammar lexical legible room).within) fun first => ?_
  refine .whileToken (fun body => ?_) fun counts pairs => by rwa [Braces.add_none]
  exact of_failing <| .after_error grammar lexical (recover_traces grammar lexical _)
    (fun _ => .bind .statementsUntilBrace fun _ => .value _) room

end Documents

end ParseM.Mirrors

def Token.isPunctuation (text : String) (token : Token) : Bool :=
  token.kind == .operator && token.text == text

theorem Token.count_words (tokens : List Token) (text : String) :
    (Token.words tokens).count (mark text) = tokens.countP (isPunctuation text) := by
  rw [List.count, Token.words, List.countP_map, List.countP_filter]
  refine List.countP_congr fun token _ => ?_
  simp only [Function.comp_apply, Token.word, mark, isPunctuation, Bool.and_eq_true, beq_iff_eq,
    Word.mk.injEq, and_iff_left_iff_imp]
  rintro ⟨operator, _⟩
  simp [isSignificant, operator, TokenKind.isTrivia]

namespace Document

open ParseM

variable {options : Options} {source : String}

theorem start_pushes : (start Grammar.standard options source).scopes.pushes = 0 := by
  obtain ⟨_, _, _, _, started, _⟩ := @start_eq (context Grammar.standard options source) (tokens source)
  rw [start, started]
  rfl

theorem run_words : (run Grammar.standard options source).2.words = [] := by
  have nothing : (run Grammar.standard options source).2.remaining = 0 :=
    run_reached.endKnown.remaining run_token_isEnd
  rw [ParseState.words, List.length_eq_zero_iff.mp nothing]
  rfl

/-- Without noise, what was spent when all is read is what the tree tells. -/
theorem run_mirrors (silent : ¬ Noisy (run Grammar.standard options source).2) :
    ∃ counts, Spends (start Grammar.standard options source) counts (run Grammar.standard options source).2 ∧
      (Part.body (run Grammar.standard options source).1).Pairs counts := by
  have grammar : (context Grammar.standard options source).grammar = Grammar.standard := rfl
  have lexical := tokens_lexical source
  have legible := legible_of_clean fun faulty => silent faulty.noisy
  have mirrors := Mirrors.statements grammar lexical legible options.maxDepth
  exact (mirrors _ (start_sound grammar lexical) (by simp)).2.2 silent

/-- Where no error is reported and no operand of a verb is found wrong, there are as many scopes below the
root as braces that open, and as braces that close. How many of them a part of the document opens is told by
its form. -/
theorem parse_mirrors (options : Options) (source : String)
    (clean : (parse Grammar.standard options source).hasErrors = false)
    (quiet : ∀ diagnostic ∈ (parse Grammar.standard options source).diagnostics,
      diagnostic.problem ≠ .expectedActionIdentifier ∧ diagnostic.problem ≠ .expectedIntegerLiteral) :
    let document := parse Grammar.standard options source
    ∃ count, Opens (.body document.statements) count ∧ document.scopes.pushes = count ∧
      document.scopes.size = count + 1 ∧ (tokens source).countP (Token.isPunctuation "\x7b") = count ∧
        (tokens source).countP (Token.isPunctuation "\x7d") = count := by
  have silent : ¬ Noisy (run Grammar.standard options source).2 := by
    rintro ⟨diagnostic, member, error | wrong⟩
    · exact run_clean clean ⟨diagnostic, member, error⟩
    · have reported : diagnostic ∈ (parse Grammar.standard options source).diagnostics := by
        rw [diagnostics_parse]
        exact List.mem_append_left _ member
      obtain ⟨action, literal⟩ := quiet diagnostic reported
      exact wrong.elim action literal
  obtain ⟨_, ⟨scopes, opened, closed⟩, count, opens, rfl⟩ := run_mirrors silent
  have started : (start Grammar.standard options source).words = Token.words (tokens source) :=
    start_words rfl (legible_of_clean (run_clean clean))
  rw [start_pushes, Nat.zero_add] at scopes
  rw [started, run_words, Token.count_words] at opened closed
  have made : (parse Grammar.standard options source).statements =
      (run Grammar.standard options source).1 := by
    simp only [parse, statements_analyzed, ofRun]
  have pushes : (parse Grammar.standard options source).scopes.pushes = count := by
    rw [parse_scopes]
    exact scopes
  have size := (parse_balanced Grammar.standard options source).2.2.2.2.1
  exact ⟨count, made ▸ opens, pushes, pushes ▸ size, opened, closed⟩

theorem parse_mirrors_choice :
    let source := "int f(int a) \x7b return a; \x7d if (f(1)) \x7b \x7d " ++
      "else if (f(2)) \x7b \x7b \x7d \x7d class Key \x7b verb(\"take\", f, 0); \x7d"
    let document := parse Grammar.standard Options.default source
    document.hasErrors = false ∧
      (∀ diagnostic ∈ document.diagnostics,
        diagnostic.problem ≠ .expectedActionIdentifier ∧ diagnostic.problem ≠ .expectedIntegerLiteral) ∧
      ∃ count, Opens (.body document.statements) count ∧ document.scopes.pushes = count ∧
        document.scopes.size = count + 1 ∧ (tokens source).countP (Token.isPunctuation "\x7b") = count ∧
          (tokens source).countP (Token.isPunctuation "\x7d") = count := by
  intro source document
  have clean : document.hasErrors = false := by decide +kernel
  have quiet : ∀ diagnostic ∈ document.diagnostics,
      diagnostic.problem ≠ .expectedActionIdentifier ∧ diagnostic.problem ≠ .expectedIntegerLiteral := by
    decide +kernel
  exact ⟨clean, quiet, parse_mirrors Options.default source clean quiet⟩

end Document

end Adventure
