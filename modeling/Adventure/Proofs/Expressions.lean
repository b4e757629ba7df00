import Adventure.Proofs.Reading
import Adventure.Proofs.Spelling

/-!
Reading of expressions that are spelled correctly. What has been read of an expression so far is the
left operand of the operator that comes next, so the statement proved by induction on a spelling is
about any operators that may follow.
-/

namespace Adventure

open Word

def Told (found : Diagnostics) (problems : List Problem) : Prop :=
  found.map (fun diagnostic => (diagnostic.problem, diagnostic.severity)) =
    problems.map fun problem => (problem, Severity.error)

theorem told_nil : Told [] [] := rfl

theorem Told.append {found others : Diagnostics} {problems more : List Problem}
    (first : Told found problems) (second : Told others more) :
    Told (found ++ others) (problems ++ more) := by
  unfold Told at first second ⊢
  simp [first, second]

/-- The expression is made again, up to places, and complained about as it should be. -/
def Makes (value made : Expr) (found : Diagnostics) : Prop :=
  made.unplaced = value.unplaced ∧ Told found value.complaints

def MakesAll (values made : List Expr) (found : Diagnostics) : Prop :=
  Expr.unplacedAll made = Expr.unplacedAll values ∧ Told found (Expr.complaintsAll values)

namespace Expr

theorem isLeftValue_unplaced (value : Expr) : value.unplaced.isLeftValue = value.isLeftValue := by
  cases value <;> rfl

theorem isCallable_unplaced (value : Expr) : value.unplaced.isCallable = value.isCallable := by
  cases value <;> rfl

theorem isAccess_unplaced (value : Expr) : value.unplaced.isAccess = value.isAccess := by
  cases value <;> rfl

theorem parenthesized_unplaced (value : Expr) :
    value.unplaced.head.parenthesized = value.head.parenthesized := by
  cases value <;> rfl

theorem parenthesize_unplaced (value : Expr) :
    value.parenthesize.unplaced = value.unplaced.parenthesize := by
  cases value <;> rfl

theorem complaints_parenthesize (value : Expr) :
    value.parenthesize.complaints = value.complaints := by
  cases value <;> rfl

theorem unplacedAll_append (first second : List Expr) :
    unplacedAll (first ++ second) = unplacedAll first ++ unplacedAll second := by
  induction first with
  | nil => rfl
  | cons value others ih => simp [unplacedAll, ih]

theorem complaintsAll_append (first second : List Expr) :
    complaintsAll (first ++ second) = complaintsAll first ++ complaintsAll second := by
  induction first with
  | nil => rfl
  | cons value others ih => simp [complaintsAll, ih]

end Expr

theorem Makes.isLeftValue {value made : Expr} {found : Diagnostics}
    (makes : Makes value made found) : made.isLeftValue = value.isLeftValue := by
  rw [← made.isLeftValue_unplaced, makes.1, value.isLeftValue_unplaced]

theorem Makes.isCallable {value made : Expr} {found : Diagnostics}
    (makes : Makes value made found) : made.isCallable = value.isCallable := by
  rw [← made.isCallable_unplaced, makes.1, value.isCallable_unplaced]

theorem Makes.parenthesize {value made : Expr} {found : Diagnostics}
    (makes : Makes value made found) : Makes value.parenthesize made.parenthesize found := by
  refine ⟨?_, ?_⟩
  · rw [made.parenthesize_unplaced, makes.1, value.parenthesize_unplaced]
  · rw [value.complaints_parenthesize]
    exact makes.2

theorem MakesAll.snoc {value made : Expr} {values others : List Expr} {found more : Diagnostics}
    (before : MakesAll values others found) (last : Makes value made more) :
    MakesAll (values ++ [value]) (others ++ [made]) (found ++ more) := by
  refine ⟨?_, ?_⟩
  · rw [Expr.unplacedAll_append, Expr.unplacedAll_append, before.1]
    simp only [Expr.unplacedAll, last.1]
  · rw [Expr.complaintsAll_append]
    refine before.2.append ?_
    simpa only [Expr.complaintsAll, List.append_nil] using last.2

theorem Makes.calling_call {callee made : Expr} {found : Diagnostics}
    (makes : Makes callee made found)
    (plain : (callee.head.parenthesized || !callee.isAccess) = true) (head : Head)
    (values : List Expr) : made.calling head values = .call head made values := by
  rw [← callee.parenthesized_unplaced, ← callee.isAccess_unplaced, ← makes.1,
    made.parenthesized_unplaced, made.isAccess_unplaced] at plain
  cases made with
  | binary access object member =>
      have other : (Expr.accessIds.contains access.id && !access.parenthesized) = false := by
        rw [← Bool.not_eq_true', Bool.not_and, Bool.not_not, Bool.or_comm]
        exact plain
      simp only [Expr.calling, other, Bool.false_eq_true, if_false]
  | _ => rfl

theorem Makes.calling_methodCall {access : Head} {object member made : Expr} {found : Diagnostics}
    (makes : Makes (.binary access object member) made found)
    (accesses : access.Spells "." ∨ access.Spells "[") (head : Head) (values : List Expr) :
    ∃ object' member', made.calling head values = .methodCall head object' member' values ∧
      object'.unplaced = object.unplaced ∧ member'.unplaced = member.unplaced := by
  have same := makes.1
  cases made with
  | binary access' object' member' =>
      simp only [Expr.unplaced, Expr.binary.injEq] at same
      obtain ⟨sameAccess, sameObject, sameMember⟩ := same
      have id : access'.id = access.id := by
        simpa only [Head.unplaced] using congrArg Head.id sameAccess
      have plain : access'.parenthesized = access.parenthesized := by
        simpa only [Head.unplaced] using congrArg Head.parenthesized sameAccess
      have direct : (Expr.accessIds.contains access'.id && !access'.parenthesized) = true := by
        rw [id, plain]
        rcases accesses with spells | spells
        · rw [spells.id, spells.plain]
          decide
        · rw [spells.id, spells.plain]
          decide
      exact ⟨object', member', by simp only [Expr.calling, direct, if_true], sameObject, sameMember⟩
  | _ => simp [Expr.unplaced] at same

namespace Terminal.Fits

variable {terminal : Terminal} {head : Head} {text : String}

theorem head_mark (fits : terminal.Fits (mark text)) (spells : head.Spells text) :
    terminal.head.unplaced = head.unplaced := by
  have id : terminal.id = text := fits.id
  have same : terminal.text = text := fits.text
  simp only [Terminal.head, Head.unplaced, id, same, spells.id, spells.text, spells.plain]

theorem head_name (fits : terminal.Fits (Word.name head.text)) (names : head.Names) :
    terminal.head.unplaced = head.unplaced := by
  have same : terminal.text = head.text := fits.text
  simp only [Terminal.head, Head.unplaced, fits.id, same, names.id, names.plain]

end Terminal.Fits

namespace ParseM

variable {context : Context} {room power : Nat}

def operators (room power : Nat) (left : Expr) : ParseM Expr :=
  whileToken (power < ·.denotations.power) (fold (expression room)) left

theorem expression_succ (room power : Nat) :
    expression (room + 1) power = (do
      enter
      let value ← operand (expression room) >>= operators room power
      leave
      return value) := by
  simp only [expression, operators, bind_assoc]

/-- To read the expression and the operators after it is to read these after it was made. -/
def Leads (context : Context) (room : Nat) (value : Expr) (words : List Word) : Prop :=
  ∀ ⦃power : Nat⦄ ⦃rest after : List Word⦄ ⦃result : Expr → Diagnostics → Prop⦄,
    value.admits power = true → value.yields (limit rest) = true →
      (∀ made found, Makes value made found → Reads context (operators room power made) rest after
        fun last others => result last (found ++ others)) →
      Reads context (operand (expression room) >>= operators room power) (words ++ rest) after result

theorem limit_power {terminal : Terminal} {words : List Word}
    (grammar : context.grammar = Grammar.standard) (faces : Faces context terminal words) :
    terminal.denotations.power = limit words := by
  cases words with
  | nil =>
      have ended : terminal = endTerminal context := faces
      have power : (Grammar.standard.denotations "(end)").power = 0 := by decide
      rw [ended, limit, endTerminal, grammar]
      exact power
  | cons word others => exact Terminal.Fits.power faces

theorem operators_stop {made : Expr} {rest : List Word} {result : Expr → Diagnostics → Prop}
    (weak : limit rest ≤ power) (holds : result made []) :
    Reads context (operators room power made) rest rest result := by
  refine .grammar fun grammar => .stop (fun terminal faces => ?_) holds
  have bound : ¬power < terminal.denotations.power := by
    rw [limit_power grammar faces]
    omega
  simp [bound]

theorem Leads.reads {value : Expr} {words rest : List Word}
    (leads : Leads context room value words) (admitted : value.admits power = true)
    (yielded : value.yields (limit rest) = true) (weak : limit rest ≤ power) :
    Reads context (expression (room + 1) power) (words ++ rest) rest (Makes value) := by
  have body : Reads context (operand (ParseM.expression room) >>= operators room power)
      (words ++ rest) rest (Makes value) :=
    leads admitted yielded fun made found makes => operators_stop weak (by simpa using makes)
  rw [expression_succ]
  refine Reads.enter.quiet fun _ _ => body.bind fun made found makes => ?_
  exact Reads.leave.quiet fun _ _ => .value (by simpa using makes)

theorem Leads.of_operand {value : Expr} {words : List Word}
    (reads : ∀ rest, value.yields (limit rest) = true →
      Reads context (operand (ParseM.expression room)) (words ++ rest) rest (Makes value)) :
    Leads context room value words :=
  fun _ _ _ _ _ yielded goesOn => (reads _ yielded).bind goesOn

theorem Reads.fold {word : Word} {others after : List Word} {left : Expr} {form : OperatorForm}
    {inner : Nat → ParseM Expr} {result : Expr → Diagnostics → Prop}
    (acts : word.denotations.operator? = some form)
    (reads : ∀ terminal : Terminal, terminal.Fits word →
      Reads context (operatorForm inner terminal left form) others after result) :
    Reads context (ParseM.fold inner left) (word :: others) after result := by
  refine Reads.advance.quiet fun terminal fits => ?_
  rw [fits.operator?, acts]
  exact reads terminal fits

theorem Leads.operator {left value : Expr} {words others : List Word} {word : Word}
    {form : OperatorForm} (leads : Leads context room left words)
    (acts : word.denotations.operator? = some form)
    (admits : ∀ power, value.admits power = true →
      left.admits power = true ∧ power < word.denotations.power)
    (yields : left.yields word.denotations.power = true)
    (reads : ∀ rest made found terminal, value.yields (limit rest) = true →
      Makes left made found → terminal.Fits word →
        Reads context (operatorForm (ParseM.expression room) terminal made form) (others ++ rest)
          rest fun last more => Makes value last (found ++ more)) :
    Leads context room value (words ++ word :: others) := by
  intro power rest after result admitted yielded goesOn
  obtain ⟨admittedLeft, tighter⟩ := admits power admitted
  rw [List.append_assoc]
  refine leads admittedLeft yields fun made found makes => ?_
  have folds : Reads context (ParseM.fold (ParseM.expression room) made) (word :: others ++ rest)
      rest fun last more => Makes value last (found ++ more) :=
    Reads.fold acts fun terminal fits => reads rest made found terminal yielded makes fits
  refine Reads.round (fold_advances room) (fun terminal fits => ?_) ?_
  · rw [fits.power]
    exact decide_eq_true tighter
  · refine folds.bind fun last more holds => ?_
    refine (goesOn last (found ++ more) holds).imp fun value others told => ?_
    rw [← List.append_assoc]
    exact told

/-! Operands. -/

theorem Reads.operand {word : Word} {others after : List Word} {inner : Nat → ParseM Expr}
    {result : Expr → Diagnostics → Prop}
    (reads : ∀ terminal : Terminal, terminal.Fits word →
      ∃ form, terminal.denotations.operand? = some form ∧ ∀ consumed : Terminal, consumed.Fits word →
        Reads context (operandForm inner consumed form) others after result) :
    Reads context (ParseM.operand inner) (word :: others) after result := by
  refine Reads.current fun terminal faces => ?_
  obtain ⟨form, starts, goesOn⟩ := reads terminal faces
  simp only [starts]
  exact Reads.advance.quiet goesOn

theorem makes_atom {leaf : Atom} {terminal : Terminal} {kind : AtomKind} (same : leaf.kind = kind)
    (head : terminal.head.unplaced = leaf.head.unplaced) :
    Makes (.atom leaf) (.atom (terminal.atom kind)) [] := by
  refine ⟨?_, told_nil⟩
  simp only [Expr.unplaced, Atom.unplaced, Terminal.atom, head, ← same]

theorem name_reads {head : Head} (names : head.Names)
    (free : (Word.name head.text).isFree = true) (rest : List Word) :
    Reads context (operand (expression room)) (Word.name head.text :: rest) rest
      (Makes (.atom ⟨.name, head⟩)) := by
  refine Reads.operand fun terminal fits => ?_
  have makes {consumed : Terminal} (fits : consumed.Fits (Word.name head.text)) :
      Makes (.atom ⟨.name, head⟩) (.atom (consumed.atom .name)) [] :=
    makes_atom rfl (fits.head_name names)
  rcases fits.denotations with undefined | ⟨_, defined⟩
  · refine ⟨.undefinedName, ?_, fun consumed fits => ?_⟩
    · rw [undefined, Terminal.Fits.denotations_of_free free]
      rfl
    · exact (Reads.noteOccurrence consumed).quiet fun _ _ => .value (makes fits)
  · refine ⟨.itself, ?_, fun consumed fits => .value (makes fits)⟩
    rw [defined]
    rfl

theorem literal_reads {head : Head} {kind : TokenKind} (id : head.id = "(literal)")
    (plain : head.parenthesized = false) (literal : kind = .integer ∨ kind = .string)
    (rest : List Word) :
    Reads context (operand (expression room)) (⟨kind, head.text⟩ :: rest) rest
      (Makes (.atom ⟨.literal, head⟩)) := by
  have bound : Word.isFree ⟨kind, head.text⟩ = false := by
    rcases literal with rfl | rfl <;> rfl
  have word : Word.id ⟨kind, head.text⟩ = "(literal)" ∧
      Word.denotations ⟨kind, head.text⟩ = Grammar.standard.denotations "(literal)" := by
    rcases literal with rfl | rfl <;> exact ⟨rfl, rfl⟩
  refine Reads.operand fun terminal fits => ⟨.literal, ?_, fun consumed fits => .value ?_⟩
  · rw [fits.bound bound, word.2]
    decide
  · have same : consumed.text = head.text := fits.text
    refine makes_atom rfl ?_
    simp only [Terminal.head, Head.unplaced, fits.id, word.1, same, id, plain]

theorem keyword_reads {leaf : Atom} {text : String} (form : OperandForm)
    (spells : leaf.head.Spells text) (bound : (Word.name text).isFree = false)
    (acts : (Word.name text).denotations.operand? = some form)
    (forms : ∀ terminal : Terminal, operandForm (expression room) terminal form = (do
      reserve terminal
      return .atom (terminal.atom leaf.kind))) (rest : List Word) :
    Reads context (operand (expression room)) (Word.name text :: rest) rest
      (Makes (.atom leaf)) := by
  refine Reads.operand fun terminal fits => ⟨form, ?_, fun consumed fits => ?_⟩
  · rw [fits.bound bound, acts]
  · have id : consumed.id = text := by
      rw [fits.id, id_name, bound]
      rfl
    have same : consumed.text = text := fits.text
    rw [forms]
    refine (Reads.reserve fits (.inl bound)).quiet fun _ _ => .value (makes_atom rfl ?_)
    simp only [Terminal.head, Head.unplaced, id, same, spells.id, spells.text, spells.plain]

theorem atom_reads {leaf : Atom} {word : Word} (spelled : leaf.Spelled word)
    (formed : leaf.wellFormed = true) (rest : List Word) :
    Reads context (operand (expression room)) (word :: rest) rest (Makes (.atom leaf)) := by
  cases spelled with
  | name names =>
      simp only [Atom.wellFormed, Bool.and_eq_true] at formed
      refine name_reads names ?_ rest
      simp [Word.isFree, Word.name, Option.isNone_iff_eq_none.mp formed.2]
  | literal id plain literal => exact literal_reads id plain literal rest
  | constant spells =>
      exact keyword_reads .constant spells (by decide) (by decide) (fun _ => rfl) rest
  | thisObject spells =>
      exact keyword_reads .thisObject spells (by decide) (by decide) (fun _ => rfl) rest
  | superObject spells =>
      exact keyword_reads .superObject spells (by decide) (by decide) (fun _ => rfl)
        rest

/-! Expressions that stand inside others. -/

def Leading (context : Context) (room : Nat) : Phrase → List Word → Prop
  | .value value, words => ∃ fewer, room = fewer + 1 ∧ Leads context fewer value words
  | .values [], words => words = []
  | .values (first :: others), words =>
      ReadsItems context (expression room Power.none) (expression room Power.none) words
        (MakesAll (first :: others))

theorem Leading.reads {value : Expr} {words rest : List Word}
    (leading : Leading context room (.value value) words) (admitted : value.admits power = true)
    (yielded : value.yields (limit rest) = true) (weak : limit rest ≤ power) :
    Reads context (ParseM.expression room power) (words ++ rest) rest (Makes value) := by
  obtain ⟨fewer, rfl, leads⟩ := leading
  exact leads.reads admitted yielded weak

theorem Leading.inside {value : Expr} {words rest : List Word}
    (leading : Leading context room (.value value) words) (formed : value.wellFormed = true)
    (closed : limit rest = 0) :
    Reads context (ParseM.expression room Power.none) (words ++ rest) rest (Makes value) := by
  refine leading.reads (Expr.admits_zero formed) ?_ ?_
  · rw [closed]
    exact value.yields_zero
  · rw [closed]
    exact Nat.le_refl _

theorem arguments_read {values : List Expr} {words : List Word}
    (leading : Leading context room (.values values) words)
    (opens : values ≠ [] → ∃ word others, words = word :: others ∧ word.opens = true)
    (rest : List Word) :
    Reads context (arguments (expression room)) (words ++ mark ")" :: rest) rest
      (MakesAll values) := by
  have reads : Reads context (commaList ")" (expression room Power.none)) (words ++ mark ")" :: rest)
      (mark ")" :: rest) (MakesAll values) := by
    cases values with
    | nil =>
        obtain rfl : words = [] := leading
        exact .commaList (fun _ => ⟨rfl, told_nil⟩) (fun some => absurd rfl some) (by simp)
          (by decide) (by decide)
    | cons first others =>
        obtain ⟨word, more, rfl, opensWord⟩ := opens (by simp)
        refine .commaList (fun none => by simp at none) (fun _ => leading) ?_ (by decide) (by decide)
        simpa using Word.id_ne_of_opens opensWord (by decide)
  unfold arguments
  refine reads.bind fun made found makes => ?_
  exact (Reads.expect (id_mark ")")).quiet fun _ _ => .value (by simpa using makes)

theorem errorUnless_reads {met : Bool} {problem : Problem} {span : Span} {words : List Word} :
    Reads context (errorUnless met problem span) words words
      fun _ found => Told found (if met then [] else [problem]) := by
  intro state settled ahead
  refine ⟨(), _, _, errorUnless_run met problem span state, settled.stays rfl rfl rfl rfl, ahead, rfl,
    ?_⟩
  cases met <;> rfl

/-! The steps of the induction. -/

theorem group_reads {value : Expr} {words : List Word}
    (leading : Leading context room (.value value) words) (formed : value.wellFormed = true)
    (rest : List Word) :
    Reads context (operand (expression room)) (brackets "(" ")" words ++ rest) rest
      (Makes value.parenthesize) := by
  have shape : brackets "(" ")" words ++ rest = mark "(" :: (words ++ mark ")" :: rest) := by
    simp [brackets]
  rw [shape]
  refine Reads.operand fun terminal fits => ⟨.group, ?_, fun consumed _ => ?_⟩
  · rw [fits.bound rfl]
    decide
  · have closed : limit (mark ")" :: rest) = 0 := closing_limit ")" (by decide)
    refine (leading.inside formed closed).bind fun made found makes => ?_
    exact (Reads.expect (id_mark ")")).quiet fun _ _ => .value (by simpa using makes.parenthesize)

theorem unary_reads {head : Head} {text : String} {value : Expr} {words rest : List Word}
    (spells : head.Spells text)
    (acts : (Grammar.standard.denotations text).operand? = some .unaryOperator)
    (leading : Leading context room (.value value) words)
    (formed : Expr.wellFormed (.unary head value) = true)
    (yielded : Expr.yields (limit rest) (.unary head value) = true) :
    Reads context (operand (expression room)) (mark text :: words ++ rest) rest
      (Makes (.unary head value)) := by
  have noStep : ∀ text ∈ Expr.stepIds, (Grammar.standard.denotations text).operand? = none := by
    decide
  have before : Expr.stepIds.contains text = false := by
    rw [List.contains_eq_mem, decide_eq_false_iff_not]
    intro step
    simp [noStep text step] at acts
  simp only [Expr.wellFormed, spells.id, before, Bool.false_eq_true, if_false,
    Bool.and_eq_true] at formed
  obtain ⟨⟨_, inner⟩, _, tight⟩ := formed
  obtain ⟨admitted, apart⟩ := Expr.unary_operand inner tight
  simp only [Expr.yields, Expr.head, spells.plain, spells.id, before, Bool.false_or,
    decide_eq_true_eq] at yielded
  refine Reads.operand fun terminal fits => ⟨.unaryOperator, ?_, fun consumed fits => ?_⟩
  · rw [fits.bound rfl, denotations_mark, acts]
  · refine (Reads.reserve fits (.inl rfl)).quiet fun _ _ => ?_
    have yieldedInner := Expr.yields_mono apart yielded
    refine (leading.reads admitted yieldedInner yielded).bind fun made found makes => ?_
    refine .value ⟨?_, ?_⟩
    · simp only [Expr.unplaced, makes.1, fits.head_mark spells]
    · simpa only [Expr.complaints, spells.id, before, Bool.false_and, Bool.false_eq_true, if_false,
        List.append_nil] using makes.2

theorem property_reads {property : Head} (names : property.Names) (rest : List Word) :
    Reads context ParseM.property (Word.name property.text :: rest) rest
      (Makes (.atom ⟨.literal, property⟩)) := by
  unfold ParseM.property
  refine Reads.current fun terminal faces => ?_
  have name : terminal.isName = true := by
    rw [Terminal.Fits.isName faces]
    rfl
  simp only [name, if_true]
  exact Reads.advance.quiet fun consumed fits => .value (makes_atom rfl (fits.head_name names))

theorem step_leads {head : Head} {text : String} {value : Expr} {words : List Word}
    (spells : head.Spells text)
    (acts : (Grammar.standard.denotations text).operator? = some .step)
    (leads : Leads context room value words)
    (formed : Expr.wellFormed (.unary head value) = true) :
    Leads context room (.unary head value) (words ++ [mark text]) := by
  have step := Expr.operator?_step text acts
  have powers := operator_powers acts
  have power : (Grammar.standard.denotations text).power = Power.assignment :=
    Nat.le_antisymm powers.2 powers.1
  simp only [Expr.wellFormed, spells.id, step, if_true, Bool.and_eq_true] at formed
  obtain ⟨⟨_, leftFormed⟩, tight⟩ := formed
  have known : (mark text).denotations.operator? = some .step := acts
  refine leads.operator known (fun least admitted => ?_) ?_ ?_
  · simp only [Expr.admits, Expr.head, spells.plain, spells.id, step, Bool.not_true,
      Bool.false_or, decide_eq_true_eq] at admitted
    rw [denotations_mark]
    exact ⟨Expr.admits_left tight (power ▸ admitted), admitted⟩
  · rw [denotations_mark, power]
    exact Expr.yields_left leftFormed tight (Nat.le_refl _) (.inr (by decide))
  · intro rest made found terminal _ makes fits
    refine errorUnless_reads.bind fun _ problems told => .value ⟨?_, ?_⟩
    · simp only [Expr.unplaced, makes.1, fits.head_mark spells]
    · rw [makes.isLeftValue] at told
      simp only [Expr.complaints, spells.id, step, Bool.true_and, List.append_nil]
      refine makes.2.append ?_
      cases left : value.isLeftValue with
      | true => simpa [left] using told
      | false => simpa [left] using told

theorem right_reads {head : Head} {left right made : Expr} {form : OperatorForm}
    {others rest : List Word} {terminal : Terminal} {found : Diagnostics} {problems : List Problem}
    (sides : Expr.Sides head left right form) (leading : Leading context room (.value right) others)
    (yielded : Expr.yields (limit rest) (.binary head left right) = true)
    (same : terminal.head.unplaced = head.unplaced) (makes : made.unplaced = left.unplaced)
    (told : Told found problems) :
    Reads context
      (do
        let right ← expression room (form.inside (Grammar.standard.denotations head.id).power)
        return Expr.binary terminal.head made right)
      (others ++ rest) rest fun last more =>
        last.unplaced = (Expr.binary head left right).unplaced ∧
          Told (found ++ more) (problems ++ right.complaints) := by
  obtain ⟨weak, yieldedRight⟩ := sides.yieldsRight yielded
  refine (leading.reads sides.admitsRight yieldedRight weak).bind fun last more makes' => ?_
  refine .value ⟨?_, ?_⟩
  · simp only [Expr.unplaced, same, makes, makes'.1]
  · rw [List.append_nil]
    exact told.append makes'.2

theorem binary_leads {head : Head} {text : String} {left right : Expr} {form : OperatorForm}
    {words others : List Word} (spells : head.Spells text)
    (acts : (Grammar.standard.denotations text).operator? = some form)
    (between : form.isInfix = true) (leads : Leads context room left words)
    (leading : Leading context room (.value right) others)
    (formed : Expr.wellFormed (.binary head left right) = true) :
    Leads context room (.binary head left right) (words ++ mark text :: others) := by
  obtain rfl := spells.id
  have sides := Expr.sides spells.plain acts between formed
  have known : (mark head.id).denotations.operator? = some form := acts
  refine leads.operator known (fun power admitted => ?_) sides.yieldsLeft ?_
  · exact ⟨sides.admitsLeft admitted, (Expr.admits_binary spells.plain).mp admitted⟩
  · intro rest made found terminal yielded makes fits
    have same := fits.head_mark spells
    have power : terminal.denotations.power = (Grammar.standard.denotations head.id).power :=
      fits.power
    have assigns := Expr.assignmentIds_iff acts
    cases form with
    | leftAssociative | rightAssociative =>
        have other : Expr.assignmentIds.contains head.id = false := by simpa using assigns
        have reads := right_reads sides leading yielded same makes.1 makes.2
        simp only [OperatorForm.inside] at reads
        simp only [operatorForm, power]
        refine reads.imp fun last more holds => ⟨holds.1, ?_⟩
        simpa only [Expr.complaints, other, Bool.false_and, Bool.false_eq_true, if_false,
          List.append_nil] using holds.2
    | assignment =>
        refine errorUnless_reads.bind fun _ problems told => ?_
        rw [makes.isLeftValue] at told
        refine (right_reads sides leading yielded same makes.1 (makes.2.append told)).imp
          fun last more holds => ⟨holds.1, ?_⟩
        rw [← List.append_assoc]
        have assigning : Expr.assignmentIds.contains head.id = true := assigns.mpr rfl
        cases target : left.isLeftValue with
        | true => simpa [Expr.complaints, target] using holds.2
        | false =>
            simpa only [Expr.complaints, assigning, target, Bool.not_false, Bool.and_self, if_true,
              Bool.false_eq_true, if_false] using holds.2
    | _ => simp [OperatorForm.isInfix] at between

theorem ternary_leads {head : Head} {condition thenValue elseValue : Expr}
    {words thenWords elseWords : List Word} (spells : head.Spells "?")
    (leads : Leads context room condition words)
    (second : Leading context room (.value thenValue) thenWords)
    (third : Leading context room (.value elseValue) elseWords)
    (formed : Expr.wellFormed (.ternary head condition thenValue elseValue) = true) :
    Leads context room (.ternary head condition thenValue elseValue)
      (words ++ mark "?" :: (thenWords ++ mark ":" :: elseWords)) := by
  have known : (mark "?").denotations.operator? = some .ternary := by decide
  have power : (mark "?").denotations.power = Power.ternary := by decide
  simp only [Expr.wellFormed, Bool.and_eq_true] at formed
  obtain ⟨⟨⟨⟨_, conditionFormed⟩, tight⟩, thenFormed⟩, elseFormed⟩ := formed
  refine leads.operator known (fun least admitted => ?_) ?_ ?_
  · simp only [Expr.admits, Expr.head, spells.plain, Expr.power?, spells.id, Bool.false_or,
      Option.all_some, decide_eq_true_eq] at admitted
    have weaker : least < Power.ternary := power ▸ admitted
    exact ⟨Expr.admits_left tight weaker, power ▸ weaker⟩
  · rw [power]
    exact Expr.yields_left conditionFormed tight (Nat.le_refl _) (.inr (by decide))
  · intro rest made found terminal yielded makes fits
    have closed : limit rest = 0 := by
      simpa only [Expr.yields, Expr.head, spells.plain, Bool.false_or, beq_iff_eq] using yielded
    have apart : limit (mark ":" :: (elseWords ++ rest)) = 0 := closing_limit ":" (by decide)
    rw [List.append_assoc, List.cons_append]
    refine (second.inside thenFormed apart).bind fun made' found' makes' => ?_
    refine (Reads.expect (id_mark ":")).quiet fun _ _ => ?_
    refine (third.inside elseFormed closed).bind fun last more makes'' => .value ⟨?_, ?_⟩
    · simp only [Expr.unplaced, makes.1, makes'.1, makes''.1, fits.head_mark spells]
    · rw [List.append_nil, ← List.append_assoc]
      exact (makes.2.append makes'.2).append makes''.2

theorem suffix_leads {text : String} {form : OperatorForm} {left value : Expr}
    {words others : List Word} (known : (mark text).denotations.operator? = some form)
    (power : (mark text).denotations.power = Power.member) (leads : Leads context room left words)
    (formed : left.wellFormed = true) (tight : left.fitsLeft Power.member = true)
    (binds : ∀ least, value.admits least = true → least < Power.member)
    (reads : ∀ rest made found terminal, Makes left made found →
      Terminal.Fits terminal (mark text) →
        Reads context (operatorForm (expression room) terminal made form) (others ++ rest) rest
          fun last more => Makes value last (found ++ more)) :
    Leads context room value (words ++ mark text :: others) := by
  refine leads.operator known (fun least admitted => ?_) ?_ fun rest made found terminal _ =>
    reads rest made found terminal
  · rw [power]
    exact ⟨Expr.admits_left tight (binds least admitted), binds least admitted⟩
  · rw [power]
    exact Expr.yields_left formed tight (Nat.le_refl _) (.inr (by decide))

theorem power_member : ∀ text ∈ [".", "[", "("],
    (Grammar.standard.denotations text).power = Power.member := by
  decide

theorem member_leads {head property : Head} {object : Expr} {words : List Word}
    (spells : head.Spells ".") (names : property.Names) (leads : Leads context room object words)
    (formed : Expr.wellFormed (.binary head object (.atom ⟨.literal, property⟩)) = true) :
    Leads context room (.binary head object (.atom ⟨.literal, property⟩))
      (words ++ [mark ".", Word.name property.text]) := by
  have known : (mark ".").denotations.operator? = some .member := by decide
  have power := power_member "." (by decide)
  simp only [Expr.wellFormed, spells.id, Expr.acts_dot, Bool.and_eq_true] at formed
  obtain ⟨⟨_, objectFormed⟩, tight, _⟩ := formed
  refine suffix_leads known power leads objectFormed tight (fun least admitted => ?_) ?_
  · rw [Expr.admits_binary spells.plain, spells.id, power] at admitted
    exact admitted
  · intro rest made found terminal makes fits
    refine (property_reads names rest).bind fun last more makes' => .value ⟨?_, ?_⟩
    · simp only [Expr.unplaced, makes.1, fits.head_mark spells]
      exact congrArg _ makes'.1
    · have other : Expr.assignmentIds.contains "." = false := by decide
      simp only [Expr.complaints, spells.id, other, Bool.false_and, Bool.false_eq_true, if_false]
      rw [List.append_nil, List.append_nil]
      exact makes.2.append makes'.2

theorem index_leads {head : Head} {object index : Expr} {words others : List Word}
    (spells : head.Spells "[") (leads : Leads context room object words)
    (leading : Leading context room (.value index) others)
    (formed : Expr.wellFormed (.binary head object index) = true) :
    Leads context room (.binary head object index) (words ++ brackets "[" "]" others) := by
  have known : (mark "[").denotations.operator? = some .index := by decide
  have power := power_member "[" (by decide)
  simp only [Expr.wellFormed, spells.id, Expr.acts_bracket, Bool.and_eq_true] at formed
  obtain ⟨⟨_, objectFormed⟩, tight, indexFormed⟩ := formed
  refine suffix_leads known power leads objectFormed tight (fun least admitted => ?_) ?_
  · rw [Expr.admits_binary spells.plain, spells.id, power] at admitted
    exact admitted
  · intro rest made found terminal makes fits
    have closed : limit (mark "]" :: rest) = 0 := closing_limit "]" (by decide)
    rw [List.append_assoc, List.singleton_append]
    refine (leading.inside indexFormed closed).bind fun last more makes' => ?_
    refine (Reads.expect (id_mark "]")).quiet fun _ _ => .value ⟨?_, ?_⟩
    · simp only [Expr.unplaced, makes.1, makes'.1, fits.head_mark spells]
    · have other : Expr.assignmentIds.contains "[" = false := by decide
      simp only [Expr.complaints, spells.id, other, Bool.false_and, Bool.false_eq_true, if_false]
      rw [List.append_nil, List.append_nil]
      exact makes.2.append makes'.2

theorem call_leads {head : Head} {callee : Expr} {arguments : List Expr} {words others : List Word}
    (spells : head.Spells "(") (leads : Leads context room callee words)
    (leading : Leading context room (.values arguments) others)
    (opens : arguments ≠ [] → ∃ word more, others = word :: more ∧ word.opens = true)
    (formed : Expr.wellFormed (.call head callee arguments) = true) :
    Leads context room (.call head callee arguments) (words ++ brackets "(" ")" others) := by
  have known : (mark "(").denotations.operator? = some .call := by decide
  have power := power_member "(" (by decide)
  simp only [Expr.wellFormed, Bool.and_eq_true] at formed
  obtain ⟨⟨⟨⟨_, calleeFormed⟩, tight⟩, plain⟩, _⟩ := formed
  refine suffix_leads known power leads calleeFormed tight (fun least admitted => ?_) ?_
  · simpa only [Expr.admits, Expr.head, spells.plain, Expr.power?, spells.id, power,
      Bool.false_or, Option.all_some, decide_eq_true_eq] using admitted
  · intro rest made found terminal makes fits
    rw [List.append_assoc, List.singleton_append]
    refine (arguments_read leading opens rest).bind fun values more makes' => ?_
    rw [makes.calling_call plain]
    refine errorUnless_reads.bind fun _ problems told => .value ⟨?_, ?_⟩
    · simp only [Expr.unplaced, makes.1, makes'.1, fits.head_mark spells]
    · rw [makes.isCallable] at told
      rw [List.append_nil, ← List.append_assoc]
      exact (makes.2.append makes'.2).append told

theorem methodCall_leads {head access : Head} {object member : Expr} {arguments : List Expr}
    {words others : List Word} (spells : head.Spells "(")
    (accesses : access.Spells "." ∨ access.Spells "[")
    (leads : Leads context room (.binary access object member) words)
    (accessFormed : Expr.wellFormed (.binary access object member) = true)
    (leading : Leading context room (.values arguments) others)
    (opens : arguments ≠ [] → ∃ word more, others = word :: more ∧ word.opens = true) :
    Leads context room (.methodCall head object member arguments)
      (words ++ brackets "(" ")" others) := by
  have known : (mark "(").denotations.operator? = some .call := by decide
  have power := power_member "(" (by decide)
  have tight : Expr.fitsLeft Power.member (.binary access object member) = true := by
    rcases accesses with spells | spells
    · simp [Expr.fitsLeft, Expr.fits, Expr.power?, Expr.isTernary, Expr.isAssigning, spells.id,
        power_member ".", Expr.assignmentIds]
    · simp [Expr.fitsLeft, Expr.fits, Expr.power?, Expr.isTernary, Expr.isAssigning, spells.id,
        power_member "[", Expr.assignmentIds]
  refine suffix_leads known power leads accessFormed tight (fun least admitted => ?_) ?_
  · simpa only [Expr.admits, Expr.head, spells.plain, Expr.power?, spells.id, power,
      Bool.false_or, Option.all_some, decide_eq_true_eq] using admitted
  · intro rest made found terminal makes fits
    rw [List.append_assoc, List.singleton_append]
    refine (arguments_read leading opens rest).bind fun values more makes' => ?_
    obtain ⟨object', member', same, sameObject, sameMember⟩ :=
      makes.calling_methodCall accesses terminal.head values
    rw [same]
    refine .value ⟨?_, ?_⟩
    · simp only [Expr.unplaced, sameObject, sameMember, makes'.1, fits.head_mark spells]
    · rw [List.append_nil]
      have access : Expr.assignmentIds.contains access.id = false := by
        rcases accesses with spells | spells
        · rw [spells.id]
          decide
        · rw [spells.id]
          decide
      have told := makes.2.append makes'.2
      simpa only [Expr.complaints, access, Bool.false_and, Bool.false_eq_true, if_false,
        List.append_nil] using told

theorem Leading.one {value : Expr} {words : List Word}
    (leading : Leading context room (.value value) words) (formed : value.wellFormed = true) :
    Leading context room (.values [value]) words := by
  refine ReadsItems.one fun rest closed => ?_
  refine (leading.inside formed closed).imp fun made found makes => ⟨?_, ?_⟩
  · simp only [Expr.unplacedAll, makes.1]
  · simpa only [Expr.complaintsAll, List.append_nil] using makes.2

theorem Leading.more {first value : Expr} {values : List Expr} {words others : List Word}
    (before : Leading context room (.values (first :: values)) words)
    (last : Leading context room (.value value) others) (formed : value.wellFormed = true) :
    Leading context room (.values (first :: values ++ [value])) (words ++ mark "," :: others) := by
  have advances : Advances context (·.id == ",") (afterComma (expression room Power.none)) :=
    afterComma_advances (Built.inner Power.none) room
  refine ReadsItems.more before advances fun rest made found closed makes => ?_
  exact (last.inside formed closed).imp fun next more makes' => makes.snoc makes'

theorem Leading.leads {value : Expr} {words : List Word}
    (leading : Leading context (room + 1) (.value value) words) : Leads context room value words := by
  obtain ⟨_, same, leads⟩ := leading
  cases same
  exact leads

theorem Leading.of_leads {value : Expr} {words : List Word}
    (leads : Leads context room value words) : Leading context (room + 1) (.value value) words :=
  ⟨room, rfl, leads⟩

/-- An expression is read as it was spelled. -/
theorem spelled_leading {phrase : Phrase} {words : List Word} (spelled : Spelled room phrase words)
    (formed : phrase.wellFormed = true) : Leading context room phrase words := by
  -- On the spelling: every operator finds its left side read already, which is why `Leads` is proved of it.
  have opens {room : Nat} {values : List Expr} {words : List Word}
      (inside : Spelled room (.values values) words)
      (formed : Phrase.wellFormed (.values values) = true) (some : values ≠ []) :
      ∃ word others, words = word :: others ∧ word.opens = true := by
    refine inside.opens formed ?_
    cases values with
    | nil => exact absurd rfl some
    | cons => rfl
  induction spelled with
  | atom leaf =>
      simp only [Phrase.wellFormed, Expr.wellFormed] at formed
      exact .of_leads (.of_operand fun rest _ => atom_reads leaf formed rest)
  | @group _ value _ _ ih =>
      simp only [Phrase.wellFormed, value.wellFormed_parenthesize] at formed
      exact .of_leads (.of_operand fun rest _ => group_reads (ih formed) formed rest)
  | @unary _ _ _ operand _ spells acts _ ih =>
      have inner : operand.wellFormed = true := by
        simp only [Phrase.wellFormed, Expr.wellFormed, Bool.and_eq_true] at formed
        exact formed.1.2
      exact .of_leads (.of_operand fun _ yielded =>
        unary_reads spells acts (ih inner) formed yielded)
  | @step _ _ _ operand _ spells acts _ ih =>
      have inner : operand.wellFormed = true := by
        simp only [Phrase.wellFormed, Expr.wellFormed, Bool.and_eq_true] at formed
        exact formed.1.2
      exact .of_leads (step_leads spells acts (ih inner).leads formed)
  | binary spells acts between _ _ firstIH secondIH =>
      have acts' := acts
      rw [← spells.id] at acts'
      have sides := Expr.sides spells.plain acts' between formed
      exact .of_leads (binary_leads spells acts between (firstIH sides.leftFormed).leads
        (secondIH sides.rightFormed) formed)
  | ternary spells _ _ _ firstIH secondIH thirdIH =>
      have parts := formed
      simp only [Phrase.wellFormed, Expr.wellFormed, Bool.and_eq_true] at parts
      obtain ⟨⟨⟨⟨_, first⟩, _⟩, second⟩, third⟩ := parts
      exact .of_leads
        (ternary_leads spells (firstIH first).leads (secondIH second) (thirdIH third) formed)
  | member spells names _ ih =>
      have parts := formed
      simp only [Phrase.wellFormed, Expr.wellFormed, Bool.and_eq_true] at parts
      exact .of_leads (member_leads spells names (ih parts.1.2).leads formed)
  | index spells _ _ leftIH insideIH =>
      have parts := formed
      simp only [Phrase.wellFormed, Expr.wellFormed, spells.id, Expr.acts_bracket,
        Bool.and_eq_true] at parts
      exact .of_leads
        (index_leads spells (leftIH parts.1.2).leads (insideIH parts.2.2) formed)
  | call spells _ inside leftIH insideIH =>
      have parts := formed
      simp only [Phrase.wellFormed, Expr.wellFormed, Bool.and_eq_true] at parts
      obtain ⟨⟨⟨⟨_, callee⟩, _⟩, _⟩, arguments⟩ := parts
      exact .of_leads (call_leads spells (leftIH callee).leads (insideIH arguments)
        (opens inside arguments) formed)
  | methodCall spells accesses left inside leftIH insideIH =>
      have access := left.wellFormed_access accesses formed
      have parts := formed
      simp only [Phrase.wellFormed, Expr.wellFormed, Bool.and_eq_true] at parts
      exact .of_leads (methodCall_leads spells accesses (leftIH access).leads access
        (insideIH parts.2) (opens inside parts.2))
  | none => rfl
  | one _ ih =>
      simp only [Phrase.wellFormed, Expr.wellFormedAll, Bool.and_true] at formed
      exact (ih formed).one formed
  | @more _ _ value _ _ _ _ _ beforeIH lastIH =>
      rw [Phrase.wellFormed, Expr.wellFormedAll_append, Bool.and_eq_true] at formed
      have last : value.wellFormed = true := by
        simpa only [Expr.wellFormedAll, Bool.and_true] using formed.2
      exact (beforeIH formed.1).more (lastIH last) last

end ParseM

/-- Printing a well-formed expression, with a `;` after it, and reading it again gives the same
expression. The reading stops at the `;`, and all it complains about is what is assigned to without
being a left value and what is called without being callable. -/
theorem Expr.words_read {value : Expr} {options : Options} (formed : value.wellFormed = true)
    (room : value.nesting ≤ options.maxDepth) :
    let source := Word.spaced (value.words ++ [mark ";"])
    ∃ made final, (ParseM.expression options.maxDepth Power.none).run
        (Document.context Grammar.standard options source)
        (Document.start Grammar.standard options source) = (made, final) ∧
      made.unplaced = value.unplaced ∧ final.token.id = ";" ∧ final.words = [mark ";"] ∧
      final.diagnostics.map (fun diagnostic => (diagnostic.problem, diagnostic.severity)) =
        value.complaints.map fun problem => (problem, Severity.error) := by
  have spelled : Spelled options.maxDepth (.value value) value.words :=
    (words_spelled value formed).mono room
  have solid : ∀ word ∈ value.words ++ [mark ";"], word.isSolid = true := by
    rw [List.forall_mem_append, List.forall_mem_singleton]
    exact ⟨spelled.solid formed, isSolid_punctuation (by decide)⟩
  obtain ⟨settled, ahead, told⟩ := @ParseM.spaced_start options _ solid
  have closed : limit [mark ";"] = 0 := ParseM.closing_limit ";" (by decide)
  obtain ⟨made, final, found, ran, settled', rest, told', makes⟩ :=
    (ParseM.spelled_leading spelled formed).inside formed closed _ settled ahead
  refine ⟨made, final, ran, makes.1, ?_, rest, ?_⟩
  · have faces := settled'.faces
    rw [rest] at faces
    exact Terminal.Fits.id faces
  · rw [told', told, List.nil_append]
    exact makes.2

theorem Expr.words_read_product :
    let head (id text : String) : Head := { id, text, span := {} }
    let name (text : String) : Expr := .atom ⟨.name, head "(name)" text⟩
    let sum : Expr := .binary (head "+" "+") (name "a") (name "b")
    let call : Expr :=
      .methodCall (head "(" "(") (name "c") (.atom ⟨.literal, head "(name)" "d"⟩)
        [.atom ⟨.literal, head "(literal)" "1"⟩, .binary (head "=" "=") (name "x") (name "y")]
    let value : Expr := .binary (head "*" "*") sum.parenthesize (.unary (head "-" "-") call)
    Word.spaced value.words = "( a + b ) * - c . d ( 1 , x = y )" ∧ value.wellFormed = true ∧
      ∃ made final, (ParseM.expression 5 Power.none).run
          (Document.context Grammar.standard { Options.default with maxDepth := 5 }
            "( a + b ) * - c . d ( 1 , x = y ) ;")
          (Document.start Grammar.standard { Options.default with maxDepth := 5 }
            "( a + b ) * - c . d ( 1 , x = y ) ;") = (made, final) ∧
        made.unplaced = value.unplaced ∧ final.diagnostics = [] := by
  intro head name sum call value
  have formed : value.wellFormed = true := by decide
  have source : Word.spaced (value.words ++ [mark ";"]) =
      "( a + b ) * - c . d ( 1 , x = y ) ;" := by decide
  have read := @Expr.words_read value { Options.default with maxDepth := 5 } formed
    (by decide)
  rw [source] at read
  obtain ⟨made, final, ran, same, _, _, told⟩ := read
  refine ⟨by decide, formed, made, final, ran, same, ?_⟩
  have quiet : value.complaints = [] := by decide
  simpa [quiet] using told

end Adventure
