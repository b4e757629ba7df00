import Adventure.Proofs.Invariants

/-!
Independence. Most steps of reading go neither by the limit on nesting nor by what has been noted, so
they do the same under another limit, or with more notes taken.
-/

namespace Adventure

namespace Context

def withLimit (context : Context) (limit : Nat) : Context :=
  { context with options := { context.options with maxDepth := limit } }

end Context

namespace ParseM

variable {α : Type} {known : Terminal → Prop}

/-- Reading that looks neither at the limit nor at the notes, and takes none. -/
def Heedless (action : ParseM α) : Prop :=
  ∀ (context : Context) (limit : Nat) (state : ParseState) (noted : List Occurrence),
    action.run (context.withLimit limit) { state with occurrences := noted } =
      ((action.run context state).1, { (action.run context state).2 with occurrences := noted })

namespace Heedless

theorem with_occurrences {action : ParseM α} (heedless : Heedless action) (context : Context)
    (state : ParseState) (noted : List Occurrence) :
    action.run context { state with occurrences := noted } =
      ((action.run context state).1, { (action.run context state).2 with occurrences := noted }) :=
  heedless context context.options.maxDepth state noted

theorem occurrences {action : ParseM α} (heedless : Heedless action) (context : Context)
    (state : ParseState) : (action.run context state).2.occurrences = state.occurrences :=
  congrArg (·.2.occurrences) (heedless.with_occurrences context state state.occurrences)

theorem pure (value : α) : Heedless (Pure.pure value : ParseM α) := fun _ _ _ _ => rfl

theorem bind {β : Type} {action : ParseM β} {next : β → ParseM α} (first : Heedless action)
    (others : ∀ value, Heedless (next value)) : Heedless (action >>= next) := by
  intro context limit state noted
  rw [run_bind, run_bind, first context limit state noted]
  exact others _ context limit _ noted

theorem report (diagnostic : Diagnostic) : Heedless (report diagnostic) := fun _ _ _ _ => rfl

theorem lookup (name : String) : Heedless (lookup name) := fun _ _ _ _ => rfl

theorem noteInclude (token : Token) : Heedless (noteInclude token) := by
  unfold ParseM.noteInclude
  cases token.includeTarget with
  | none => exact .pure ()
  | some target => exact .bind (fun _ _ _ _ => rfl) fun _ _ _ _ _ => rfl

theorem absorb (token : Token) : Heedless (absorb token) := by
  intro context limit state noted
  have grammar : (context.withLimit limit).grammar = context.grammar := rfl
  simp only [ParseM.absorb, run_read_bind, grammar]
  cases token.kind with
  | comment | whitespace => rfl
  | directive => exact (bind (noteInclude token) fun _ => .pure none) context limit state noted
  | invalid => exact (bind (report _) fun _ => .pure none) context limit state noted
  | name => exact (bind (lookup token.text) fun found => .pure _) context limit state noted
  | operator =>
      cases context.grammar.get? token.text with
      | some symbol => rfl
      | none => exact (bind (report _) fun _ => .pure none) context limit state noted
  | integer => rfl
  | string =>
      cases token.isClosedString with
      | true => rfl
      | false => exact (bind (report _) fun _ => .pure _) context limit state noted

theorem terminalFrom (tokens : List Token) : Heedless (terminalFrom tokens) := by
  induction tokens with
  | nil => exact fun _ _ _ _ => rfl
  | cons token others ih =>
      unfold ParseM.terminalFrom
      refine .bind (fun _ _ _ _ => rfl) fun _ => .bind (fun _ _ _ _ => rfl) fun _ => ?_
      refine .bind (absorb token) fun found => ?_
      cases found with
      | none => exact ih
      | some terminal => exact .bind (fun _ _ _ _ => rfl) fun _ => .pure terminal

theorem advance : Heedless advance := by
  intro context limit state noted
  simp only [ParseM.advance, run_get_bind]
  exact (bind (terminalFrom _) fun _ => .bind (fun _ _ _ _ => rfl) fun _ => .pure _) context limit
    state noted

theorem takeAtom : Heedless takeAtom := by
  intro context limit state noted
  simp only [ParseM.takeAtom, run_current_bind, run_ite]
  split
  · rfl
  · exact (bind advance fun _ => .pure _) context limit state noted

theorem plain {action : ParseM α} (plain : Plain known action) : Heedless action := by
  cases plain with
  | define =>
      intro context limit state noted
      rw [define_run, define_run]
  | reserve =>
      intro context limit state noted
      rw [reserve_run, reserve_run]
  | _ => exact fun _ _ _ _ => rfl

theorem pushScope : Heedless pushScope := fun _ _ _ _ => rfl

theorem popScope : Heedless popScope := by
  intro context limit state noted
  simp only [ParseM.popScope, run_get_bind]
  cases state.scopes.pop state.scope <;> rfl

end Heedless

end ParseM

end Adventure
