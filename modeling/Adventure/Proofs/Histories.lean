import Adventure.Proofs.Lookups

/-!
Histories of a tree of scopes. Whatever is opened, closed, declared and reserved in whatever order, what a
scope binds a name to follows from the declarations and reservations of that name in that scope alone, and so
does what is reported on it.
-/

namespace Adventure.ScopeTree

inductive Operation
  | push (parent : Nat)
  | pop (scope : Nat)
  | define (scope : Nat) (definition : Definition)
  | reserve (scope : Nat) (terminal : Terminal)

namespace Operation

def apply (tree : ScopeTree) : Operation → ScopeTree × Option Diagnostic
  | push parent => (tree.push parent, none)
  | pop scope =>
      match tree.pop scope with
      | .ok after => (after, none)
      | .error _ => (tree, none)
  | define scope definition => tree.define scope definition
  | reserve scope terminal => tree.reserve scope terminal

/-- A scope is opened below one that there is, and the root is not closed. -/
def Allowed (tree : ScopeTree) : Operation → Prop
  | push parent => parent < tree.size
  | pop scope => scope ≠ 0
  | define .. | reserve .. => True

instance (tree : ScopeTree) (operation : Operation) : Decidable (operation.Allowed tree) :=
  match operation with
  | push parent => inferInstanceAs (Decidable (parent < tree.size))
  | pop scope => inferInstanceAs (Decidable (scope ≠ 0))
  | define .. | reserve .. => inferInstanceAs (Decidable True)

def address? : Operation → Option (Nat × String)
  | push _ | pop _ => none
  | define scope definition => some (scope, definition.name)
  | reserve scope terminal => some (scope, terminal.text)

def sizeAfter (size : Nat) : Operation → Nat
  | push _ => size + 1
  | pop _ | define .. | reserve .. => size

/-- What an operation that is about a name makes of the name's binding, and what it reports. A declaration
always takes the binding's place, a reservation only while the name is not reserved. -/
def rebind (bound? : Option Definition) : Operation → Option Definition × Option Diagnostic
  | push _ | pop _ => (bound?, none)
  | define _ definition =>
      (some definition, bound?.map fun previous =>
        if previous.reserved then ⟨.alreadyReserved, previous.span, .error⟩
        else ⟨.alreadyDefined, previous.span, .warning⟩)
  | reserve scope terminal =>
      if terminal.isName && !terminal.reserved then
        match bound? with
        | none => (some (reservation scope terminal), none)
        | some previous =>
            if previous.reserved then (some previous, none)
            else (some (reservation scope terminal),
              if previous.arity = .name then some ⟨.alreadyDefined, terminal.span, .warning⟩ else none)
      else (bound?, none)

end Operation

def after (tree : ScopeTree) : List Operation → ScopeTree
  | [] => tree
  | operation :: others => after (operation.apply tree).1 others

def Permits (tree : ScopeTree) : List Operation → Prop
  | [] => True
  | operation :: others => operation.Allowed tree ∧ Permits (operation.apply tree).1 others

instance decidablePermits (tree : ScopeTree) :
    (operations : List Operation) → Decidable (Permits tree operations)
  | [] => inferInstanceAs (Decidable True)
  | operation :: others =>
      have := decidablePermits (operation.apply tree).1 others
      inferInstanceAs (Decidable (operation.Allowed tree ∧ Permits (operation.apply tree).1 others))

def reports (tree : ScopeTree) (scope : Nat) (name : String) : List Operation → Diagnostics
  | [] => []
  | operation :: others =>
      (if operation.address? = some (scope, name) then (operation.apply tree).2.toList else []) ++
        reports (operation.apply tree).1 scope name others

/-- The operations about a name in a scope that come when the scope is there, where `size` scopes are there
to begin with. -/
def addressed (scope : Nat) (name : String) : Nat → List Operation → List Operation
  | _, [] => []
  | size, operation :: others =>
      (if operation.address? = some (scope, name) ∧ scope < size then [operation] else []) ++
        addressed scope name (operation.sizeAfter size) others

/-- What becomes of one binding alone, and what is reported on it. -/
def replay (bound? : Option Definition) : List Operation → Option Definition × Diagnostics
  | [] => (bound?, [])
  | operation :: others =>
      let changed := operation.rebind bound?
      let last := replay changed.1 others
      (last.1, changed.2.toList ++ last.2)

def binding? (tree : ScopeTree) (scope : Nat) (name : String) : Option Definition :=
  (tree.get? scope).bind (·.get? name)

variable {tree : ScopeTree} {scope number : Nat} {name : String} {operation : Operation}

theorem binding?_push (parent : Nat) : (tree.push parent).binding? scope name = tree.binding? scope name := by
  unfold binding?
  rw [get?_push]
  split
  · rename_i last
    have absent : tree.get? scope = none := by simp [last, get?, size]
    simp [absent, Scope.get?]
  · rfl

theorem binding?_insert {found : Scope} (present : tree.get? number = some found) (definition : Definition) :
    (tree.modify number (·.insert definition)).binding? scope name =
      if number = scope ∧ definition.name = name then some definition else tree.binding? scope name := by
  unfold binding?
  rw [get?_modify]
  by_cases here : number = scope
  · subst here
    by_cases same : definition.name = name <;> simp [present, same]
  · simp [here]

theorem binding?_eq {found : Scope} (present : tree.get? scope = some found) :
    tree.binding? scope name = found.get? name := by
  simp [binding?, present]

theorem define_absent (absent : tree.get? scope = none) (definition : Definition) :
    tree.define scope definition = (tree, none) := by
  simp [ScopeTree.define, absent]

theorem reserve_absent (absent : tree.get? scope = none) (terminal : Terminal) :
    tree.reserve scope terminal = (tree, none) := by
  simp [ScopeTree.reserve, absent]

theorem reserve_present {found : Scope} (present : tree.get? scope = some found) (terminal : Terminal) :
    tree.reserve scope terminal =
      let reserved := tree.modify scope (·.insert (reservation scope terminal))
      if terminal.isName && !terminal.reserved then
        match found.get? terminal.text with
        | none => (reserved, none)
        | some previous =>
            if previous.reserved then (tree, none)
            else (reserved,
              if previous.arity = .name then some ⟨.alreadyDefined, terminal.span, .warning⟩ else none)
      else (tree, none) := by
  unfold ScopeTree.reserve
  cases named : terminal.isName with
  | false => simp
  | true =>
      cases taken : terminal.reserved with
      | true => simp
      | false =>
          simp only [present, Bool.not_true, Bool.false_or, Bool.false_eq_true, if_false, Bool.not_false,
            Bool.and_true, if_true]
          cases found.get? terminal.text with
          | none => rfl
          | some previous =>
              dsimp only
              split
              · rfl
              · split <;> rfl

theorem apply_pop (tree : ScopeTree) (scope : Nat) :
    ∃ pops, (Operation.pop scope).apply tree = ({ tree with pops }, none) := by
  simp only [Operation.apply, ScopeTree.pop]
  by_cases root : scope = 0
  · exact ⟨tree.pops, by simp [root]⟩
  · exact ⟨tree.pops + 1, by simp [root]⟩

theorem size_apply : (operation.apply tree).1.size = operation.sizeAfter tree.size := by
  cases operation with
  | push parent => exact size_push parent
  | pop scope =>
      obtain ⟨pops, popped⟩ := apply_pop tree scope
      rw [popped]
      rfl
  | define scope definition => exact (bound_define tree scope definition).size
  | reserve scope terminal => exact (bound_reserve tree scope terminal).size

theorem binding?_apply_of_address (about : operation.address? = some (scope, name))
    (present : scope < tree.size) :
    ((operation.apply tree).1.binding? scope name, (operation.apply tree).2) =
      operation.rebind (tree.binding? scope name) := by
  obtain ⟨found, there⟩ := get?_of_lt present
  have bound := @binding?_eq tree scope name found there
  cases operation with
  | push | pop => cases about
  | define number definition =>
      cases about
      simp [Operation.apply, Operation.rebind, ScopeTree.define, there, binding?_insert there, bound]
  | reserve number terminal =>
      cases about
      have inserted :=
        @binding?_insert tree scope scope terminal.text found there (reservation scope terminal)
      rw [if_pos ⟨rfl, rfl⟩] at inserted
      simp only [Operation.apply, Operation.rebind, reserve_present there, bound]
      cases terminal.isName && !terminal.reserved with
      | false => simp [bound]
      | true =>
          cases held : found.get? terminal.text with
          | none => simp [inserted]
          | some previous =>
              rw [held] at bound
              dsimp only
              cases previous.reserved with
              | true => simp [bound]
              | false => simp [inserted]

def Inserts (tree : ScopeTree) (scope : Nat) (definition : Definition) (after : ScopeTree) : Prop :=
  after = tree ∨ ∃ found, tree.get? scope = some found ∧ after = tree.modify scope (·.insert definition)

theorem inserts_define (tree : ScopeTree) (scope : Nat) (definition : Definition) :
    Inserts tree scope definition (tree.define scope definition).1 := by
  cases there : tree.get? scope with
  | none => exact .inl (by rw [define_absent there])
  | some found => exact .inr ⟨found, there, by simp [ScopeTree.define, there]⟩

theorem inserts_reserve (tree : ScopeTree) (scope : Nat) (terminal : Terminal) :
    Inserts tree scope (reservation scope terminal) (tree.reserve scope terminal).1 := by
  cases there : tree.get? scope with
  | none => exact .inl (by rw [reserve_absent there])
  | some found =>
      rw [reserve_present there]
      cases terminal.isName && !terminal.reserved with
      | false => exact .inl rfl
      | true =>
          cases held : found.get? terminal.text with
          | none => exact .inr ⟨found, there, by simp⟩
          | some previous =>
              cases reserved : previous.reserved with
              | true => exact .inl (by simp [reserved])
              | false => exact .inr ⟨found, there, by simp [reserved]⟩

theorem Inserts.binding? {after : ScopeTree} {definition : Definition}
    (inserts : Inserts tree number definition after)
    (other : ¬(number = scope ∧ definition.name = name ∧ scope < tree.size)) :
    after.binding? scope name = tree.binding? scope name := by
  rcases inserts with rfl | ⟨found, there, rfl⟩
  · rfl
  · rw [binding?_insert there, if_neg]
    rintro ⟨rfl, rfl⟩
    exact other ⟨rfl, rfl, get?_eq_some_lt there⟩

theorem binding?_apply_of_other (other : ¬(operation.address? = some (scope, name) ∧ scope < tree.size)) :
    (operation.apply tree).1.binding? scope name = tree.binding? scope name ∧
      (operation.address? = some (scope, name) → (operation.apply tree).2 = none) := by
  have absent (about : operation.address? = some (scope, name)) : tree.get? scope = none := by
    have outside : ¬scope < tree.size := fun present => other ⟨about, present⟩
    simpa [get?, size] using outside
  cases operation with
  | push parent => exact ⟨binding?_push parent, fun about => by cases about⟩
  | pop number =>
      refine ⟨?_, fun about => by cases about⟩
      obtain ⟨pops, popped⟩ := apply_pop tree number
      rw [popped]
      rfl
  | define number definition =>
      refine ⟨(inserts_define tree number definition).binding? ?_, fun about => ?_⟩
      · rintro ⟨rfl, rfl, present⟩
        exact other ⟨rfl, present⟩
      · obtain ⟨rfl, rfl⟩ := Prod.mk.inj (Option.some.inj about)
        simp only [Operation.apply, define_absent (absent about)]
  | reserve number terminal =>
      refine ⟨(inserts_reserve tree number terminal).binding? ?_, fun about => ?_⟩
      · rintro ⟨rfl, rfl, present⟩
        exact other ⟨rfl, present⟩
      · obtain ⟨rfl, rfl⟩ := Prod.mk.inj (Option.some.inj about)
        simp only [Operation.apply, reserve_absent (absent about)]

/-- A binding follows from the operations that are about it, by induction on the run. -/
theorem binding?_after (operations : List Operation) (tree : ScopeTree) :
    ((tree.after operations).binding? scope name, tree.reports scope name operations) =
      replay (tree.binding? scope name) (addressed scope name tree.size operations) := by
  induction operations generalizing tree with
  | nil => rfl
  | cons operation others ih =>
      have rest := ih (operation.apply tree).1
      rw [size_apply] at rest
      simp only [after, reports, addressed]
      by_cases about : operation.address? = some (scope, name) ∧ scope < tree.size
      · have changed := binding?_apply_of_address about.1 about.2
        rw [if_pos about, if_pos about.1, List.singleton_append, replay, ← changed]
        exact congrArg (fun last : Option Definition × Diagnostics =>
          (last.1, (operation.apply tree).2.toList ++ last.2)) rest
      · obtain ⟨kept, silent⟩ := binding?_apply_of_other about
        have nothing : (if operation.address? = some (scope, name) then (operation.apply tree).2.toList
            else []) = [] := by
          split
          · rename_i same
            rw [silent same]
            rfl
          · rfl
        rw [if_neg about, nothing, List.nil_append, List.nil_append, ← kept]
        exact rest

theorem Rooted.apply (rooted : Rooted tree) (allowed : operation.Allowed tree) :
    Rooted (operation.apply tree).1 := by
  cases operation with
  | push parent => exact rooted.push allowed
  | pop scope =>
      obtain ⟨pops, popped⟩ := apply_pop tree scope
      rw [popped]
      exact ⟨rooted.nonempty, rooted.parent?_eq_none_iff, rooted.parent_lt⟩
  | define scope definition => exact (bound_define tree scope definition).rooted rooted
  | reserve scope terminal => exact (bound_reserve tree scope terminal).rooted rooted

theorem extends_apply (tree : ScopeTree) (operation : Operation) : Extends tree (operation.apply tree).1 := by
  cases operation with
  | push parent => exact extends_push tree parent
  | pop scope =>
      obtain ⟨pops, popped⟩ := apply_pop tree scope
      rw [popped]
      exact Extends.refl tree
  | define scope definition => exact (bound_define tree scope definition).extended
  | reserve scope terminal => exact (bound_reserve tree scope terminal).extended

theorem Rooted.after (rooted : Rooted tree) {operations : List Operation}
    (permits : tree.Permits operations) : Rooted (tree.after operations) := by
  induction operations generalizing tree with
  | nil => exact rooted
  | cons operation others ih => exact ih (rooted.apply permits.1) permits.2

theorem extends_after (tree : ScopeTree) (operations : List Operation) :
    Extends tree (tree.after operations) := by
  induction operations generalizing tree with
  | nil => exact Extends.refl tree
  | cons operation others ih => exact (extends_apply tree operation).trans (ih _)

theorem after_append (tree : ScopeTree) (first second : List Operation) :
    tree.after (first ++ second) = (tree.after first).after second := by
  induction first generalizing tree with
  | nil => rfl
  | cons operation others ih => exact ih _

/-- After every run of operations the ways outwards end at the root, a name stands for its nearest binding,
a binding is what the operations about it made of it, and what was bound is bound. -/
theorem after_bindings (operations : List Operation) (permits : Permits {} operations) :
    let tree := after {} operations
    (∀ number found, tree.get? number = some found → number ≠ 0 →
        ∃ parent < number, found.parent? = some parent) ∧
      (∀ scope name grammar, ∃ nearest?, Nearest tree name scope nearest? ∧
        tree.find scope name grammar = standsFor grammar name nearest?) ∧
      (∀ scope name, (tree.binding? scope name, reports {} scope name operations) =
        replay none (addressed scope name 1 operations)) ∧
      ∀ earlier later, operations = earlier ++ later → ∀ scope name,
        ((after {} earlier).binding? scope name).isSome → (tree.binding? scope name).isSome := by
  intro tree
  have rooted : Rooted tree := rooted_start.after permits
  refine ⟨?_, fun scope name grammar => rooted.find_nearest scope name grammar, ?_, ?_⟩
  · intro number found present inner
    cases inside : found.parent? with
    | none => exact absurd ((rooted.parent?_eq_none_iff present).mp inside) inner
    | some parent => exact ⟨parent, rooted.parent_lt present inside, rfl⟩
  · intro scope name
    have unbound : ({} : ScopeTree).binding? scope name = none := by
      cases scope <;> rfl
    have replayed := @binding?_after scope name operations {}
    rw [unbound] at replayed
    exact replayed
  · rintro earlier later rfl scope name bound
    have last : tree = (after {} earlier).after later := after_append {} earlier later
    cases present : (after {} earlier).get? scope with
    | none => simp [binding?, present] at bound
    | some found =>
        rw [binding?_eq present] at bound
        obtain ⟨found', present', _, kept⟩ := extends_after (after {} earlier) later scope found present
        rw [last, binding?_eq present']
        exact kept name bound

/-- A keyword is taken in an inner scope and then declared there twice, between operations on other
bindings and one on a scope that comes later. -/
theorem after_bindings_keyword :
    let place (character : Nat) : Span := ⟨⟨0, character⟩, ⟨0, character + 3⟩⟩
    let keyword (character : Nat) : Terminal :=
      { id := "int", text := "int", span := place character, origin := some .name }
    let declaration (name : String) (character scope : Nat) : Definition :=
      { id := "(name)", name, span := place character, arity := .name, scope }
    let operations : List Operation :=
      [.reserve 1 (keyword 0), .push 0, .define 0 (declaration "int" 4 0), .reserve 1 (keyword 8),
        .define 1 (declaration "key" 12 1), .reserve 1 (keyword 16), .define 1 (declaration "int" 20 1),
        .pop 1, .define 1 (declaration "int" 24 1)]
    Permits {} operations ∧
      (after {} operations).binding? 1 "int" = some (declaration "int" 24 1) ∧
      reports {} 1 "int" operations =
        [⟨.alreadyReserved, place 8, .error⟩, ⟨.alreadyDefined, place 20, .warning⟩] := by
  intro place keyword declaration operations
  have permits : Permits {} operations := by decide
  have replayed := (after_bindings operations permits).2.2.1 1 "int"
  have last : replay none (addressed 1 "int" 1 operations) = (some (declaration "int" 24 1),
      [⟨.alreadyReserved, place 8, .error⟩, ⟨.alreadyDefined, place 20, .warning⟩]) := by
    decide
  rw [last] at replayed
  obtain ⟨bound, reported⟩ := Prod.mk.inj replayed
  exact ⟨permits, bound, reported⟩

end Adventure.ScopeTree
