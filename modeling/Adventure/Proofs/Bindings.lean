import Adventure.Scope

/-!
What every binding of a tree of scopes has in common is kept as long as each new binding has it,
and is then known of whatever a name is found to stand for.
-/

namespace Adventure.ScopeTree

def All (property : Definition → Prop) (tree : ScopeTree) : Prop :=
  ∀ (number : Nat) (scope : Scope) (name : String) (definition : Definition),
    tree.get? number = some scope → scope.get? name = some definition → property definition

variable {property : Definition → Prop} {tree : ScopeTree}

theorem all_start : All property {} := by
  intro number scope name definition present found
  have empty : scope = {} := by
    cases number with
    | zero =>
        simp only [get?] at present
        exact (Option.some.inj present).symm
    | succ number => simp [get?] at present
  simp [empty, Scope.get?] at found

theorem All.push (all : All property tree) (parent : Nat) : All property (tree.push parent) := by
  intro number scope name definition present found
  rw [get?_push] at present
  split at present
  · have empty : scope = { parent? := some parent } := (Option.some.inj present).symm
    simp [empty, Scope.get?] at found
  · exact all number scope name definition present found

theorem All.insert (all : All property tree) (number : Nat) {definition : Definition}
    (new : property definition) : All property (tree.modify number (·.insert definition)) := by
  intro other scope name found present bound
  rw [get?_modify] at present
  split at present
  · rw [Option.map_eq_some_iff] at present
    obtain ⟨old, presentOld, rfl⟩ := present
    rw [Scope.get?_insert] at bound
    split at bound
    · exact Option.some.inj bound ▸ new
    · exact all other old name found presentOld bound
  · exact all other scope name found present bound

theorem All.define (all : All property tree) (scope : Nat) {definition : Definition}
    (new : property definition) : All property (tree.define scope definition).1 := by
  unfold ScopeTree.define
  cases tree.get? scope with
  | none => exact all
  | some target => exact all.insert scope new

theorem All.reserve (all : All property tree) (scope : Nat) {terminal : Terminal}
    (new : terminal.isName = true → terminal.reserved = false →
      property (reservation scope terminal)) :
    All property (tree.reserve scope terminal).1 := by
  unfold ScopeTree.reserve
  cases skipped : !terminal.isName || terminal.reserved with
  | true => exact all
  | false =>
      have kept : terminal.isName = true ∧ terminal.reserved = false := by simpa using skipped
      have inserted := all.insert scope (new kept.1 kept.2)
      cases tree.get? scope with
      | none => exact all
      | some target =>
          simp only [Bool.false_eq_true, if_false]
          cases target.get? terminal.text with
          | none => exact inserted
          | some previous =>
              cases reserved : previous.reserved with
              | true => simpa only [reserved, if_true] using all
              | false =>
                  simp only [reserved, Bool.false_eq_true, if_false]
                  split
                  · exact inserted
                  · exact inserted

theorem All.pop (all : All property tree) {scope : Nat} {after : ScopeTree}
    (popped : tree.pop scope = .ok after) : All property after := by
  unfold ScopeTree.pop at popped
  split at popped
  · cases popped
  · cases popped
    exact all

theorem findWithin_bound {name : String} {count scope : Nat} {definition : Definition}
    (found : tree.findWithin name count scope = some definition) :
    ∃ number here, tree.get? number = some here ∧ here.get? name = some definition := by
  induction count generalizing scope with
  | zero => simp [findWithin] at found
  | succ count ih =>
      simp only [findWithin, Option.bind_eq_bind, Option.bind_eq_some_iff] at found
      obtain ⟨here, present, found⟩ := found
      cases bound : here.get? name with
      | some first =>
          simp only [bound, Option.some.injEq] at found
          exact ⟨scope, here, present, found ▸ bound⟩
      | none =>
          simp only [bound, Option.bind_eq_some_iff] at found
          obtain ⟨parent, _, inner⟩ := found
          exact ih inner

theorem get?_name {scope : Scope} {name : String} {definition : Definition}
    (bound : scope.get? name = some definition) : definition.name = name := by
  simpa using List.find?_some bound

theorem All.found (all : All property tree) {name : String} {count scope : Nat}
    {definition : Definition} (found : tree.findWithin name count scope = some definition) :
    property definition ∧ definition.name = name := by
  obtain ⟨number, here, present, bound⟩ := findWithin_bound found
  exact ⟨all number here name definition present bound, get?_name bound⟩

end Adventure.ScopeTree
