import Adventure.Scope

/-!
The shape of a tree of scopes, and what changes to a tree leave of it. Every way outwards ends at the
root, scopes keep their parents, and a name that is bound stays bound.
-/

namespace Adventure.ScopeTree

variable {tree before after : ScopeTree} {grammar : Grammar} {name : String} {scope : Nat}

theorem get?_eq_some_lt {number : Nat} {found : Scope} (present : tree.get? number = some found) :
    number < tree.size := by
  unfold get? at present
  exact (Array.getElem?_eq_some_iff.mp present).1

theorem get?_of_lt {number : Nat} (small : number < tree.size) :
    ∃ found, tree.get? number = some found :=
  ⟨tree.scopes[number], Array.getElem?_eq_getElem small⟩

@[simp] theorem size_push (parent : Nat) : (tree.push parent).size = tree.size + 1 := by
  simp [push, size]

@[simp] theorem size_modify (change : Scope → Scope) : (tree.modify scope change).size = tree.size := by
  simp [modify, size]

/-- Only the root has no parent, and parents are opened before what is inside them. -/
structure Rooted (tree : ScopeTree) : Prop where
  nonempty : 0 < tree.size
  parent?_eq_none_iff {number : Nat} {found : Scope} (present : tree.get? number = some found) :
    found.parent? = none ↔ number = 0
  parent_lt {number parent : Nat} {found : Scope} (present : tree.get? number = some found)
    (inside : found.parent? = some parent) : parent < number

/-- Scopes of `before` are there in `after` too, with their parents, and with the names they bind. -/
def Extends (before after : ScopeTree) : Prop :=
  ∀ number found, before.get? number = some found → ∃ later, after.get? number = some later ∧
    later.parent? = found.parent? ∧ ∀ name, (found.get? name).isSome → (later.get? name).isSome

theorem Extends.refl (tree : ScopeTree) : Extends tree tree :=
  fun _ found present => ⟨found, present, rfl, fun _ bound => bound⟩

theorem Extends.trans {middle : ScopeTree} (first : Extends before middle)
    (second : Extends middle after) : Extends before after := by
  intro number found present
  obtain ⟨between, there, parent, bound⟩ := first number found present
  obtain ⟨later, there', parent', bound'⟩ := second number between there
  exact ⟨later, there', parent'.trans parent, fun name holds => bound' name (bound name holds)⟩

theorem Extends.size_le (extended : Extends before after) : before.size ≤ after.size := by
  apply Nat.le_of_not_lt
  intro smaller
  obtain ⟨found, present⟩ := get?_of_lt smaller
  obtain ⟨later, there, _⟩ := extended _ found present
  exact absurd (get?_eq_some_lt there) (Nat.lt_irrefl _)

theorem extends_push (tree : ScopeTree) (parent : Nat) : Extends tree (tree.push parent) := by
  intro number found present
  have small := get?_eq_some_lt present
  refine ⟨found, ?_, rfl, fun _ bound => bound⟩
  rw [get?_push, if_neg (by omega)]
  exact present

theorem extends_insert (tree : ScopeTree) (scope : Nat) (definition : Definition) :
    Extends tree (tree.modify scope (·.insert definition)) := by
  intro number found present
  rw [get?_modify, present]
  by_cases here : scope = number
  · refine ⟨found.insert definition, by simp [here], rfl, fun name bound => ?_⟩
    rw [Scope.get?_insert]
    split
    · rfl
    · exact bound
  · exact ⟨found, by simp [here], rfl, fun _ bound => bound⟩

theorem rooted_start : Rooted {} where
  nonempty := by decide
  parent?_eq_none_iff {number found} present := by
    have small : number < 1 := get?_eq_some_lt present
    have first : number = 0 := by omega
    subst first
    simp only [get?] at present
    obtain rfl : ({} : Scope) = found := Option.some.inj present
    simp
  parent_lt {number parent found} present inside := by
    have small : number < 1 := get?_eq_some_lt present
    have first : number = 0 := by omega
    subst first
    simp only [get?] at present
    obtain rfl : ({} : Scope) = found := Option.some.inj present
    simp at inside

theorem Rooted.push (rooted : Rooted tree) {parent : Nat} (present : parent < tree.size) :
    Rooted (tree.push parent) where
  nonempty := by simp
  parent?_eq_none_iff {number found} there := by
    rw [get?_push] at there
    split at there
    · rename_i last
      obtain rfl := Option.some.inj there
      have positive := rooted.nonempty
      simp only [reduceCtorEq, false_iff]
      omega
    · exact rooted.parent?_eq_none_iff there
  parent_lt {number other found} there inside := by
    rw [get?_push] at there
    split at there
    · rename_i last
      obtain rfl := Option.some.inj there
      obtain rfl := Option.some.inj inside
      omega
    · exact rooted.parent_lt there inside

theorem Rooted.insert (rooted : Rooted tree) (scope : Nat) (definition : Definition) :
    Rooted (tree.modify scope (·.insert definition)) := by
  have older {number : Nat} {found : Scope}
      (there : (tree.modify scope (·.insert definition)).get? number = some found) :
      ∃ old, tree.get? number = some old ∧ found.parent? = old.parent? := by
    rw [get?_modify] at there
    split at there
    · obtain ⟨old, present, rfl⟩ := Option.map_eq_some_iff.mp there
      exact ⟨old, present, rfl⟩
    · exact ⟨found, there, rfl⟩
  constructor
  · rw [size_modify]
    exact rooted.nonempty
  · intro number found there
    obtain ⟨old, present, same⟩ := older there
    rw [same]
    exact rooted.parent?_eq_none_iff present
  · intro number parent found there inside
    obtain ⟨old, present, same⟩ := older there
    exact rooted.parent_lt present (same ▸ inside)

/-- What defining or reserving a name makes of a tree: the tree itself, or the tree with one more
binding. -/
inductive Bound (tree : ScopeTree) (scope : Nat) : ScopeTree → Prop
  | same : Bound tree scope tree
  | insert (definition : Definition) : Bound tree scope (tree.modify scope (·.insert definition))

theorem bound_define (tree : ScopeTree) (scope : Nat) (definition : Definition) :
    Bound tree scope (tree.define scope definition).1 := by
  unfold define
  cases tree.get? scope with
  | none => exact .same
  | some target => exact .insert definition

theorem bound_reserve (tree : ScopeTree) (scope : Nat) (terminal : Terminal) :
    Bound tree scope (tree.reserve scope terminal).1 := by
  unfold reserve
  split
  · exact .same
  · cases tree.get? scope with
    | none => exact .same
    | some target =>
        dsimp only
        cases target.get? terminal.text with
        | none => exact .insert _
        | some previous =>
            dsimp only
            split
            · exact .same
            · split
              · exact .insert _
              · exact .insert _

namespace Bound

theorem extended (bound : Bound before scope after) : Extends before after := by
  cases bound with
  | same => exact Extends.refl before
  | insert definition => exact extends_insert before scope definition

theorem rooted (bound : Bound before scope after) (rooted : Rooted before) : Rooted after := by
  cases bound with
  | same => exact rooted
  | insert definition => exact rooted.insert scope definition

theorem size (bound : Bound before scope after) : after.size = before.size := by
  cases bound with
  | same => rfl
  | insert => exact size_modify _

theorem pushes (bound : Bound before scope after) : after.pushes = before.pushes := by
  cases bound <;> rfl

theorem pops (bound : Bound before scope after) : after.pops = before.pops := by
  cases bound <;> rfl

end Bound

theorem pop_of_ne {scope : Nat} (inner : scope ≠ 0) :
    tree.pop scope = .ok { tree with pops := tree.pops + 1 } := by
  unfold pop
  rw [if_neg inner]

inductive Binds (tree : ScopeTree) (name : String) : Nat → Prop
  | here {scope : Nat} {found : Scope} (present : tree.get? scope = some found)
      (bound : (found.get? name).isSome) : Binds tree name scope
  | outer {scope parent : Nat} {found : Scope} (present : tree.get? scope = some found)
      (inside : found.parent? = some parent) (bound : Binds tree name parent) :
      Binds tree name scope

theorem Binds.mono (bound : Binds before name scope) (extended : Extends before after) :
    Binds after name scope := by
  induction bound with
  | here present bound =>
      obtain ⟨later, there, _, kept⟩ := extended _ _ present
      exact .here there (kept name bound)
  | outer present inside _ ih =>
      obtain ⟨later, there, parent, _⟩ := extended _ _ present
      exact .outer there (parent.trans inside) ih

theorem Binds.of_findWithin {count : Nat} {definition : Definition}
    (found : tree.findWithin name count scope = some definition) : Binds tree name scope := by
  induction count generalizing scope with
  | zero => simp [findWithin] at found
  | succ count ih =>
      simp only [findWithin, Option.bind_eq_bind, Option.bind_eq_some_iff] at found
      obtain ⟨here, present, found⟩ := found
      cases bound : here.get? name with
      | some first => exact .here present (by simp [bound])
      | none =>
          simp only [bound, Option.bind_eq_some_iff] at found
          obtain ⟨parent, inside, inner⟩ := found
          exact .outer present inside (ih inner)

/-- As many scopes as the number of the first are enough to look through, since numbers fall on the
way outwards. -/
theorem Binds.findWithin_isSome (rooted : Rooted tree) (bound : Binds tree name scope) {count : Nat}
    (enough : scope < count) : (tree.findWithin name count scope).isSome := by
  induction bound generalizing count with
  | @here scope found present bound =>
      obtain ⟨fewer, rfl⟩ : ∃ fewer, count = fewer + 1 := ⟨count - 1, by omega⟩
      obtain ⟨definition, binds⟩ := Option.isSome_iff_exists.mp bound
      simp [findWithin, present, binds]
  | @outer scope parent found present inside _ ih =>
      obtain ⟨fewer, rfl⟩ : ∃ fewer, count = fewer + 1 := ⟨count - 1, by omega⟩
      have lower := rooted.parent_lt present inside
      cases binds : found.get? name with
      | some definition => simp [findWithin, present, binds]
      | none =>
          simp only [findWithin, present, inside, binds, Option.bind_eq_bind, Option.bind_some]
          exact ih (by omega)

theorem Binds.lt_size (bound : Binds tree name scope) : scope < tree.size := by
  cases bound with
  | here present => exact get?_eq_some_lt present
  | outer present => exact get?_eq_some_lt present

theorem find_isUndefined_iff (rooted : Rooted tree) :
    (tree.find scope name grammar).isUndefined = true ↔
      ¬ Binds tree name scope ∧ grammar.get? name = none := by
  unfold find
  cases found : tree.findWithin name tree.size scope with
  | some definition =>
      have bound := Binds.of_findWithin found
      simp [Lookup.isUndefined, bound]
  | none =>
      have unbound : ¬ Binds tree name scope := by
        intro bound
        have some := bound.findWithin_isSome rooted bound.lt_size
        simp [found] at some
      cases grammar.get? name <;> simp [Lookup.isUndefined, unbound]

end Adventure.ScopeTree
