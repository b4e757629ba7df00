import Adventure.Proofs.Scopes

/-!
Lookups. A name stands for what the nearest scope binds it to that binds it at all, from the scope in which
it is looked up outwards. Every way outwards ends, and what it finds depends on the scopes along it only.
-/

namespace Adventure.ScopeTree

variable {tree other : ScopeTree} {grammar : Grammar} {name : String} {scope : Nat}
  {nearest? : Option Definition}

/-- What the nearest scope from `scope` outwards binds the name to, if one of them binds it. -/
inductive Nearest (tree : ScopeTree) (name : String) : Nat → Option Definition → Prop
  | here {scope : Nat} {found : Scope} {definition : Definition} (present : tree.get? scope = some found)
      (bound : found.get? name = some definition) : Nearest tree name scope (some definition)
  | outer {scope parent : Nat} {found : Scope} {nearest? : Option Definition}
      (present : tree.get? scope = some found) (unbound : found.get? name = none)
      (inside : found.parent? = some parent) (nearest : Nearest tree name parent nearest?) :
      Nearest tree name scope nearest?
  | outermost {scope : Nat} {found : Scope} (present : tree.get? scope = some found)
      (unbound : found.get? name = none) (root : found.parent? = none) : Nearest tree name scope none
  | absent {scope : Nat} (absent : tree.get? scope = none) : Nearest tree name scope none

/-- As many scopes as the number of the first are enough to look through, since numbers fall on the way
outwards. -/
theorem Rooted.nearest_findWithin (rooted : Rooted tree) {count : Nat} (enough : scope < count) :
    Nearest tree name scope (tree.findWithin name count scope) := by
  induction count generalizing scope with
  | zero => omega
  | succ count ih =>
      cases present : tree.get? scope with
      | none => simpa [findWithin, present] using Nearest.absent present
      | some found =>
          cases bound : found.get? name with
          | some definition => simpa [findWithin, present, bound] using Nearest.here present bound
          | none =>
              cases inside : found.parent? with
              | none =>
                  simpa [findWithin, present, bound, inside] using Nearest.outermost present bound inside
              | some parent =>
                  have lower := rooted.parent_lt present inside
                  have nearest := Nearest.outer present bound inside (ih (by omega : parent < count))
                  simpa [findWithin, present, bound, inside] using nearest

theorem Nearest.unique (first : Nearest tree name scope nearest?) {second? : Option Definition}
    (second : Nearest tree name scope second?) : nearest? = second? := by
  induction first with
  | here present bound => cases second <;> simp_all
  | outer present unbound inside _ ih =>
      cases second with
      | outer present' _ inside' nearest =>
          obtain rfl := Option.some.inj (present.symm.trans present')
          obtain rfl := Option.some.inj (inside.symm.trans inside')
          exact ih nearest
      | _ => simp_all
  | outermost present unbound root => cases second <;> simp_all
  | absent absent => cases second <;> simp_all

theorem Nearest.congr (rooted : Rooted tree) (nearest : Nearest tree name scope nearest?)
    (same : ∀ number ≤ scope, other.get? number = tree.get? number) : Nearest other name scope nearest? := by
  induction nearest with
  | here present bound => exact .here ((same _ (Nat.le_refl _)).trans present) bound
  | outer present unbound inside _ ih =>
      have lower := rooted.parent_lt present inside
      exact .outer ((same _ (Nat.le_refl _)).trans present) unbound inside
        (ih fun number before => same number (by omega))
  | outermost present unbound root => exact .outermost ((same _ (Nat.le_refl _)).trans present) unbound root
  | absent absent => exact .absent ((same _ (Nat.le_refl _)).trans absent)

def standsFor (grammar : Grammar) (name : String) : Option Definition → Lookup
  | some definition => .defined definition
  | none =>
      match grammar.get? name with
      | some symbol => .grammar symbol
      | none => .undefined grammar.undefined

/-- Looking up ends with the nearest binding, and asks the grammar only if there is none. -/
theorem Rooted.find_nearest (rooted : Rooted tree) (scope : Nat) (name : String) (grammar : Grammar) :
    ∃ nearest?, Nearest tree name scope nearest? ∧
      tree.find scope name grammar = standsFor grammar name nearest? := by
  refine ⟨tree.findWithin name tree.size scope, ?_, ?_⟩
  · by_cases present : scope < tree.size
    · exact rooted.nearest_findWithin present
    · have absent : tree.get? scope = none := by
        simpa [get?, size] using present
      cases tree.size with
      | zero => exact .absent absent
      | succ count => simpa [findWithin, absent] using Nearest.absent absent
  · unfold find standsFor
    cases tree.findWithin name tree.size scope <;> rfl

theorem Rooted.find_congr (rooted : Rooted tree) (rootedOther : Rooted other)
    (same : ∀ number ≤ scope, other.get? number = tree.get? number) :
    other.find scope name grammar = tree.find scope name grammar := by
  obtain ⟨nearest?, nearest, found⟩ := rooted.find_nearest scope name grammar
  obtain ⟨other?, nearestOther, foundOther⟩ := rootedOther.find_nearest scope name grammar
  rw [found, foundOther, nearestOther.unique (nearest.congr rooted same)]

end Adventure.ScopeTree
