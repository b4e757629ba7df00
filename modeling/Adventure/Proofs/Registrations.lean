import Adventure.Grammar
import Mathlib.Data.List.Nodup

/-!
Grammars made entry by entry. A symbol binds as strongly as the strongest of its entries asks for and does
what the last entry about each of its places says, so the order of entries makes a difference only where
two of them set the same form of the same symbol.
-/

namespace Adventure.Grammar

namespace Entry

def power : Entry → Nat
  | .symbol _ power | .operator _ power _ => power
  | .assignment _ => Power.assignment
  | .operand .. | .constant _ | .statement .. => Power.none

def operand? : Entry → Option OperandForm
  | .operand _ form => some form
  | .constant _ => some .constant
  | _ => none

def operator? : Entry → Option OperatorForm
  | .operator _ _ form => some form
  | .assignment _ => some .assignment
  | _ => none

def statement? : Entry → Option StatementForm
  | .statement _ form => some form
  | _ => none

theorem change_eq (entry : Entry) (known : Denotations) :
    entry.change known =
      { power := max known.power entry.power
        operand? := entry.operand?.or known.operand?
        operator? := entry.operator?.or known.operator?
        statement? := entry.statement?.or known.statement? } := by
  cases entry <;> simp [change, power, operand?, operator?, statement?, Power.none]

end Entry

variable {α : Type} {grammar : Grammar} {entry : Entry} {entries others : List Entry} {id : String}

def about (id : String) (entries : List Entry) : List Entry := entries.filter (·.id == id)

def last? (form? : Entry → Option α) (id : String) (entries : List Entry) : Option α :=
  ((about id entries).filterMap form?).getLast?

def Requests (entries : List Entry) (id : String) (power : Nat) : Prop :=
  ∃ entry ∈ entries, entry.id = id ∧ entry.power = power

/-- All entries that a grammar is made of: undefined names were entered before the others. -/
def history (entries : List Entry) : List Entry := .operand "(name)" .undefinedName :: entries

theorem mem_about : entry ∈ about id entries ↔ entry ∈ entries ∧ entry.id = id := by
  simp [about]

/-! One symbol. -/

def made (known : Denotations) (entries : List Entry) : Denotations :=
  entries.foldl (fun known entry => entry.change known) known

theorem power_le_made (known : Denotations) (entries : List Entry) :
    known.power ≤ (made known entries).power := by
  induction entries generalizing known with
  | nil => exact Nat.le_refl _
  | cons entry others ih =>
      have raised : known.power ≤ (entry.change known).power := by
        rw [Entry.change_eq]
        exact Nat.le_max_left _ _
      exact Nat.le_trans raised (ih _)

theorem entry_power_le_made (known : Denotations) (member : entry ∈ entries) :
    entry.power ≤ (made known entries).power := by
  induction entries generalizing known with
  | nil => cases member
  | cons first others ih =>
      rcases List.mem_cons.mp member with rfl | member
      · have raised : entry.power ≤ (entry.change known).power := by
          rw [Entry.change_eq]
          exact Nat.le_max_right _ _
        exact Nat.le_trans raised (power_le_made _ _)
      · exact ih _ member

theorem made_power (known : Denotations) (entries : List Entry) :
    (made known entries).power = known.power ∨
      ∃ entry ∈ entries, entry.power = (made known entries).power := by
  induction entries generalizing known with
  | nil => exact .inl rfl
  | cons entry others ih =>
      have raised : (entry.change known).power = max known.power entry.power := by
        rw [Entry.change_eq]
      rcases ih (entry.change known) with same | ⟨other, member, same⟩
      · rw [raised] at same
        rcases Nat.le_total known.power entry.power with below | above
        · exact .inr ⟨entry, by simp, (same.trans (Nat.max_eq_right below)).symm⟩
        · exact .inl (same.trans (Nat.max_eq_left above))
      · exact .inr ⟨other, List.mem_cons_of_mem _ member, same⟩

theorem made_form (form? : Entry → Option α) (part : Denotations → Option α)
    (changes : ∀ (entry : Entry) known, part (entry.change known) = (form? entry).or (part known))
    (known : Denotations) (entries : List Entry) :
    part (made known entries) = (entries.filterMap form?).getLast?.or (part known) := by
  induction entries generalizing known with
  | nil => rfl
  | cons entry others ih =>
      change part (made (entry.change known) others) = _
      rw [ih, changes]
      cases sets : form? entry with
      | none => rw [List.filterMap_cons_none sets, Option.none_or]
      | some form =>
          rw [List.filterMap_cons_some sets, List.getLast?_cons, Option.some_or]
          cases (others.filterMap form?).getLast? <;> rfl

/-! The table. -/

theorem get?_add (grammar : Grammar) (entry : Entry) (id : String) :
    (grammar.add entry).get? id =
      if entry.id = id then
        some ⟨id, entry.change (((grammar.get? id).map (·.denotations)).getD {})⟩
      else grammar.get? id := by
  rw [add, get?_update]
  split
  · rename_i same
    rw [same]
  · rfl

/-- Entries make of each symbol what those about it make of it alone. -/
theorem get?_foldl (entries : List Entry) (grammar : Grammar) (id : String) :
    (entries.foldl add grammar).get? id =
      if about id entries = [] then grammar.get? id
      else some ⟨id, made (((grammar.get? id).map (·.denotations)).getD {}) (about id entries)⟩ := by
  induction entries generalizing grammar with
  | nil => rfl
  | cons entry others ih =>
      rw [List.foldl_cons, ih, get?_add]
      by_cases same : entry.id = id
      · have first : about id (entry :: others) = entry :: about id others := by simp [about, same]
        rw [first, if_pos same, if_neg (List.cons_ne_nil _ _)]
        split
        · rename_i none
          rw [none]
          rfl
        · rfl
      · have skipped : about id (entry :: others) = about id others := by simp [about, same]
        rw [skipped, if_neg same]

theorem ofEntries_eq (entries : List Entry) :
    ofEntries entries = (history entries).foldl add ⟨[], undefinedName⟩ := rfl

theorem get?_ofEntries (entries : List Entry) (id : String) :
    (ofEntries entries).get? id =
      if about id (history entries) = [] then none
      else some ⟨id, made {} (about id (history entries))⟩ :=
  get?_foldl (history entries) ⟨[], undefinedName⟩ id

theorem undefined_foldl (entries : List Entry) (grammar : Grammar) :
    (entries.foldl add grammar).undefined = grammar.undefined := by
  induction entries generalizing grammar with
  | nil => rfl
  | cons entry others ih => exact ih (grammar.add entry)

/-! Each symbol stands in the table once. -/

theorem map_id_withDenotations (id : String) (change : Denotations → Denotations) (known : List Symbol) :
    (withDenotations id change known).map (·.id) =
      if id ∈ known.map (·.id) then known.map (·.id) else known.map (·.id) ++ [id] := by
  induction known with
  | nil => simp [withDenotations]
  | cons first others ih =>
      by_cases same : first.id = id
      · simp [withDenotations, same]
      · simp only [withDenotations, same, if_false, List.map_cons, ih, List.mem_cons, Ne.symm same,
          false_or]
        split <;> rfl

theorem nodup_foldl (entries : List Entry) {grammar : Grammar}
    (distinct : (grammar.symbols.map (·.id)).Nodup) :
    ((entries.foldl add grammar).symbols.map (·.id)).Nodup := by
  induction entries generalizing grammar with
  | nil => exact distinct
  | cons entry others ih =>
      refine ih ?_
      rw [add, update, map_id_withDenotations]
      split
      · exact distinct
      · rename_i new
        exact List.nodup_append.mpr ⟨distinct, List.nodup_singleton _, by grind⟩

theorem nodup_ofEntries (entries : List Entry) : ((ofEntries entries).symbols.map (·.id)).Nodup := by
  rw [ofEntries_eq]
  exact nodup_foldl _ List.nodup_nil

theorem mem_symbols_iff (distinct : (grammar.symbols.map (·.id)).Nodup) (symbol : Symbol) :
    symbol ∈ grammar.symbols ↔ grammar.get? symbol.id = some symbol := by
  constructor
  · intro member
    unfold get?
    cases found : grammar.symbols.find? (·.id == symbol.id) with
    | none => simpa using List.find?_eq_none.mp found symbol member
    | some other =>
        have same : other.id = symbol.id := by simpa using List.find?_some found
        rw [List.inj_on_of_nodup_map distinct (List.mem_of_find?_eq_some found) member same]
  · exact List.mem_of_find?_eq_some

theorem symbols_perm {other : Grammar} (distinct : (grammar.symbols.map (·.id)).Nodup)
    (distinct' : (other.symbols.map (·.id)).Nodup) (same : ∀ id, grammar.get? id = other.get? id) :
    grammar.symbols.Perm other.symbols := by
  refine (List.perm_ext_iff_of_nodup distinct.of_map distinct'.of_map).mpr fun symbol => ?_
  rw [mem_symbols_iff distinct, mem_symbols_iff distinct', same]

/-- What is to be known of a symbol from the entries about it, place by place. -/
structure Settled (entries : List Entry) (id : String) (denotations : Denotations) : Prop where
  requested : Requests entries id denotations.power
  greatest {power : Nat} (requests : Requests entries id power) : power ≤ denotations.power
  operand? : denotations.operand? = last? Entry.operand? id entries
  operator? : denotations.operator? = last? Entry.operator? id entries
  statement? : denotations.statement? = last? Entry.statement? id entries

/-- The entries about the symbol set the same forms last, and ask for the same powers. -/
structure Agree (entries others : List Entry) (id : String) : Prop where
  powers (power : Nat) : Requests entries id power ↔ Requests others id power
  operand? : last? Entry.operand? id entries = last? Entry.operand? id others
  operator? : last? Entry.operator? id entries = last? Entry.operator? id others
  statement? : last? Entry.statement? id entries = last? Entry.statement? id others

theorem requests_of_about (member : entry ∈ about id entries) : Requests entries id entry.power :=
  ⟨entry, (mem_about.mp member).1, (mem_about.mp member).2, rfl⟩

theorem settled_made (present : about id entries ≠ []) :
    Settled entries id (made {} (about id entries)) := by
  have form {α : Type} (form? : Entry → Option α) (part : Denotations → Option α)
      (changes : ∀ (entry : Entry) known, part (entry.change known) = (form? entry).or (part known))
      (unset : part {} = none) : part (made {} (about id entries)) = last? form? id entries := by
    rw [made_form form? part changes, unset, Option.or_none, last?]
  constructor
  case requested =>
    rcases made_power {} (about id entries) with zero | ⟨entry, member, same⟩
    · -- Some entry is about the symbol, and what it asks for is at most what came out: nothing.
      obtain ⟨entry, member⟩ := List.exists_mem_of_ne_nil _ present
      have below := entry_power_le_made {} member
      have least : (made {} (about id entries)).power = 0 := zero
      have same : entry.power = (made {} (about id entries)).power := by omega
      exact same ▸ requests_of_about member
    · exact same ▸ requests_of_about member
  case greatest =>
    rintro power ⟨entry, member, about, rfl⟩
    exact entry_power_le_made {} (mem_about.mpr ⟨member, about⟩)
  case operand? => exact form _ (·.operand?) (fun entry known => by rw [Entry.change_eq]) rfl
  case operator? => exact form _ (·.operator?) (fun entry known => by rw [Entry.change_eq]) rfl
  case statement? => exact form _ (·.statement?) (fun entry known => by rw [Entry.change_eq]) rfl

theorem Settled.unique {denotations denotations' : Denotations} (settled : Settled entries id denotations)
    (settled' : Settled others id denotations') (agree : Agree entries others id) :
    denotations = denotations' := by
  have power : denotations.power = denotations'.power :=
    Nat.le_antisymm (settled'.greatest ((agree.powers _).mp settled.requested))
      (settled.greatest ((agree.powers _).mpr settled'.requested))
  have operand := settled.operand?.trans (agree.operand?.trans settled'.operand?.symm)
  have operator := settled.operator?.trans (agree.operator?.trans settled'.operator?.symm)
  have statement := settled.statement?.trans (agree.statement?.trans settled'.statement?.symm)
  cases denotations
  cases denotations'
  simp_all

theorem about_eq_nil_iff : about id entries = [] ↔ ¬ ∃ power, Requests entries id power := by
  constructor
  · rintro none ⟨power, entry, member, same, _⟩
    have present : entry ∈ about id entries := mem_about.mpr ⟨member, same⟩
    rw [none] at present
    cases present
  · intro unrequested
    refine List.eq_nil_iff_forall_not_mem.mpr fun entry member => ?_
    exact unrequested ⟨_, requests_of_about member⟩

theorem isSome_get?_ofEntries :
    ((ofEntries entries).get? id).isSome ↔ ∃ power, Requests (history entries) id power := by
  rw [get?_ofEntries]
  split
  · rename_i none
    simpa using about_eq_nil_iff.mp none
  · rename_i present
    rw [about_eq_nil_iff, not_not] at present
    simpa using present

theorem settled_get? {symbol : Symbol} (found : (ofEntries entries).get? id = some symbol) :
    symbol.id = id ∧ Settled (history entries) id symbol.denotations := by
  rw [get?_ofEntries] at found
  split at found
  · cases found
  · rename_i present
    cases found
    exact ⟨rfl, settled_made present⟩

theorem get?_congr (agree : Agree (history entries) (history others) id) :
    (ofEntries entries).get? id = (ofEntries others).get? id := by
  have both : ((ofEntries entries).get? id).isSome ↔ ((ofEntries others).get? id).isSome := by
    rw [isSome_get?_ofEntries, isSome_get?_ofEntries]
    simp only [agree.powers]
  cases found : (ofEntries entries).get? id with
  | none =>
      have absent : (ofEntries others).get? id = none := by simpa [found] using both
      exact absent.symm
  | some symbol =>
      rw [found] at both
      obtain ⟨symbol', found'⟩ := Option.isSome_iff_exists.mp (both.mp rfl)
      obtain ⟨named, settled⟩ := settled_get? found
      obtain ⟨named', settled'⟩ := settled_get? found'
      rw [found', Option.some.injEq]
      cases symbol
      cases symbol'
      simp only at named named' settled settled'
      rw [named, named', settled.unique settled' agree]

theorem requests_history {power : Nat} :
    Requests (history entries) id power ↔
      id = "(name)" ∧ power = 0 ∨ ∃ entry ∈ entries, entry.id = id ∧ entry.power = power := by
  have first : Entry.id (.operand "(name)" .undefinedName) = "(name)" ∧
      Entry.power (.operand "(name)" .undefinedName) = 0 := ⟨rfl, rfl⟩
  simp only [Requests, history, List.mem_cons, exists_eq_or_imp, first, eq_comm]

/-- In whatever order a grammar is made: it knows the symbols that an entry is about, and undefined names;
each has the greatest power that was asked for, nothing for undefined names to begin with, and the forms
that were set last. So powers never fall, and entries that ask for the same powers and set the same forms
last, symbol by symbol, make the same grammar. -/
theorem ofEntries_determined :
    (∀ entries id, ((ofEntries entries).get? id).isSome ↔
        id = "(name)" ∨ ∃ entry ∈ entries, entry.id = id) ∧
      (∀ entries id symbol, (ofEntries entries).get? id = some symbol →
        symbol.id = id ∧ Settled (history entries) id symbol.denotations) ∧
      (∀ entries later id symbol, (ofEntries entries).get? id = some symbol →
        ∃ raised, (ofEntries (entries ++ later)).get? id = some raised ∧
          symbol.denotations.power ≤ raised.denotations.power) ∧
      (∀ entries, (ofEntries entries).undefined = empty.undefined) ∧
      ∀ entries others, (∀ id, Agree (history entries) (history others) id) →
        (∀ id, (ofEntries entries).get? id = (ofEntries others).get? id) ∧
          (ofEntries entries).symbols.Perm (ofEntries others).symbols := by
  refine ⟨fun entries id => ?_, fun _ _ _ => settled_get?, ?_, fun entries => undefined_foldl entries empty,
    fun entries others agree => ?_⟩
  · rw [isSome_get?_ofEntries]
    simp only [requests_history]
    constructor
    · rintro ⟨power, ⟨named, _⟩ | ⟨entry, member, about, _⟩⟩
      · exact .inl named
      · exact .inr ⟨entry, member, about⟩
    · rintro (named | ⟨entry, member, about⟩)
      · exact ⟨0, .inl ⟨named, rfl⟩⟩
      · exact ⟨entry.power, .inr ⟨entry, member, about, rfl⟩⟩
  · intro entries later id symbol found
    have more {power : Nat} (requests : Requests (history entries) id power) :
        Requests (history (entries ++ later)) id power := by
      obtain ⟨entry, member, about, asks⟩ := requests
      exact ⟨entry, List.mem_append_left later member, about, asks⟩
    have asked := more (settled_get? found).2.requested
    obtain ⟨raised, found'⟩ := Option.isSome_iff_exists.mp (isSome_get?_ofEntries.mpr ⟨_, asked⟩)
    exact ⟨raised, found', (settled_get? found').2.greatest asked⟩
  · have same (id : String) := get?_congr (agree id)
    exact ⟨same, symbols_perm (nodup_ofEntries entries) (nodup_ofEntries others) same⟩

/-- A minus and a parenthesis, each an operand's beginning and an operator, entered in two orders. -/
theorem ofEntries_determined_reordered :
    let entries : List Entry :=
      [.operator "-" 50 .leftAssociative, .operand "-" .unaryOperator, .operand "(" .group,
        .operator "(" 80 .call, .symbol "-" 7]
    let others : List Entry :=
      [.symbol "-" 7, .operand "-" .literal, .operand "(" .group, .operand "-" .unaryOperator,
        .operator "(" 80 .call, .operator "-" 50 .leftAssociative, .symbol "(name)" 0]
    (∀ id, Agree (history entries) (history others) id) ∧
      (ofEntries entries).symbols.Perm (ofEntries others).symbols ∧
      (ofEntries others).get? "-" = some ⟨"-", ⟨50, some .unaryOperator, some .leftAssociative, none⟩⟩ := by
  intro entries others
  have powers (id : String) (power : Nat) :
      Requests (history entries) id power ↔ Requests (history others) id power := by
    simp only [requests_history, entries, others, List.mem_cons, List.not_mem_nil, or_false,
      exists_eq_or_imp, exists_eq_left, Entry.id, Entry.power, Power.none]
    grind
  have agree (id : String) : Agree (history entries) (history others) id := by
    by_cases minus : id = "-"
    · subst minus
      exact ⟨powers "-", rfl, rfl, rfl⟩
    · by_cases undefined : id = "(name)"
      · subst undefined
        exact ⟨powers "(name)", rfl, rfl, rfl⟩
      · -- The other entries come in the same order in both.
        have same : about id (history entries) = about id (history others) := by
          simp only [about, history, entries, others, List.filter_cons, List.filter_nil, Entry.id,
            beq_iff_eq, Ne.symm minus, Ne.symm undefined, if_false]
        exact ⟨powers id, by rw [last?, last?, same], by rw [last?, last?, same],
          by rw [last?, last?, same]⟩
  exact ⟨agree, (ofEntries_determined.2.2.2.2 entries others agree).2, by decide⟩

end Adventure.Grammar
