import Packrat.Grammar.Build

/-!
What adding to a registry changes: the parts under one symbol, and nothing else.
-/

set_option autoImplicit false

namespace Packrat

namespace Registry

variable {α β : Type} {registry : Registry α β} {entries : List α} {name other : Symbol}
  {parts : List β}

def partsAt (registry : Registry α β) (entries : List α) (name : Symbol) : List β :=
  (entries.find? fun entry => registry.symbol entry == name).elim [] registry.parts

theorem mem_symbols_add :
    other ∈ (registry.add name parts entries).map registry.symbol ↔
      other = name ∨ other ∈ entries.map registry.symbol := by
  induction entries with
  | nil => simp [add, registry.symbol_make]
  | cons head rest ih =>
      rw [add]
      split
      · next same =>
          rw [List.map_cons, List.map_cons, registry.symbol_make, List.mem_cons, List.mem_cons,
            same]
          constructor
          · exact .inr
          · intro found
            cases found with
            | inl isName => exact .inl isName
            | inr listed => exact listed
      · rw [List.map_cons, List.map_cons, List.mem_cons, List.mem_cons, ih]
        exact or_left_comm

theorem nodup_symbols_add (registry : Registry α β)
    (distinct : (entries.map registry.symbol).Nodup) :
    ((registry.add name parts entries).map registry.symbol).Nodup := by
  induction entries with
  | nil => simp [add]
  | cons head rest ih =>
      rw [List.map_cons, List.nodup_cons] at distinct
      rw [add]
      split
      · next same =>
          rw [List.map_cons, registry.symbol_make, List.nodup_cons, ← same]
          exact distinct
      · next apart =>
          rw [List.map_cons, List.nodup_cons]
          constructor
          · intro listed
            cases mem_symbols_add.1 listed with
            | inl isName => exact apart isName
            | inr before => exact distinct.1 before
          · exact ih distinct.2

theorem partsAt_cons {head : α} :
    registry.partsAt (head :: entries) name =
      if registry.symbol head = name then registry.parts head
      else registry.partsAt entries name := by
  rw [partsAt, List.find?_cons]
  by_cases same : registry.symbol head = name
  · rw [if_pos same, beq_iff_eq.2 same]
    rfl
  · rw [if_neg same, beq_false_of_ne same]
    rfl

theorem partsAt_add :
    registry.partsAt (registry.add name parts entries) other =
      if name = other then registry.partsAt entries name ++ parts
      else registry.partsAt entries other := by
  induction entries with
  | nil =>
      rw [add, partsAt_cons, registry.symbol_make, registry.parts_make]
      rfl
  | cons head rest ih =>
      rw [add]
      by_cases here : registry.symbol head = name
      · rw [if_pos here, partsAt_cons, partsAt_cons, partsAt_cons, registry.symbol_make,
          registry.parts_make, here, if_pos rfl]
        split
        · rfl
        · rfl
      · rw [if_neg here, partsAt_cons, partsAt_cons, partsAt_cons, if_neg here, ih]
        by_cases same : name = other
        · rw [if_pos same, if_pos same, if_neg (same ▸ here)]
        · rw [if_neg same, if_neg same]

theorem forall_add {P : Symbol → β → Prop}
    (before : ∀ entry ∈ entries, ∀ part ∈ registry.parts entry, P (registry.symbol entry) part)
    (new : ∀ part ∈ parts, P name part) :
    ∀ entry ∈ registry.add name parts entries,
      ∀ part ∈ registry.parts entry, P (registry.symbol entry) part := by
  induction entries with
  | nil =>
      rw [add, List.forall_mem_singleton, registry.symbol_make, registry.parts_make]
      exact new
  | cons head rest ih =>
      rw [List.forall_mem_cons] at before
      rw [add]
      split
      · next same =>
          rw [List.forall_mem_cons, registry.symbol_make, registry.parts_make,
            List.forall_mem_append, ← same]
          rw [← same] at new
          exact ⟨⟨before.1, new⟩, before.2⟩
      · rw [List.forall_mem_cons]
        exact ⟨before.1, ih before.2⟩

end Registry

end Packrat
