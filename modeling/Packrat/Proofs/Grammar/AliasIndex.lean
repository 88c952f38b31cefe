import Packrat.Proofs.Grammar.AliasOrder
import Packrat.Proofs.Grammar.Registry

/-!
The index of a registry of aliases. It has the place of each alias (`Aliases.Indexed`) when there is
none, when targets are added to one, and when it is made anew. So what is found through the index is
what a search among the aliases finds.
-/

set_option autoImplicit false

namespace Packrat

def Alias.registry : Registry Alias Symbol where
  symbol := Alias.symbol
  parts := Alias.targets
  make := Alias.mk
  symbol_make _ _ := rfl
  parts_make _ _ := rfl

namespace Aliases

variable {aliases : Aliases} {entries : List Alias} {symbol : Symbol} {targets : List Symbol}

/-- Whether the index has the places of the aliases, and these have different symbols. -/
structure Indexed (aliases : Aliases) : Prop where
  distinct : (aliases.entries.map Alias.symbol).Nodup
  index : aliases.index = (aliases.entries.map Alias.symbol).zipIdx

theorem lookup_zipIdx {symbols : List Symbol} (distinct : symbols.Nodup) (first place : Nat) :
    (symbols.zipIdx first).lookup symbol = some place ↔
      ∃ index, place = first + index ∧ symbols[index]? = some symbol := by
  induction symbols generalizing first with
  | nil => simp
  | cons head rest ih =>
      rw [List.nodup_cons] at distinct
      rw [List.zipIdx_cons, List.lookup_cons]
      by_cases here : symbol = head
      · subst here
        rw [beq_self_eq_true]
        constructor
        · rintro ⟨⟩
          exact ⟨0, rfl, rfl⟩
        · rintro ⟨index, rfl, found⟩
          cases index with
          | zero => rfl
          | succ index => exact (distinct.1 (List.mem_of_getElem? found)).elim
      · rw [beq_false_of_ne here]
        refine (ih distinct.2 (first + 1)).trans ?_
        constructor
        · rintro ⟨index, rfl, found⟩
          exact ⟨index + 1, Nat.add_right_comm first 1 index, found⟩
        · rintro ⟨index, rfl, found⟩
          cases index with
          | zero => exact (here (Option.some.inj found).symm).elim
          | succ index => exact ⟨index, Nat.add_right_comm first index 1, found⟩

namespace Indexed

theorem ofEntries (distinct : (entries.map Alias.symbol).Nodup) : (ofEntries entries).Indexed :=
  ⟨distinct, rfl⟩

theorem empty : ({} : Aliases).Indexed :=
  ofEntries List.nodup_nil

section Search

variable (indexed : aliases.Indexed)

include indexed

theorem place?_eq_some_iff (symbol : Symbol) (place : Nat) :
    aliases.place? symbol = some place ↔
      (aliases.entries.map Alias.symbol)[place]? = some symbol := by
  rw [place?, indexed.index, lookup_zipIdx indexed.distinct]
  simp only [Nat.zero_add, exists_eq_left']

theorem place?_eq_none_iff :
    aliases.place? symbol = none ↔ symbol ∉ aliases.entries.map Alias.symbol := by
  rw [List.mem_iff_getElem?, not_exists, Option.eq_none_iff_forall_ne_some]
  exact forall_congr' fun place => not_congr (indexed.place?_eq_some_iff symbol place)

theorem find?_eq : aliases.find? symbol = Alias.find? aliases.entries symbol := by
  cases isPlace : aliases.place? symbol with
  | none =>
      have missing := indexed.place?_eq_none_iff.1 isPlace
      have unfound : Alias.find? aliases.entries symbol = none := by
        rw [Alias.find?, List.find?_eq_none]
        intro entry member same
        exact missing (List.mem_map.2 ⟨entry, member, eq_of_beq same⟩)
      rw [unfound, find?, isPlace]
      rfl
  | some place =>
      have found := (indexed.place?_eq_some_iff symbol place).1 isPlace
      rw [List.getElem?_map, Option.map_eq_some_iff] at found
      obtain ⟨entry, isEntry, rfl⟩ := found
      rw [Alias.find?_of_mem indexed.distinct (List.mem_of_getElem? isEntry), find?, isPlace]
      exact isEntry

theorem isEmpty_targets :
    (aliases.find? symbol).all (·.targets.isEmpty) =
      (Alias.registry.partsAt aliases.entries symbol).isEmpty := by
  rw [indexed.find?_eq]
  change _ = List.isEmpty ((Alias.find? aliases.entries symbol).elim [] Alias.targets)
  cases Alias.find? aliases.entries symbol with
  | none => rfl
  | some entry => rfl

theorem contains_iff :
    aliases.contains symbol = true ↔ symbol ∈ aliases.entries.map Alias.symbol := by
  rw [contains, Option.isSome_iff_ne_none, ne_eq, indexed.place?_eq_none_iff, not_not]

end Search

end Indexed

theorem modify_eq_add {place : Nat} (distinct : (entries.map Alias.symbol).Nodup)
    (found : (entries.map Alias.symbol)[place]? = some symbol) :
    entries.modify place (fun entry => ⟨entry.symbol, entry.targets ++ targets⟩) =
      Alias.registry.add symbol targets entries := by
  induction entries generalizing place with
  | nil => cases found
  | cons head rest ih =>
      rw [List.map_cons, List.nodup_cons] at distinct
      rw [Registry.add]
      cases place with
      | zero =>
          cases found
          exact (if_pos rfl).symm
      | succ place =>
          have apart : ¬Alias.registry.symbol head = symbol := by
            rintro rfl
            exact distinct.1 (List.mem_of_getElem? found)
          rw [if_neg apart, ← ih distinct.2 found]
          rfl

theorem append_eq_add (missing : symbol ∉ entries.map Alias.symbol) :
    entries ++ [⟨symbol, targets⟩] = Alias.registry.add symbol targets entries := by
  induction entries with
  | nil => rfl
  | cons head rest ih =>
      rw [List.map_cons, List.mem_cons, not_or] at missing
      have apart : ¬Alias.registry.symbol head = symbol := Ne.symm missing.1
      rw [Registry.add, if_neg apart, ← ih missing.2]
      rfl

theorem Indexed.entries_add (indexed : aliases.Indexed) :
    (aliases.add symbol targets).entries =
      Alias.registry.add symbol targets aliases.entries := by
  rw [Aliases.add]
  cases isPlace : aliases.place? symbol with
  | none => exact append_eq_add (indexed.place?_eq_none_iff.1 isPlace)
  | some place =>
      exact modify_eq_add indexed.distinct ((indexed.place?_eq_some_iff symbol place).1 isPlace)

theorem symbols_modify (place : Nat) :
    (entries.modify place fun entry => ⟨entry.symbol, entry.targets ++ targets⟩).map Alias.symbol =
      entries.map Alias.symbol := by
  induction entries generalizing place with
  | nil =>
      cases place with
      | zero | succ _ => rfl
  | cons head rest ih =>
      cases place with
      | zero => rfl
      | succ place => exact congrArg (head.symbol :: ·) (ih place)

/-- Adding targets keeps the index in step with the aliases. -/
theorem Indexed.add (indexed : aliases.Indexed) (symbol : Symbol) (targets : List Symbol) :
    (aliases.add symbol targets).Indexed := by
  constructor
  · rw [indexed.entries_add]
    exact Registry.nodup_symbols_add Alias.registry indexed.distinct
  · rw [Aliases.add]
    cases aliases.place? symbol with
    | some place =>
        dsimp only
        rw [symbols_modify]
        exact indexed.index
    | none =>
        dsimp only
        rw [List.map_append, List.zipIdx_append, List.length_map, ← indexed.index, Nat.zero_add]
        rfl

/-- Sorting by the index is sorting by search. -/
theorem Indexed.run_sort (indexed : aliases.Indexed) :
    sort.run aliases =
      match Alias.order aliases.entries with
      | .ok after => .ok () (Aliases.ofEntries after)
      | .error symbol => .error symbol aliases := by
  have search : aliases.find? = Alias.find? aliases.entries :=
    funext fun _ => indexed.find?_eq
  have visits : sort.run aliases =
      EStateM.run (match aliases.entries.foldlM
          (Alias.visit aliases.find? aliases.entries.length []) [] with
        | .ok placed => set (Aliases.ofEntries placed)
        | .error symbol => throw symbol) aliases := rfl
  rw [visits, search]
  change EStateM.run (match Alias.order aliases.entries with
    | .ok placed => set (Aliases.ofEntries placed)
    | .error symbol => throw symbol) aliases = _
  cases Alias.order aliases.entries with
  | ok after => rfl
  | error symbol => rfl

theorem Indexed.sort_eq_ok {after : Aliases} (indexed : aliases.Indexed)
    (done : sort.run aliases = .ok () after) :
    Alias.order aliases.entries = .ok after.entries ∧
      after = Aliases.ofEntries after.entries := by
  rw [indexed.run_sort] at done
  cases ordered : Alias.order aliases.entries with
  | ok entries =>
      rw [ordered] at done
      cases done
      exact ⟨rfl, rfl⟩
  | error symbol =>
      rw [ordered] at done
      cases done

theorem Indexed.sort_eq_error {after : Aliases} (indexed : aliases.Indexed)
    (failed : sort.run aliases = .error symbol after) :
    Alias.order aliases.entries = .error symbol ∧ after = aliases := by
  rw [indexed.run_sort] at failed
  cases ordered : Alias.order aliases.entries with
  | ok entries =>
      rw [ordered] at failed
      cases failed
  | error cyclic =>
      rw [ordered] at failed
      cases failed
      exact ⟨rfl, rfl⟩

end Aliases

end Packrat
