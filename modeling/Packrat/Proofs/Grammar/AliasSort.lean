import Mathlib.Data.List.Nodup
import Packrat.Proofs.Grammar.AliasIndex

/-!
Sorting a registry of aliases. The order of aliases is a rearrangement of them (`Alias.order_perm`)
in which each comes after those it refers to (`Alias.Ordered.sorted`), and aliases that are sorted
already stay as they are (`Alias.order_of_sorted`). The index follows the aliases to their new
places, and a registry in which an alias lies on a cycle is not touched (`Aliases.sort_exact`).
-/

set_option autoImplicit false

namespace Packrat.Alias

variable {aliases : List Alias}

def Sorted (aliases : List Alias) : Prop :=
  ∀ before entry behind, aliases = before ++ entry :: behind →
    ∀ other ∈ aliases, other.symbol ∈ entry.targets → other ∈ before

/-! ### Aliases are placed once -/

/-- What placing some aliases adds: no symbol twice, and none of those that are being visited. -/
structure Adds (path : List Symbol) (placed after : List Alias) : Prop where
  distinct : (placed.map Alias.symbol).Nodup → (after.map Alias.symbol).Nodup
  apart : ∀ symbol ∈ path, symbol ∈ after.map Alias.symbol → symbol ∈ placed.map Alias.symbol

namespace Adds

variable {path : List Symbol} {placed between after : List Alias} {entry : Alias}

theorem refl (path : List Symbol) (placed : List Alias) : Adds path placed placed :=
  ⟨id, fun _ _ => id⟩

theorem trans (early : Adds path placed between) (late : Adds path between after) :
    Adds path placed after := by
  constructor
  · intro distinct
    exact late.distinct (early.distinct distinct)
  · intro symbol visited listed
    exact early.apart symbol visited (late.apart symbol visited listed)

theorem append (adds : Adds (entry.symbol :: path) placed between)
    (missing : entry.symbol ∉ placed.map Alias.symbol) (fresh : entry.symbol ∉ path) :
    Adds path placed (between ++ [entry]) := by
  have unplaced : entry.symbol ∉ between.map Alias.symbol :=
    fun listed => missing (adds.apart entry.symbol (List.mem_cons_self ..) listed)
  constructor
  · intro distinct
    rw [List.map_append, List.map_singleton, List.nodup_append_comm, List.singleton_append,
      List.nodup_cons]
    exact ⟨unplaced, adds.distinct distinct⟩
  · intro symbol visited listed
    rw [List.map_append, List.map_singleton, List.mem_append, List.mem_singleton] at listed
    cases listed with
    | inl earlier => exact adds.apart symbol (List.mem_cons_of_mem _ visited) earlier
    | inr last => exact (fresh (last ▸ visited)).elim

end Adds

theorem foldlM_adds {path : List Symbol} {step : List Alias → Alias → Except Symbol (List Alias)}
    {entries placed after : List Alias}
    (adds : ∀ entry ∈ entries, ∀ before after, step before entry = .ok after →
      Adds path before after)
    (done : entries.foldlM step placed = .ok after) : Adds path placed after := by
  induction entries generalizing placed with
  | nil =>
      cases done
      exact .refl path after
  | cons entry rest ih =>
      rw [List.forall_mem_cons] at adds
      rw [List.foldlM_cons] at done
      cases stepped : step placed entry with
      | error symbol =>
          rw [stepped] at done
          cases done
      | ok between =>
          rw [stepped] at done
          exact (adds.1 placed between stepped).trans (ih adds.2 done)

theorem any_symbol_iff {placed : List Alias} {symbol : Symbol} :
    (placed.any fun other => other.symbol == symbol) = true ↔
      symbol ∈ placed.map Alias.symbol := by
  simp

theorem visit_adds {budget : Nat} {path : List Symbol} {placed after : List Alias} {entry : Alias}
    (done : visit (find? aliases) budget path placed entry = .ok after) :
    Adds path placed after := by
  induction budget generalizing path placed after entry with
  | zero =>
      rw [visit] at done
      split at done
      · cases done
        exact .refl path placed
      · split at done
        · cases done
        · cases done
  | succ budget ih =>
      rw [visit] at done
      split at done
      · cases done
        exact .refl path placed
      · next missing =>
          split at done
          · cases done
          · next fresh =>
              simp only at done
              cases folded : (entry.targets.filterMap (find? aliases)).foldlM
                  (visit (find? aliases) budget (entry.symbol :: path)) placed with
              | error symbol =>
                  rw [folded] at done
                  cases done
              | ok between =>
                  rw [folded] at done
                  cases done
                  have targets : Adds (entry.symbol :: path) placed between :=
                    foldlM_adds (fun _ _ _ _ stepped => ih stepped) folded
                  rw [any_symbol_iff] at missing
                  rw [List.contains_iff_mem] at fresh
                  exact targets.append missing fresh

theorem order_distinct {after : List Alias} (done : order aliases = .ok after) :
    (after.map Alias.symbol).Nodup := by
  have adds : Adds [] [] after := foldlM_adds (fun _ _ _ _ stepped => visit_adds stepped) done
  exact adds.distinct List.nodup_nil

/-- An order of aliases has the same aliases in other places. -/
theorem order_perm (distinct : (aliases.map Alias.symbol).Nodup) {after : List Alias}
    (done : order aliases = .ok after) : after.Perm aliases := by
  have settles := order_settles distinct
  rw [done] at settles
  obtain ⟨ordered, -, all⟩ := settles
  rw [List.perm_ext_iff_of_nodup (.of_map _ (order_distinct done)) (.of_map _ distinct)]
  intro entry
  constructor
  · intro placed
    exact List.mem_of_find?_eq_some (ordered.find?_eq placed)
  · intro listed
    exact all listed

/-! ### Sorted aliases -/

theorem Ordered.targets_before {before behind : List Alias} {entry : Alias}
    (ordered : Ordered aliases (before ++ entry :: behind)) {target : Symbol}
    (listed : target ∈ entry.targets) {other : Alias}
    (isAlias : find? aliases target = some other) : other ∈ before := by
  generalize split : before ++ entry :: behind = placed at ordered
  induction ordered generalizing behind with
  | nil => simp at split
  | @append placed last _ _ earlier ih =>
      rcases List.eq_nil_or_concat behind with rfl | ⟨between, other, rfl⟩
      · obtain ⟨rfl, same⟩ := List.append_inj' split rfl
        cases same
        exact earlier target listed other isAlias
      · have shorter : (before ++ entry :: between) ++ [other] = placed ++ [last] := by
          simpa using split
        exact ih (List.append_inj' shorter rfl).1

theorem Ordered.sorted {placed : List Alias} (ordered : Ordered aliases placed) :
    Sorted placed := by
  rintro before entry behind rfl other placed listed
  exact ordered.targets_before listed (ordered.find?_eq placed)

theorem visit_of_mem {budget : Nat} {path : List Symbol} {placed : List Alias} {entry : Alias}
    (isPlaced : entry ∈ placed) :
    visit (find? aliases) budget path placed entry = .ok placed := by
  have found : (placed.any fun other => other.symbol == entry.symbol) = true :=
    any_symbol_iff.2 (List.mem_map_of_mem isPlaced)
  cases budget with
  | zero => rw [visit, if_pos found]
  | succ budget => rw [visit, if_pos found]

theorem foldlM_visit_of_subset {budget : Nat} {path : List Symbol} {entries placed : List Alias}
    (all : entries ⊆ placed) :
    entries.foldlM (visit (find? aliases) budget path) placed = .ok placed := by
  induction entries with
  | nil => rfl
  | cons entry rest ih =>
      rw [List.cons_subset] at all
      rw [List.foldlM_cons, visit_of_mem all.1]
      exact ih all.2

/-- An alias whose targets have been placed is placed next. -/
theorem visit_next {budget : Nat} {placed : List Alias} {entry : Alias}
    (missing : entry.symbol ∉ placed.map Alias.symbol)
    (targets : entry.targets.filterMap (find? aliases) ⊆ placed) :
    visit (find? aliases) (budget + 1) [] placed entry = .ok (placed ++ [entry]) := by
  have unvisited : ¬([] : List Symbol).contains entry.symbol = true := by simp
  rw [visit, if_neg (fun isPlaced => missing (any_symbol_iff.1 isPlaced)), if_neg unvisited]
  simp only
  rw [foldlM_visit_of_subset targets]
  rfl

/-- Aliases that are sorted stay in their places. -/
theorem order_of_sorted (distinct : (aliases.map Alias.symbol).Nodup) (sorted : Sorted aliases) :
    order aliases = .ok aliases := by
  have onward : ∀ behind before, before ++ behind = aliases →
      behind.foldlM (visit (find? aliases) aliases.length []) before = .ok aliases := by
    intro behind
    induction behind with
    | nil =>
        intro before split
        rw [List.append_nil] at split
        rw [split]
        rfl
    | cons entry rest ih =>
        intro before split
        have size : aliases.length = (before.length + rest.length) + 1 := by
          rw [← split, List.length_append, List.length_cons, Nat.add_assoc]
        have missing : entry.symbol ∉ before.map Alias.symbol := by
          rw [← split, List.map_append, List.map_cons, List.nodup_middle,
            List.nodup_cons] at distinct
          exact fun listed => distinct.1 (List.mem_append_left _ listed)
        have targets : entry.targets.filterMap (find? aliases) ⊆ before := by
          intro other member
          obtain ⟨target, listed, isOther⟩ := List.mem_filterMap.1 member
          rw [← find?_symbol isOther] at listed
          exact sorted before entry rest split.symm other (List.mem_of_find?_eq_some isOther) listed
        rw [List.foldlM_cons, size, visit_next missing targets, ← size]
        exact ih (before ++ [entry]) (by simpa using split)
  exact onward aliases [] rfl

end Packrat.Alias

namespace Packrat.Aliases

open Alias (Refers Sorted)

variable {aliases : Aliases}

/-- Registries of aliases: targets are added to aliases, and the aliases are sorted. -/
inductive Registered : Aliases → Prop where
  | empty : Registered {}
  | add {aliases : Aliases} (symbol : Symbol) (targets : List Symbol) :
      Registered aliases → Registered (aliases.add symbol targets)
  | sort {aliases after : Aliases} :
      Registered aliases → sort.run aliases = .ok () after → Registered after

theorem Indexed.sort {after : Aliases} (indexed : aliases.Indexed)
    (done : sort.run aliases = .ok () after) : after.Indexed := by
  obtain ⟨ordered, anew⟩ := indexed.sort_eq_ok done
  rw [anew]
  exact .ofEntries (Alias.order_distinct ordered)

theorem Registered.indexed (registered : Registered aliases) : aliases.Indexed := by
  induction registered with
  | empty => exact .empty
  | add symbol targets _ ih => exact ih.add symbol targets
  | sort _ done ih => exact ih.sort done

/-- The aliases of a registry are sorted exactly if none refers to itself, directly or through
others. Then they are the same aliases, each behind those it refers to and found by the index at its
new place, and none has moved if they were sorted before. Otherwise the symbol that is reported is
that of an alias on a cycle, and the registry is as it was. Symbols that are no aliases refer to
nothing, so no cycle goes through them. -/
theorem sort_exact (registered : Registered aliases) :
    ((∃ after, sort.run aliases = .ok () after) ↔
      ∀ symbol, ¬Relation.TransGen (Refers aliases.entries) symbol symbol) ∧
    (∀ after, sort.run aliases = .ok () after →
      after.entries.Perm aliases.entries ∧ Sorted after.entries ∧
      (∀ symbol place, after.place? symbol = some place ↔
        (after.entries.map Alias.symbol)[place]? = some symbol) ∧
      (Sorted aliases.entries → after.entries = aliases.entries)) ∧
    (∀ symbol after, sort.run aliases = .error symbol after →
      symbol ∈ aliases.entries.map Alias.symbol ∧
      Relation.TransGen (Refers aliases.entries) symbol symbol ∧ after = aliases) := by
  have indexed := registered.indexed
  have settles := Alias.order_settles indexed.distinct
  refine ⟨?_, ?_, ?_⟩
  · rw [← Alias.order_eq_ok_iff indexed.distinct, indexed.run_sort]
    cases Alias.order aliases.entries with
    | ok sorted => exact ⟨fun _ => ⟨sorted, rfl⟩, fun _ => ⟨ofEntries sorted, rfl⟩⟩
    | error symbol => exact ⟨nofun, nofun⟩
  · intro after done
    have ordered := (indexed.sort_eq_ok done).1
    rw [ordered] at settles
    refine ⟨Alias.order_perm indexed.distinct ordered, settles.1.sorted,
      (indexed.sort done).place?_eq_some_iff, fun stays => ?_⟩
    have same := Alias.order_of_sorted indexed.distinct stays
    rw [ordered] at same
    exact Except.ok.inj same
  · intro symbol after failed
    obtain ⟨cyclic, rfl⟩ := indexed.sort_eq_error failed
    rw [cyclic] at settles
    obtain ⟨next, ⟨entry, isAlias, -⟩, -⟩ := Relation.TransGen.head'_iff.1 settles
    have listed := List.mem_map_of_mem (f := Alias.symbol) (List.mem_of_find?_eq_some isAlias)
    rw [Alias.find?_symbol isAlias] at listed
    exact ⟨listed, settles, rfl⟩

/-! ### A diamond -/

def diamond : Aliases :=
  ({} : Aliases).add ⟨"top"⟩ [⟨"left"⟩, ⟨"right"⟩]
    |>.add ⟨"left"⟩ [⟨"bottom"⟩]
    |>.add ⟨"right"⟩ [⟨"word"⟩, ⟨"bottom"⟩]
    |>.add ⟨"bottom"⟩ [⟨"word"⟩]

def sortedDiamond : Aliases :=
  .ofEntries [⟨⟨"bottom"⟩, [⟨"word"⟩]⟩, ⟨⟨"left"⟩, [⟨"bottom"⟩]⟩,
    ⟨⟨"right"⟩, [⟨"word"⟩, ⟨"bottom"⟩]⟩, ⟨⟨"top"⟩, [⟨"left"⟩, ⟨"right"⟩]⟩]

theorem sort_diamond :
    Registered diamond ∧ sort.run diamond = .ok () sortedDiamond ∧
      sortedDiamond.entries.Perm diamond.entries ∧ Sorted sortedDiamond.entries ∧
      diamond.place? ⟨"top"⟩ = some 0 ∧ sortedDiamond.place? ⟨"top"⟩ = some 3 := by
  have registered : Registered diamond :=
    .add _ _ (.add _ _ (.add _ _ (.add _ _ .empty)))
  have done : sort.run diamond = .ok () sortedDiamond := by rfl
  obtain ⟨perm, sorted, places, -⟩ := (sort_exact registered).2.1 sortedDiamond done
  exact ⟨registered, done, perm, sorted, rfl, (places ⟨"top"⟩ 3).2 rfl⟩

/-- Aliases on a cycle stay where they are. -/
example :
    let aliases := ({} : Aliases).add ⟨"first"⟩ [⟨"second"⟩] |>.add ⟨"second"⟩ [⟨"first"⟩]
    sort.run aliases = .error ⟨"first"⟩ aliases := by rfl

end Packrat.Aliases
