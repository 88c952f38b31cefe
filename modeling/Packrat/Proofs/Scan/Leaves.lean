import Mathlib.Data.List.Basic
import Packrat.Proofs.Chart.Cells

/-!
What a cell has for a symbol. A terminal whose symbol no other terminal and no alias has is
represented by its own match (`leaf?_terminal`). An alias that is the only one, and no terminal,
stands for the match of its targets that reaches furthest (`leaf?_alias`).
-/

set_option autoImplicit false
set_option linter.unusedSectionVars false

namespace Packrat.LexicalCell

variable {V : Type} [Kinded V]

def ownLeaves (landing : Landing) (terminals : List (Terminal V)) : List (Leaf V) :=
  (terminals.filterMap (scanTerminal landing)).map Prod.fst

theorem scan_leaves (grammar : Grammar V) (landing : Landing) :
    (scan grammar landing).1.leaves =
      grammar.aliases.entries.foldl addAlias (ownLeaves landing grammar.terminals) := rfl

section Own

variable {landing : Landing} {terminal : Terminal V} {terminals : List (Terminal V)}

theorem scanTerminal_symbol {leaf : Leaf V} {candidate : Candidate V}
    (found : scanTerminal landing terminal = some (leaf, candidate)) :
    leaf.symbol = terminal.symbol := by
  simp only [scanTerminal, Option.bind_eq_bind, Option.bind_eq_some_iff] at found
  obtain ⟨⟨length, chosen⟩, -, text, -, made⟩ := found
  cases made
  rfl

theorem mem_ownLeaves_symbol {leaf : Leaf V} (member : leaf ∈ ownLeaves landing terminals) :
    leaf.symbol ∈ terminals.map (·.symbol) := by
  obtain ⟨⟨own, candidate⟩, found, rfl⟩ := List.mem_map.1 member
  obtain ⟨terminal, listed, scanned⟩ := List.mem_filterMap.1 found
  exact List.mem_map.2 ⟨terminal, listed, (scanTerminal_symbol scanned).symm⟩

theorem find?_ownLeaves_of_not_mem {symbol : Symbol}
    (apart : symbol ∉ terminals.map (·.symbol)) :
    (ownLeaves landing terminals).find? (fun leaf => leaf.symbol == symbol) = none := by
  rw [List.find?_eq_none]
  intro leaf member same
  rw [← eq_of_beq same] at apart
  exact apart (mem_ownLeaves_symbol member)

theorem find?_ownLeaves (distinct : (terminals.map (·.symbol)).Nodup)
    (listed : terminal ∈ terminals) :
    (ownLeaves landing terminals).find? (fun leaf => leaf.symbol == terminal.symbol) =
      (scanTerminal landing terminal).map Prod.fst := by
  induction terminals with
  | nil => cases listed
  | cons head rest ih =>
      rw [List.map_cons, List.nodup_cons] at distinct
      unfold ownLeaves
      rcases List.mem_cons.1 listed with rfl | later
      · cases found : scanTerminal landing terminal with
        | none =>
            rw [List.filterMap_cons_none found]
            exact find?_ownLeaves_of_not_mem distinct.1
        | some result =>
            rcases result with ⟨leaf, candidate⟩
            rw [List.filterMap_cons_some found, List.map_cons, List.find?_cons_of_pos]
            · rfl
            · rw [scanTerminal_symbol found, beq_self_eq_true]
      · have apart : head.symbol ≠ terminal.symbol := fun same =>
          distinct.1 (List.mem_map.2 ⟨terminal, later, same.symm⟩)
        cases found : scanTerminal landing head with
        | none =>
            rw [List.filterMap_cons_none found]
            exact ih distinct.2 later
        | some result =>
            rcases result with ⟨leaf, candidate⟩
            rw [List.filterMap_cons_some found, List.map_cons, List.find?_cons_of_neg]
            · exact ih distinct.2 later
            · rw [scanTerminal_symbol found, beq_iff_eq]
              exact apart

end Own

section Aliases

variable {leaves : List (Leaf V)} {entry : Alias} {symbol : Symbol}

theorem find?_addAlias (apart : entry.symbol ≠ symbol) :
    (addAlias leaves entry).find? (fun leaf => leaf.symbol == symbol) =
      leaves.find? fun leaf => leaf.symbol == symbol := by
  unfold addAlias
  split
  · rfl
  · split
    · next leaf _ =>
        have differs : ((leaf.retag entry.symbol).symbol == symbol) = false :=
          beq_eq_false_iff_ne.2 apart
        rw [List.find?_append, List.find?_singleton, differs]
        simp
    · rfl

theorem find?_foldl_addAlias {aliases : List Alias}
    (apart : ∀ entry ∈ aliases, entry.symbol ≠ symbol) :
    (aliases.foldl addAlias leaves).find? (fun leaf => leaf.symbol == symbol) =
      leaves.find? fun leaf => leaf.symbol == symbol := by
  induction aliases generalizing leaves with
  | nil => rfl
  | cons head rest ih =>
      rw [List.foldl_cons, ih (fun entry member => apart entry (List.mem_cons_of_mem _ member)),
        find?_addAlias (apart head (List.mem_cons_self ..))]

theorem find?_addAlias_self
    (none_ : leaves.find? (fun leaf => leaf.symbol == entry.symbol) = none) :
    (addAlias leaves entry).find? (fun leaf => leaf.symbol == entry.symbol) =
      (furthest (targetLeaves leaves entry)).map (·.retag entry.symbol) := by
  have unmatched : (leaves.any fun leaf => leaf.symbol == entry.symbol) = false := by
    rw [List.any_eq_false]
    exact List.find?_eq_none.1 none_
  rw [addAlias, unmatched]
  cases found : furthest (targetLeaves leaves entry) with
  | none => exact none_
  | some leaf =>
      have own : ((leaf.retag entry.symbol).symbol == entry.symbol) = true :=
        beq_self_eq_true entry.symbol
      simp only [Bool.false_eq_true, if_false, List.find?_append, none_, Option.none_or,
        List.find?_singleton, own, if_true, Option.map_some]

end Aliases

variable {grammar : Grammar V} {landing : Landing}

theorem leaf?_terminal (terminal : Terminal V)
    (distinct : (grammar.terminals.map (·.symbol)).Nodup) (listed : terminal ∈ grammar.terminals)
    (apart : ∀ entry ∈ grammar.aliases.entries, entry.symbol ≠ terminal.symbol) :
    (scan grammar landing).1.leaf? terminal.symbol =
      (scanTerminal landing terminal).map Prod.fst := by
  rw [leaf?, scan_leaves, find?_foldl_addAlias apart, find?_ownLeaves distinct listed]

theorem leaf?_alias (entry : Alias) (targets : List (Terminal V))
    (distinct : (grammar.terminals.map (·.symbol)).Nodup)
    (single : grammar.aliases.entries = [entry])
    (apart : entry.symbol ∉ grammar.terminals.map (·.symbol))
    (isTargets : entry.targets = targets.map (·.symbol))
    (listed : ∀ target ∈ targets, target ∈ grammar.terminals) :
    (scan grammar landing).1.leaf? entry.symbol =
      (furthest (ownLeaves landing targets)).map (·.retag entry.symbol) := by
  have same : targetLeaves (ownLeaves landing grammar.terminals) entry =
      ownLeaves landing targets := by
    have matched : ownLeaves landing targets =
        targets.filterMap fun target => (scanTerminal landing target).map Prod.fst :=
      List.map_filterMap
    rw [targetLeaves, isTargets, List.filterMap_map, matched]
    exact List.filterMap_congr fun target member =>
      find?_ownLeaves distinct (listed target member)
  rw [leaf?, scan_leaves, single, List.foldl_cons, List.foldl_nil,
    find?_addAlias_self (find?_ownLeaves_of_not_mem apart), same]

end Packrat.LexicalCell
