import Mathlib.Data.List.Basic
import Packrat.Proofs.Chart.Cells

/-!
What is scanned at a place depends on the remaining text only. If the same text remains at two
places, the leaves at one of them are those at the other, moved (`LexicalCell.scan_moveTo`).
-/

set_option autoImplicit false
set_option linter.unusedSectionVars false

namespace Packrat

variable {V : Type} [Kinded V]

def Leaf.moveTo (landing : Landing) (leaf : Leaf V) : Leaf V :=
  { leaf with
    blank := landing.blank
    start := landing.position
    stop := landing.position.through leaf.text }

def Lexeme.moveTo (landing : Landing) (lexeme : Lexeme V) : Lexeme V :=
  ⟨lexeme.toLeaf.moveTo landing, lexeme.number⟩

namespace LexicalCell

variable {first second : Landing}

theorem scanTerminal_moveTo (same : first.rest = second.rest) (terminal : Terminal V) :
    scanTerminal second terminal =
      (scanTerminal first terminal).map fun found => (found.1.moveTo second, found.2) := by
  unfold scanTerminal
  rw [same]
  cases longestCandidate terminal.candidates second.rest with
  | none => rfl
  | some chosen =>
      rcases chosen with ⟨length, candidate⟩
      cases taken : Text.takeBytes? second.rest length with
      | none => simp [taken]
      | some text => simp [taken, Leaf.moveTo]

theorem moveTo_stop_lt_iff {leaf other : Leaf V} (leafFits : leaf.FitsAt first)
    (otherFits : other.FitsAt first) :
    (other.moveTo second).stop.offset < (leaf.moveTo second).stop.offset ↔
      other.stop.offset < leaf.stop.offset := by
  rw [leafFits.stop, otherFits.stop]
  simp only [Leaf.moveTo, Position.through_offset, Nat.add_lt_add_iff_left]

theorem foldl_pick_moveTo {leaves : List (Leaf V)} {best : Option (Leaf V)}
    (fits : ∀ leaf ∈ leaves, leaf.FitsAt first) (bestFits : ∀ leaf ∈ best, leaf.FitsAt first) :
    (leaves.map (Leaf.moveTo second)).foldl pick (best.map (Leaf.moveTo second)) =
      (leaves.foldl pick best).map (Leaf.moveTo second) := by
  induction leaves generalizing best with
  | nil => rfl
  | cons head rest ih =>
      rcases List.forall_mem_cons.1 fits with ⟨headFits, restFits⟩
      have isHead : ∀ leaf ∈ some head, leaf.FitsAt first := by
        rintro leaf ⟨⟩
        exact headFits
      rw [List.map_cons, List.foldl_cons, List.foldl_cons]
      cases best with
      | none => exact ih restFits isHead
      | some other =>
          rw [Option.map_some, pick, pick]
          simp only [moveTo_stop_lt_iff headFits (bestFits other rfl)]
          by_cases further : other.stop.offset < head.stop.offset
          · rw [if_pos further, if_pos further]
            exact ih restFits isHead
          · rw [if_neg further, if_neg further]
            exact ih restFits bestFits

theorem furthest_moveTo {leaves : List (Leaf V)} (fits : ∀ leaf ∈ leaves, leaf.FitsAt first) :
    furthest (leaves.map (Leaf.moveTo second)) = (furthest leaves).map (Leaf.moveTo second) := by
  have none_ : ∀ leaf ∈ (none : Option (Leaf V)), leaf.FitsAt first := by
    intro leaf member
    cases member
  rw [furthest_eq, furthest_eq]
  exact foldl_pick_moveTo fits none_

theorem targetLeaves_moveTo (leaves : List (Leaf V)) (entry : Alias) :
    targetLeaves (leaves.map (Leaf.moveTo second)) entry =
      (targetLeaves leaves entry).map (Leaf.moveTo second) := by
  unfold targetLeaves
  rw [List.map_filterMap]
  congr 1
  funext target
  rw [List.find?_map]
  rfl

theorem targetLeaves_fits {leaves : List (Leaf V)} (fits : ∀ leaf ∈ leaves, leaf.FitsAt first)
    (entry : Alias) : ∀ leaf ∈ targetLeaves leaves entry, leaf.FitsAt first := by
  intro leaf member
  obtain ⟨target, -, found⟩ := List.mem_filterMap.1 member
  exact fits leaf (List.mem_of_find?_eq_some found)

theorem addAlias_moveTo {leaves : List (Leaf V)} (fits : ∀ leaf ∈ leaves, leaf.FitsAt first)
    (entry : Alias) :
    addAlias (leaves.map (Leaf.moveTo second)) entry =
      (addAlias leaves entry).map (Leaf.moveTo second) := by
  unfold addAlias
  rw [targetLeaves_moveTo, furthest_moveTo (targetLeaves_fits fits entry), List.any_map]
  change (if (leaves.any fun leaf => leaf.symbol == entry.symbol) then _ else _) = _
  split
  · rfl
  · cases furthest (targetLeaves leaves entry) with
    | none => rfl
    | some leaf => simp [Leaf.moveTo, Leaf.retag]

theorem foldl_addAlias_moveTo {leaves : List (Leaf V)}
    (fits : ∀ leaf ∈ leaves, leaf.FitsAt first) (aliases : List Alias) :
    aliases.foldl addAlias (leaves.map (Leaf.moveTo second)) =
      (aliases.foldl addAlias leaves).map (Leaf.moveTo second) := by
  induction aliases generalizing leaves with
  | nil => rfl
  | cons entry rest ih =>
      rw [List.foldl_cons, List.foldl_cons, addAlias_moveTo fits]
      exact ih (addAlias_forall retag_fits fits entry)

theorem scan_leaves_moveTo {grammar : Grammar V}
    (terminals : ∀ terminal ∈ grammar.terminals, scanTerminal second terminal =
      (scanTerminal first terminal).map fun found => (found.1.moveTo second, found.2)) :
    (scan grammar second).1.leaves =
      (scan grammar first).1.leaves.map (Leaf.moveTo second) := by
  have own : (grammar.terminals.filterMap (scanTerminal second)).map (·.1) =
      ((grammar.terminals.filterMap (scanTerminal first)).map (·.1)).map
        (Leaf.moveTo second) := by
    simp only [List.map_filterMap, Option.map_map]
    apply List.filterMap_congr
    intro terminal listed
    rw [terminals terminal listed, Option.map_map]
    rfl
  have fits : ∀ leaf ∈ (grammar.terminals.filterMap (scanTerminal first)).map (·.1),
      leaf.FitsAt first := by
    intro leaf member
    rcases List.mem_map.1 member with ⟨⟨scanned, candidate⟩, found, rfl⟩
    rcases List.mem_filterMap.1 found with ⟨terminal, -, isMatch⟩
    exact scanTerminal_fits isMatch
  change grammar.aliases.entries.foldl addAlias _ = (grammar.aliases.entries.foldl addAlias _).map _
  rw [own]
  exact foldl_addAlias_moveTo fits grammar.aliases.entries

/-- The leaves at a place are those at any other where the same text remains, moved. -/
theorem scan_moveTo (same : first.rest = second.rest) (grammar : Grammar V) :
    (scan grammar second).1.leaves =
      (scan grammar first).1.leaves.map (Leaf.moveTo second) :=
  scan_leaves_moveTo fun terminal _ => scanTerminal_moveTo same terminal

end LexicalCell

end Packrat
