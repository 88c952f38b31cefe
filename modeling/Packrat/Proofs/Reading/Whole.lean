import Packrat.Proofs.Reading.Frontier
import Packrat.Proofs.Reading.Steps
import Packrat.Proofs.Reference.Lookup

/-!
Whole parses. A parse is complete if it has a root with nothing but blank text behind it
(`Grammar.parse_isComplete_iff`); then the root is derived and its lexemes make up the text
(`Grammar.derived_of_complete`). In the other direction, the tree of the root is the one that the
reference finds at the start of the text, so a text of which the whole is read has a complete parse
(`Grammar.parse_of_reads`).
-/

set_option autoImplicit false
set_option linter.unusedSectionVars false

namespace Packrat

variable {V : Type} [Kinded V]

namespace Grammar

variable {input : Input V}

theorem parse_isComplete_iff (wellFormed : input.grammar.WellFormed) :
    (input.grammar.parse input.source).isComplete = true ↔
      ∃ root, (input.grammar.parse input.source).root = some root ∧ input.Awaits root.stop [] := by
  obtain ⟨sound, -, derived⟩ := Chart.parse_sound wellFormed
  unfold Parse.isComplete
  rw [parse_input]
  cases isRoot : (input.grammar.parse input.source).root with
  | none => simp
  | some root =>
      obtain ⟨cell, leads, isDerived⟩ := derived root isRoot
      obtain ⟨-, -, here⟩ := Chart.cellFrom?_scanned sound.arena leads
      obtain ⟨rest, found⟩ := Option.isSome_iff_exists.1 (isDerived.sits sound.arena here).2.2
      simp only [found, Option.getD_some, Option.some.injEq, exists_eq_left']
      exact (Input.Awaits.nil_iff found).symm

theorem parse_root (wellFormed : input.grammar.WellFormed) (guarded : input.Guarded)
    {landing : Landing} {found : Option (Tree V)} (landed : input.land .start = .ok landing)
    (parses : Parses input (.resolve landing.position input.grammar.root) (.tree found)) :
    (input.grammar.parse input.source).root.map Token.tree = found :=
  Outcome.tree.inj (((Chart.parse_agrees wellFormed guarded).2 landing landed).unique parses)

/-- A text of which the whole is read has a complete parse with the tree that is read. -/
theorem parse_of_reads (wellFormed : input.grammar.WellFormed) (guarded : input.Guarded)
    {landing : Landing} {tree : Tree V}
    (read : input.Reads input.grammar.root .start [] landing tree) :
    ∃ root, (input.grammar.parse input.source).root = some root ∧ root.tree = tree ∧
      (input.grammar.parse input.source).isComplete = true := by
  obtain ⟨root, found, rfl⟩ :=
    Option.map_eq_some_iff.1 (parse_root wellFormed guarded read.landed read.resolves)
  have onward := read.onward
  rw [Token.tree_stop] at onward
  exact ⟨root, found, rfl, (parse_isComplete_iff wellFormed).2 ⟨root, found, onward⟩⟩

/-- A complete parse has a root that is derived, and whose lexemes make up the text. -/
theorem derived_of_complete (wellFormed : input.grammar.WellFormed)
    (complete : (input.grammar.parse input.source).isComplete = true) :
    ∃ (root : Token V) (cell : LexicalCell V),
      (input.grammar.parse input.source).root = some root ∧
      (input.grammar.parse input.source).chart.Arena input ∧ cell.Scanned input ∧
      Derives input (input.grammar.parse input.source).chart
        (.matched cell input.grammar.root root) ∧
      Spaced input.grammar.isBlank root.tree.lexemes input.source := by
  obtain ⟨root, isRoot, ended⟩ := (parse_isComplete_iff wellFormed).1 complete
  obtain ⟨sound, -, derived⟩ := Chart.parse_sound wellFormed
  obtain ⟨cell, leads, isDerived⟩ := derived root isRoot
  have spaced := Chart.parse_frontier wellFormed isRoot ended
  rw [List.append_nil] at spaced
  exact ⟨root, cell, isRoot, sound.arena, (Chart.cellFrom?_scanned sound.arena leads).1, isDerived,
    spaced⟩

end Grammar

end Packrat
