import Packrat.Proofs.History.Stability
import Packrat.Proofs.History.Moves
import Packrat.Proofs.History.Tiling

/-!
Requests for cells. At every moment, cells are kept under the offsets behind the blank text, and
both layers of cells agree. A request finds the cell that another one has found if and only if
skipping the blank text leads from both places to the same offset
(`Chart.Reachable.requests_identified`).
-/

set_option autoImplicit false
set_option linter.unusedSectionVars false

namespace Packrat

variable {V : Type} [Kinded V]

/-! ### Calls consist of moves -/

section Calls

open Relation

namespace Chart

variable {input : Input V} {chart after : Chart V}

theorem Serves.moves (served : Serves input chart after) (wellFormed : input.grammar.WellFormed)
    (sound : chart.Sound input) : ReflTransGen (Moves input) chart after := by
  cases served with
  | lexicalCell asked => exact .single (.lexicalCell asked)
  | syntaxCell asked => exact .single (.syntaxCell asked)
  | literal here done => exact .single (.literal here done)
  | start done => exact resolveAtStart_moves wellFormed sound done
  | token here done => exact (token_evaluates wellFormed sound here done).moves
  | value done => exact .single (.value done)

theorem serves_moves (served : ReflTransGen (Serves input) chart after)
    (wellFormed : input.grammar.WellFormed) (sound : chart.Sound input) :
    ReflTransGen (Moves input) chart after := by
  induction served with
  | refl => exact .refl
  | tail before call ih =>
      exact ih.trans (call.moves wellFormed (serves_keeps before wellFormed sound).1)

end Chart

end Calls

/-! ### Keys of cells -/

/-- What the offset that a cell is kept under says about the cell. -/
structure LexicalCell.Keyed (cell : LexicalCell V) (input : Input V) (offset : Nat) : Prop where
  own : cell.position.offset = offset
  boundary : input.rest? offset = some cell.rest
  trimmed : cell.rest.head?.any input.grammar.isBlank = false
  skipped : Text.slice? input.source cell.origin.offset offset = some cell.blank
  blank : ∀ c ∈ cell.blank, input.grammar.isBlank c = true

theorem Chart.Arena.keyed {input : Input V} {chart : Chart V} (arena : chart.Arena input)
    {offset : Nat} {cell : LexicalCell V} (here : chart.lexicalAt? offset = some cell) :
    cell.Keyed input offset := by
  obtain ⟨scanned, rfl⟩ := arena.lexical here
  obtain ⟨rest, -, same⟩ := (input.land_eq_ok_iff _ _).1 scanned.landed
  have isRest : cell.rest = rest.dropWhile input.grammar.isBlank := congrArg Landing.rest same
  have isBlank : cell.blank = rest.takeWhile input.grammar.isBlank := congrArg Landing.blank same
  refine ⟨rfl, scanned.rest?, ?_, scanned.blank_slice, ?_⟩
  · rw [isRest]
    exact Text.head?_dropWhile rest
  · rw [isBlank]
    exact List.all_eq_true.1 List.all_takeWhile

/-! ### Layers -/

/-- A layer of the cells of a session: how it is asked, where its cells are kept, and the lexical
cells that they show. -/
structure Layer (input : Input V) where
  Cell : Type
  ask : Position → Chart V → Except PositionError (Cell × Chart V)
  at? : Chart V → Nat → Option Cell
  shown : Cell → LexicalCell V

namespace Layer

variable {input : Input V}

def lexical (input : Input V) : Layer input where
  Cell := LexicalCell V
  ask := Chart.lexicalCell input
  at? := Chart.lexicalAt?
  shown cell := cell

def syntactic (input : Input V) : Layer input where
  Cell := SyntaxCell V
  ask := Chart.syntaxCell input
  at? := Chart.syntacticAt?
  shown := SyntaxCell.lexical

/-- Whether a layer answers requests from all places of the text, and tells them apart by where
skipping blank text leads, from now on and forever. The first request for a cell determines where it
has been asked for. A later one that leads to the same place finds what is kept there, and changes
nothing. -/
def Identifies (layer : Layer input) (now : Chart V) : Prop :=
  ∀ origin, (input.rest? origin.offset).isSome → ∃ cell after,
    layer.ask origin now = .ok (cell, after) ∧
    layer.at? after (layer.shown cell).position.offset = some cell ∧
    (now.cellFrom? input origin.offset = none → (layer.shown cell).origin = origin) ∧
    (∀ known, now.cellFrom? input origin.offset = some known → layer.shown cell = known) ∧
    ∀ later, Relation.ReflTransGen (Chart.Moves input) after later →
      ∀ other, (input.rest? other.offset).isSome → ∃ found last,
        layer.ask other later = .ok (found, last) ∧
        (layer.shown found = layer.shown cell ↔
          input.settle? other.offset = input.settle? origin.offset) ∧
        (layer.shown found = layer.shown cell → last = later ∧
          layer.at? later (layer.shown cell).position.offset = some found)

structure Lawful (layer : Layer input) : Prop where
  asks : ∀ {origin : Position} (chart : Chart V), (input.rest? origin.offset).isSome →
    ∃ cell after, layer.ask origin chart = .ok (cell, after)
  finds : ∀ {chart after : Chart V} {origin cell}, chart.Arena input →
    layer.ask origin chart = .ok (cell, after) →
    after.Arena input ∧ chart.Retains after ∧
      after.cellFrom? input origin.offset = some (layer.shown cell) ∧
      layer.at? after (layer.shown cell).position.offset = some cell
  fresh : ∀ {chart after : Chart V} {origin cell}, chart.Arena input →
    layer.ask origin chart = .ok (cell, after) →
    chart.cellFrom? input origin.offset = none → (layer.shown cell).origin = origin
  keeps : ∀ {chart after : Chart V} {offset cell}, chart.Retains after →
    layer.at? chart offset = some cell →
    ∃ kept, layer.at? after offset = some kept ∧ layer.shown kept = layer.shown cell
  again : ∀ {chart : Chart V} {origin cell},
    chart.cellFrom? input origin.offset = some (layer.shown cell) →
    layer.at? chart (layer.shown cell).position.offset = some cell →
    layer.ask origin chart = .ok (cell, chart)

theorem Lawful.identifies {layer : Layer input} (lawful : layer.Lawful) {now : Chart V}
    (arena : now.Arena input) : layer.Identifies now := by
  intro origin valid
  obtain ⟨cell, after, asked⟩ := lawful.asks now valid
  obtain ⟨arenaAfter, retained, leads, here⟩ := lawful.finds arena asked
  refine ⟨cell, after, asked, here, lawful.fresh arena asked, ?_, ?_⟩
  · intro known isKnown
    obtain ⟨place, settled, isCell⟩ := Option.bind_eq_some_iff.1 isKnown
    rw [Chart.cellFrom?, settled, Option.bind_some, retained.lexical isCell] at leads
    exact (Option.some.inj leads).symm
  · intro later moves other validOther
    obtain ⟨arenaLater, kept⟩ := Chart.moves_retain moves arenaAfter
    obtain ⟨found, last, askedLater⟩ := lawful.asks later validOther
    have settled := (Chart.cellFrom?_scanned arenaAfter leads).2.1
    have found_ (same : input.settle? other.offset = input.settle? origin.offset) :
        layer.shown found = layer.shown cell ∧ last = later ∧
          layer.at? later (layer.shown cell).position.offset = some found := by
      obtain ⟨current, there, shows_⟩ := lawful.keeps kept here
      have leadsLater : later.cellFrom? input other.offset = some (layer.shown current) := by
        rw [Chart.cellFrom?, same, settled, shows_]
        exact kept.lexical (Chart.cellFrom?_scanned arenaAfter leads).2.2
      rw [← shows_] at there
      have isCurrent := askedLater.symm.trans (lawful.again leadsLater there)
      cases isCurrent
      exact ⟨shows_, rfl, shows_ ▸ there⟩
    have apart (same : layer.shown found = layer.shown cell) :
        input.settle? other.offset = input.settle? origin.offset := by
      obtain ⟨arenaLast, -, leadsLast, -⟩ := lawful.finds arenaLater askedLater
      rw [(Chart.cellFrom?_scanned arenaLast leadsLast).2.1, same, settled]
    exact ⟨found, last, askedLater, ⟨apart, fun same => (found_ same).1⟩,
      fun same => (found_ (apart same)).2⟩

theorem lexical_lawful (input : Input V) : (lexical input).Lawful where
  asks chart valid := Chart.lexicalCell_exists chart valid
  finds arena asked := by
    obtain ⟨arenaAfter, -, leads⟩ := Chart.lexicalCell_spec arena asked
    exact ⟨arenaAfter, .lexicalCell arena asked, leads,
      (Chart.cellFrom?_scanned arenaAfter leads).2.2⟩
  fresh _ asked missing := Chart.lexicalCell_origin asked missing
  keeps retained here := ⟨_, retained.lexical here, rfl⟩
  again leads _ := Chart.lexicalCell_of_cellFrom? leads

theorem syntactic_lawful (input : Input V) : (syntactic input).Lawful where
  asks chart valid := Chart.syntaxCell_exists chart valid
  finds arena asked := by
    obtain ⟨arenaAfter, -, -, leads⟩ := Chart.syntaxCell_spec arena asked
    exact ⟨arenaAfter, .syntaxCell arena asked, leads, Chart.syntaxCell_here arena asked⟩
  fresh arena asked missing := by
    obtain ⟨between, below⟩ := Chart.syntaxCell_below arena asked
    exact Chart.lexicalCell_origin below missing
  keeps retained here := retained.syntactic here
  again leads here := Chart.syntaxCell_of_cellFrom? leads here

end Layer

/-! ### Sessions -/

namespace Chart

variable {engine : RegexEngine} {declarations : List (Declaration V)} {input : Input V}
  {places : Position → Prop} {chart : Chart V}

/-- The charts of a session, and all that calls on it pass through, are reached by moves. At each
moment, both layers of cells agree and are kept under the offsets behind the blank text; both
identify requests by these offsets, whatever has happened before and happens meanwhile; and there
are never fewer cells than before. -/
theorem Reachable.requests_identified
    (built : Grammar.build engine declarations = .ok input.grammar)
    (reachable : chart.Reachable input places) :
    Relation.ReflTransGen (Moves input) {} chart ∧
    (∀ later, Relation.ReflTransGen (Serves input) chart later →
      Relation.ReflTransGen (Moves input) chart later) ∧
    ∀ now, Relation.ReflTransGen (Moves input) {} now →
      (∀ offset cell, now.lexicalAt? offset = some cell → cell.Keyed input offset) ∧
      (∀ offset cell, now.syntacticAt? offset = some cell →
        now.lexicalAt? offset = some cell.lexical) ∧
      (Layer.lexical input).Identifies now ∧
      (Layer.syntactic input).Identifies now ∧
      ∀ later, Relation.ReflTransGen (Moves input) now later →
        now.lexical.size ≤ later.lexical.size ∧ now.syntactic.size ≤ later.syntactic.size := by
  have wellFormed := Grammar.build_wellFormed built
  refine ⟨reachable.moves wellFormed, ?_, ?_⟩
  · intro later served
    exact serves_moves served wellFormed (reachable.sound wellFormed)
  · intro now moves
    obtain ⟨arena, -⟩ := moves_retain moves empty_sound.arena
    refine ⟨fun offset cell => arena.keyed, fun offset cell => arena.syntactic,
      (Layer.lexical_lawful input).identifies arena,
      (Layer.syntactic_lawful input).identifies arena, ?_⟩
    intro later further
    obtain ⟨-, retained⟩ := moves_retain further arena
    exact ⟨retained.lexicalSize, retained.syntacticSize⟩

/-- The sign of a sum is found from the blank before it, and again from its own place. -/
theorem sums_sign_identified :
    ∃ cell after, ({} : Chart Scalar).lexicalCell Sums.input ⟨1, 1, 2⟩ = .ok (cell, after) ∧
      cell.origin = ⟨1, 1, 2⟩ ∧ after.lexicalCell Sums.input ⟨2, 1, 3⟩ = .ok (cell, after) := by
  obtain ⟨-, -, moments⟩ := Reachable.requests_identified Sums.build_eq
    (.opened : ({} : Chart Scalar).Reachable Sums.input fun _ => True)
  obtain ⟨-, -, identifies, -, -⟩ := moments {} .refl
  obtain ⟨cell, after, asked, -, isFirst, -, again⟩ := identifies ⟨1, 1, 2⟩ (by decide)
  obtain ⟨found, last, askedAgain, same, kept⟩ := again after .refl ⟨2, 1, 3⟩ (by decide)
  have isCell := same.2 (by decide)
  obtain ⟨rfl, -⟩ := kept isCell
  cases isCell
  exact ⟨cell, last, asked, isFirst (by decide), askedAgain⟩

end Chart

end Packrat
