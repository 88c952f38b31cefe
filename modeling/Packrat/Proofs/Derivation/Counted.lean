import Packrat.Proofs.Derivation.Basic

/-!
Positions whose line and column are those of the text. Of these there is one at each offset. Where
every request comes from such a position, all cells have such positions, and what is derived starts
and ends at them (`Derives.counted`).
-/

set_option autoImplicit false
set_option linter.unusedSectionVars false

namespace Packrat

variable {V : Type} [Kinded V]

/-- A position of the text, with the line and the column that are counted from its start. -/
def Input.Counts (input : Input V) (position : Position) : Prop :=
  Position.at? input.source position.offset = .ok position

namespace Input

variable {input : Input V}

theorem counts_iff {position : Position} :
    input.Counts position ↔
      ∃ passed rest, input.source = passed ++ rest ∧ position = Position.start.through passed := by
  unfold Counts Position.at?
  rw [Position.advance_eq_ok_iff]
  constructor
  · rintro ⟨before, passed, rest, split, size, -, same⟩
    rw [(Text.byteLength_eq_zero_iff before).1 size, List.nil_append] at split
    exact ⟨passed, rest, split, same⟩
  · rintro ⟨passed, rest, split, rfl⟩
    refine ⟨[], passed, rest, split, rfl, ?_, rfl⟩
    rw [Position.through_offset]

theorem Counts.unique {first second : Position} (counts : input.Counts first)
    (counts' : input.Counts second) (same : first.offset = second.offset) : first = second := by
  unfold Counts at counts counts'
  rw [same] at counts
  exact Except.ok.inj (counts.symm.trans counts')

theorem counts_start (input : Input V) : input.Counts .start :=
  counts_iff.2 ⟨[], input.source, rfl, rfl⟩

theorem Counts.rest? {position : Position} (counts : input.Counts position) :
    (input.rest? position.offset).isSome := by
  obtain ⟨passed, rest, split, rfl⟩ := counts_iff.1 counts
  have begins : input.rest? 0 = some (passed ++ rest) := by
    rw [input.rest?_zero, split]
  rw [Position.through_offset, Position.start, Input.rest?_append begins]
  rfl

theorem Counts.through {position : Position} {piece after : List Char}
    (counts : input.Counts position)
    (follows : input.rest? position.offset = some (piece ++ after)) :
    input.Counts (position.through piece) := by
  obtain ⟨passed, rest, split, rfl⟩ := counts_iff.1 counts
  have begins : input.rest? 0 = some (passed ++ rest) := by
    rw [input.rest?_zero, split]
  rw [Position.through_offset, Position.start, Input.rest?_append begins] at follows
  cases follows
  refine counts_iff.2 ⟨passed ++ piece, after, ?_, (Position.through_append _ _ _).symm⟩
  rw [split, List.append_assoc]

theorem Counts.land {origin : Position} {landing : Landing} (counts : input.Counts origin)
    (landed : input.land origin = .ok landing) : input.Counts landing.position := by
  obtain ⟨rest, found, rfl⟩ := (input.land_eq_ok_iff _ _).1 landed
  rw [← List.takeWhile_append_dropWhile (p := input.grammar.isBlank) (l := rest)] at found
  exact counts.through found

end Input

namespace Chart

def Counted (chart : Chart V) (input : Input V) : Prop :=
  ∀ ⦃offset cell⦄, chart.lexicalAt? offset = some cell → input.Counts cell.position

variable {input : Input V} {origin : Position} {chart after : Chart V}

theorem Counted.lexicalCell {cell : LexicalCell V} (counted : chart.Counted input)
    (counts : input.Counts origin) (asked : chart.lexicalCell input origin = .ok (cell, after)) :
    after.Counted input := by
  intro offset found here
  rcases lexicalCell_adds asked here with old | new
  · exact counted old
  · exact counts.land new

theorem Counted.literal {cell : LexicalCell V} {text : String} {found : Option (Lexeme V)}
    (counted : chart.Counted input) (done : chart.literal cell text = (found, after)) :
    after.Counted input := by
  obtain ⟨literals, leaves, rfl⟩ := literal_frame done
  intro offset held here
  exact counted here

theorem Counted.literalAt {text : String} {found : Option (Lexeme V)}
    (counted : chart.Counted input) (counts : input.Counts origin)
    (asked : chart.literalAt input origin text = .ok (found, after)) : after.Counted input := by
  obtain ⟨cell, opened, below, done⟩ := literalAt_cases asked
  exact (counted.lexicalCell counts below).literal done

theorem Counted.syntaxCell {cell : SyntaxCell V} (counted : chart.Counted input)
    (counts : input.Counts origin) (asked : chart.syntaxCell input origin = .ok (cell, after)) :
    after.Counted input := by
  intro offset found here
  rcases syntaxCell_adds asked here with old | new
  · exact counted old
  · exact counts.land new

theorem Counted.position_eq {landing : Landing} {cell : LexicalCell V}
    (counted : chart.Counted input) (arena : chart.Arena input) (counts : input.Counts origin)
    (landed : input.land origin = .ok landing)
    (leads : chart.cellFrom? input origin.offset = some cell) :
    cell.position = landing.position := by
  obtain ⟨-, settled, here⟩ := cellFrom?_scanned arena leads
  refine (counted here).unique (counts.land landed) ?_
  exact Option.some.inj (settled.symm.trans (Input.land_settle? landed))

end Chart

theorem LexicalCell.Scanned.counts_stop {input : Input V} {cell : LexicalCell V} {leaf : Leaf V}
    (scanned : cell.Scanned input) (counts : input.Counts cell.position)
    (fits : leaf.FitsAt cell.toLanding) : input.Counts leaf.stop := by
  obtain ⟨after, split⟩ := fits.text
  have follows := scanned.rest?
  rw [← split] at follows
  rw [fits.stop]
  exact counts.through follows

def Fact.Counted (input : Input V) (chart : Chart V) : Fact V → Prop
  | .matched cell _ token =>
    chart.lexicalAt? cell.position.offset = some cell → input.Counts token.stop
  | .run _ cursor parts stop =>
    input.Counts cursor →
      input.Counts stop ∧ ∀ part ∈ parts, input.Counts part.item.stop
  | .rounds _ _ _ _ cursor parts stop =>
    input.Counts cursor →
      input.Counts stop ∧ ∀ part ∈ parts, input.Counts part.item.stop

theorem Derives.counted {input : Input V} {chart : Chart V} {fact : Fact V}
    (derived : Derives input chart fact) (arena : chart.Arena input)
    (counted : chart.Counted input) : fact.Counted input chart := by
  induction derived with
  | leaf _ found =>
      intro here
      have scanned := (arena.lexical here).1
      exact scanned.counts_stop (counted here) (scanned.leaf_fits found)
  | seed _ _ _ _ _ isLast ihRun =>
      intro here
      exact (ihRun (counted here)).2 _ (List.mem_of_getLast? isLast)
  | @extension cell symbol index alternative head tail base parts last stop id _ _ _ _ _ _ isLast
      _ ihBase ihRun =>
      intro here
      have countsBase := ihBase here
      rcases List.mem_cons.1 (List.mem_of_getLast? isLast) with rfl | member
      · exact countsBase
      · exact (ihRun countsBase).2 _ member
  | done =>
      intro counts
      exact ⟨counts, nofun⟩
  | literal leads found _ ihRest =>
      intro _
      obtain ⟨scanned, -, here⟩ := Chart.cellFrom?_scanned arena leads
      have countsLeaf :=
        scanned.counts_stop (counted here) (LexicalCell.literal?_fits found).1
      obtain ⟨countsStop, countsMore⟩ := ihRest countsLeaf
      exact ⟨countsStop, List.forall_mem_cons.2 ⟨countsLeaf, countsMore⟩⟩
  | reference _ leads _ _ ihToken ihRest =>
      intro _
      obtain ⟨-, -, here⟩ := Chart.cellFrom?_scanned arena leads
      obtain ⟨countsStop, countsMore⟩ := ihRest (ihToken here)
      exact ⟨countsStop, List.forall_mem_cons.2 ⟨ihToken here, countsMore⟩⟩
  | repeated _ _ ihRounds ihRest =>
      intro counts
      obtain ⟨countsNext, countsParts⟩ := ihRounds counts
      obtain ⟨countsStop, countsMore⟩ := ihRest countsNext
      exact ⟨countsStop, List.forall_mem_append.2 ⟨countsParts, countsMore⟩⟩
  | enough _ =>
      intro counts
      exact ⟨counts, nofun⟩
  | idle _ _ _ ihRun =>
      intro counts
      exact ⟨counts, (ihRun counts).2⟩
  | onward _ _ _ _ ihRun ihRounds =>
      intro counts
      obtain ⟨countsNext, countsParts⟩ := ihRun counts
      obtain ⟨countsStop, countsMore⟩ := ihRounds countsNext
      exact ⟨countsStop, List.forall_mem_append.2 ⟨countsParts, countsMore⟩⟩

end Packrat
