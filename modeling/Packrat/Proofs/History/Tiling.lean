import Packrat.Proofs.Chart.Lookup
import Packrat.Proofs.Derivation.Tiling
import Packrat.Proofs.History.Basic
import Packrat.Proofs.Scan.Cuts

/-!
All slices that are taken during a session exist. Every token that is found tiles the text, and so
does every node that is made on the way, whether it is kept or not (`Records.made_tiles`). In every
cell, the blank text, the remaining text and the texts that terminals match can be cut out of the
text. `Chart.Reachable.tokens_tile` puts this together.
-/

set_option autoImplicit false
set_option linter.unusedSectionVars false

namespace Packrat

variable {V : Type} [Kinded V]

/-! ### Nodes that are made -/

def MadeTile (input : Input V) (history : List (Change V)) : Prop :=
  ∀ node, .made node ∈ history → node.Tiles input

namespace MadeTile

variable {input : Input V} {history more : List (Change V)}

theorem nil : MadeTile input ([] : List (Change V)) :=
  nofun

theorem append (early : MadeTile input history) (late : MadeTile input more) :
    MadeTile input (history ++ more) := by
  intro node member
  rcases List.mem_append.1 member with before | behind
  · exact early node before
  · exact late node behind

theorem wrote {owner offset : Nat} {symbol : Symbol} {entry : Option (Token V)}
    (tiles : MadeTile input history) :
    MadeTile input (.wrote owner offset symbol entry :: history) := by
  intro node member
  rcases List.mem_cons.1 member with impossible | behind
  · cases impossible
  · exact tiles node behind

theorem made {node : Token V} (tiles : MadeTile input history) (isNode : node.Tiles input) :
    MadeTile input (.made node :: history) := by
  intro other member
  rcases List.mem_cons.1 member with same | behind
  · cases same
    exact isNode
  · exact tiles other behind

end MadeTile

section Made

variable {input : Input V} {chart between made : Chart V} {cell : LexicalCell V} {symbol : Symbol}
  {alternative : Alternative V} {index : Nat} {rest : List (Alternative V × Nat)}
  {parts : List (Child V)} {stop : Position} {node : Token V}

theorem Tiled.makeNode (tiled : Tiled input parts)
    (nodeMade : Chart.makeNode symbol index parts chart = (some node, made)) :
    node.Tiles input := by
  obtain ⟨first, last, isFirst, isLast, rfl, -⟩ := Chart.makeNode_eq_some nodeMade
  exact tiled.node isFirst isLast

theorem Task.Grounded.seed_tiles {best : Option (Token V)} (wellFormed : input.grammar.WellFormed)
    (grounded :
      (Task.seeds cell symbol ((alternative, index) :: rest) best).Grounded input chart)
    (sequence : Evaluates input (.sequence alternative.elements cell.position) chart
      (.run (some (parts, stop))) between)
    (nodeMade : Chart.makeNode symbol index parts between = (some node, made)) :
    node.Tiles input := by
  obtain ⟨sound, -, derived⟩ := sequence.sound wellFormed grounded.sound grounded.seed.begins
  have tiled : Tiled input parts := (derived parts stop rfl).tiles sound.arena grounded.seed.begins
  exact tiled.makeNode nodeMade

theorem Task.Grounded.pass_tiles {best : Token V} {head : Element} {tail : List Element}
    (wellFormed : input.grammar.WellFormed)
    (grounded :
      (Task.pass cell symbol ((alternative, index) :: rest) best).Grounded input chart)
    (sequence : Evaluates input (.sequence tail best.stop) chart (.run (some (parts, stop)))
      between)
    (nodeMade : Chart.makeNode symbol index (⟨head.label?, best⟩ :: parts) between =
      (some node, made)) :
    node.Tiles input := by
  have behind : (Task.sequence tail best.stop).Grounded input chart := grounded.behind
  obtain ⟨sound, -, derived⟩ := sequence.sound wellFormed behind.sound behind.begins
  rcases grounded.begins with ⟨held, -, isBest⟩
  have tilesBest : best.Tiles input :=
    isBest.tiles grounded.sound.arena (held.lexicalAt? grounded.sound.arena)
  have isRun := derived parts stop rfl
  have spans : Spans input between best.stop parts stop :=
    isRun.sits sound.arena behind.begins
  have tiled : Tiled input parts := isRun.tiles sound.arena behind.begins
  exact (Tiled.cons sound.arena tilesBest spans tiled).makeNode nodeMade

end Made

theorem Records.made_tiles {input : Input V} {owner : Nat} {task : Task V} {chart after : Chart V}
    {history : List (Change V)} {answer : Answer V}
    (records : Records input owner task chart history answer after)
    (wellFormed : input.grammar.WellFormed) : MadeTile input history := by
  induction records with
  | known _ => exact .nil
  | lexical _ _ => exact .nil
  | barren _ _ _ _ ihSeeds => exact ihSeeds.wrote
  | grown _ _ _ _ _ ihSeeds ihExtend => exact ihSeeds.wrote.append ihExtend.wrote
  | seedsDone => exact .nil
  | seedsSkipped _ _ ihSeeds => exact ihSeeds
  | seedsFailed _ _ _ ihSequence ihSeeds => exact ihSequence.append ihSeeds
  | seedsEmpty _ _ _ ihSequence ihSeeds => exact ihSequence.append ihSeeds
  | seedsMatched grounded _ sequence nodeMade _ ihSequence ihSeeds =>
      exact ihSequence.append
        (ihSeeds.made (grounded.seed_tiles wellFormed sequence.evaluates nodeMade))
  | passDone => exact .nil
  | passSkipped _ _ ihPass => exact ihPass
  | passFailed _ _ _ _ ihSequence ihPass => exact ihSequence.append ihPass
  | passShorter grounded _ _ sequence nodeMade _ _ ihSequence ihPass =>
      exact ihSequence.append
        (ihPass.made (grounded.pass_tiles wellFormed sequence.evaluates nodeMade))
  | passLonger grounded _ _ sequence nodeMade _ _ ihSequence ihPass =>
      exact ihSequence.append
        (ihPass.wrote.made (grounded.pass_tiles wellFormed sequence.evaluates nodeMade))
  | extendDone _ _ ihPass => exact ihPass
  | extendMore _ _ _ ihPass ihExtend => exact ihPass.append ihExtend
  | sequenceDone => exact .nil
  | sequenceStuck _ ihElement => exact ihElement
  | sequenceStep _ _ ihElement ihSequence => exact ihElement.append ihSequence
  | literal _ => exact .nil
  | reference _ _ _ ihResolve => exact ihResolve
  | repeated _ ihRounds => exact ihRounds
  | roundsFull _ => exact .nil
  | roundsStopped _ _ ihSequence => exact ihSequence
  | roundsIdle _ _ _ ihSequence => exact ihSequence
  | roundsOnward _ _ _ _ ihSequence ihRounds => exact ihSequence.append ihRounds

/-! ### Slices of cells -/

namespace LexicalCell

variable {input : Input V} {cell : LexicalCell V}

theorem Scanned.blank_slice (scanned : cell.Scanned input) :
    Text.slice? input.source cell.origin.offset cell.position.offset = some cell.blank := by
  obtain ⟨rest, found, same⟩ := (input.land_eq_ok_iff _ _).1 scanned.landed
  have isBlank : cell.blank = rest.takeWhile input.grammar.isBlank :=
    congrArg Landing.blank same
  have isPosition : cell.position = cell.origin.through (rest.takeWhile input.grammar.isBlank) :=
    congrArg Landing.position same
  rw [Input.rest?_eq, Text.dropBytes?_eq_some_iff] at found
  obtain ⟨before, split, size⟩ := found
  refine (Text.slice?_eq_some_iff _ _ _ _).2
    ⟨before, rest.dropWhile input.grammar.isBlank, ?_, size, ?_⟩
  · rw [split, isBlank, List.append_assoc, List.takeWhile_append_dropWhile]
  · rw [isPosition, isBlank, Position.through_offset]

theorem Scanned.advance (scanned : cell.Scanned input) {length : Nat}
    (cut : Text.HasCut cell.rest length) :
    ∃ piece, Text.takeBytes? cell.rest length = some piece ∧
      cell.position.advance input.source (cell.position.offset + length) =
        .ok (cell.position.through piece) := by
  obtain ⟨piece, after, split, size⟩ := cut
  have found := scanned.rest?
  rw [split, Input.rest?_eq, Text.dropBytes?_eq_some_iff] at found
  obtain ⟨before, whole, start⟩ := found
  refine ⟨piece, (Text.takeBytes?_eq_some_iff _ _ _).2 ⟨after, split, size⟩,
    (Position.advance_eq_ok_iff _ _ _ _).2 ⟨before, piece, after, ?_, start, ?_, rfl⟩⟩
  · rw [whole, List.append_assoc]
  · rw [size]

end LexicalCell

/-! ### Sessions -/

namespace Chart

variable {engine : RegexEngine} {declarations : List (Declaration V)} {input : Input V}
  {places : Position → Prop} {chart : Chart V}

theorem tokenAt_sound {origin : Position} {symbol : Symbol} {found : Option (Token V)}
    {after : Chart V} (wellFormed : input.grammar.WellFormed) (sound : chart.Sound input)
    (done : chart.tokenAt input origin symbol = .ok (found, after)) :
    after.Sound input ∧ ∀ token, found = some token →
      ∃ cell, after.cellFrom? input origin.offset = some cell ∧
        Derives input after (.matched cell symbol token) := by
  unfold tokenAt at done
  cases asked : chart.syntaxCell input origin with
  | error refusal => simp [asked] at done
  | ok result =>
      rcases result with ⟨cell, opened⟩
      simp only [asked, Except.ok.injEq] at done
      obtain ⟨-, -, -, leads⟩ := syntaxCell_spec sound.arena asked
      have grounded : (Task.resolve cell.lexical symbol).Grounded input opened :=
        .reference sound asked
      obtain ⟨soundAfter, further, derived⟩ :=
        (resolve_evaluates wellFormed grounded.sound grounded.begins done).sound wellFormed
          grounded.sound grounded.begins
      exact ⟨soundAfter, fun token isToken =>
        ⟨cell.lexical, cellFrom?_mono further leads, derived token isToken⟩⟩

theorem Sound.token_tiles {cell : LexicalCell V} {symbol : Symbol} {token : Token V} {offset : Nat}
    (sound : chart.Sound input) (leads : chart.cellFrom? input offset = some cell)
    (derived : Derives input chart (.matched cell symbol token)) :
    token.start = cell.position ∧ input.settle? offset = some token.start.offset ∧
      token.Tiles input := by
  obtain ⟨-, settled, here⟩ := cellFrom?_scanned sound.arena leads
  have starts : token.start = cell.position := (derived.sits sound.arena here).1
  exact ⟨starts, by rw [starts]; exact settled, derived.tiles sound.arena here⟩

/-- Every token that is found, in a cell, at a place or as the root of a parse, starts behind the
blank text and tiles the text, and so does every node that is made meanwhile. Such tokens cover the
slices that are their texts, and every cell is made of slices that exist. -/
theorem Reachable.tokens_tile (built : Grammar.build engine declarations = .ok input.grammar)
    (reachable : chart.Reachable input places) :
    (∀ offset cell symbol token after, chart.syntacticAt? offset = some cell →
      chart.token input cell symbol = (some token, after) →
        token.start = cell.lexical.position ∧ input.settle? offset = some token.start.offset ∧
          token.Tiles input) ∧
    (∀ origin symbol token after, chart.tokenAt input origin symbol = .ok (some token, after) →
      input.settle? origin.offset = some token.start.offset ∧ token.Tiles input) ∧
    (∀ root, (input.grammar.parse input.source).root = some root →
      input.settle? 0 = some root.start.offset ∧ root.Tiles input ∧
        (input.rest? root.stop.offset).isSome) ∧
    (∀ offset cell, chart.lexicalAt? offset = some cell → ∀ leaf : Leaf V,
      (∃ symbol, cell.leaf? symbol = some leaf) ∨ (∃ text, cell.literal? text = some leaf) →
        leaf.start = cell.position ∧ ∀ number, (Token.leaf ⟨leaf, number⟩).Tiles input) ∧
    (∀ token : Token V, token.Tiles input →
      token.start.offset ≤ token.stop.offset ∧ token.stop.offset ≤ input.length ∧
        (input.rest? token.start.offset).isSome ∧ (input.rest? token.stop.offset).isSome ∧
        Text.slice? input.source token.start.offset token.stop.offset =
          some (token.text input.source)) ∧
    (∀ offset cell symbol found after, chart.syntacticAt? offset = some cell →
      chart.token input cell symbol = (found, after) → ∀ owner,
        (∃ history, Records input owner (.resolve cell.lexical symbol) chart history
          (.token found) after) ∧
        ∀ history, Records input owner (.resolve cell.lexical symbol) chart history
            (.token found) after →
          ∀ node, .made node ∈ history → node.Tiles input) ∧
    (∀ offset cell, chart.lexicalAt? offset = some cell →
      Text.slice? input.source cell.origin.offset cell.position.offset = some cell.blank ∧
      input.rest? cell.position.offset = some cell.rest ∧
      ∀ terminal ∈ input.grammar.terminals, ∀ candidate ∈ terminal.candidates, ∀ length,
        candidate.scanner.scan cell.rest = some length →
          ∃ text, Text.takeBytes? cell.rest length = some text ∧
            cell.position.advance input.source (cell.position.offset + length) =
              .ok (cell.position.through text)) := by
  have wellFormed := Grammar.build_wellFormed built
  have sound := reachable.sound wellFormed
  refine ⟨?_, ?_, ?_, ?_, ?_, ?_, ?_⟩
  · intro offset cell symbol token after here done
    obtain ⟨soundAfter, grown, derived⟩ := token_sound wellFormed sound here done
    have leads := cellFrom?_mono grown ((sound.arena.holds here).cellFrom? sound.arena)
    rw [sound.arena.syntactic_position here] at leads
    exact soundAfter.token_tiles leads (derived token rfl)
  · intro origin symbol token after done
    obtain ⟨soundAfter, derived⟩ := tokenAt_sound wellFormed sound done
    obtain ⟨cell, leads, isDerived⟩ := derived token rfl
    exact (soundAfter.token_tiles leads isDerived).2
  · intro root isRoot
    obtain ⟨soundParse, -, derived⟩ := parse_sound wellFormed
    obtain ⟨cell, leads, isDerived⟩ := derived root isRoot
    obtain ⟨-, settled, tiles⟩ := soundParse.token_tiles leads isDerived
    exact ⟨settled, tiles, tiles.within.2.2.2⟩
  · intro offset cell here leaf isLeaf
    have scanned := (sound.arena.lexical here).1
    have fits : leaf.FitsAt cell.toLanding := by
      rcases isLeaf with ⟨symbol, found⟩ | ⟨text, found⟩
      · exact scanned.leaf_fits found
      · exact (LexicalCell.literal?_fits found).1
    exact ⟨fits.start, fun number => scanned.leaf_tiles fits number⟩
  · intro token tiles
    obtain ⟨forward, inside, validStart, validStop⟩ := tiles.within
    exact ⟨forward, inside, validStart, validStop, tiles.slice⟩
  · intro offset cell symbol found after here done owner
    refine ⟨(token_evaluates wellFormed sound here done).exists_records wellFormed
      ⟨sound, sound.arena.holds here⟩ owner, ?_⟩
    intro history records
    exact records.made_tiles wellFormed
  · intro offset cell here
    have scanned := (sound.arena.lexical here).1
    refine ⟨scanned.blank_slice, scanned.rest?, ?_⟩
    intro terminal _ candidate _ length found
    exact scanned.advance (Scanner.scan_cuts _ _ _ found)

/-- The sum of two digits tiles its text. -/
theorem sums_root_tiles :
    ∃ root, (Sums.input.grammar.parse Sums.input.source).root = some root ∧
      root.text Sums.input.source = ['1', ' ', '+', '1'] ∧ root.Tiles Sums.input := by
  have covers : (Sums.input.grammar.parse Sums.input.source).root.map
      (·.text Sums.input.source) = some ['1', ' ', '+', '1'] := by
    decide +kernel
  obtain ⟨root, isRoot, text⟩ := Option.map_eq_some_iff.1 covers
  exact ⟨root, isRoot, text,
    ((Reachable.tokens_tile Sums.build_eq
      (.opened : ({} : Chart Scalar).Reachable Sums.input fun _ => True)).2.2.1 root isRoot).2.1⟩

end Chart

end Packrat
