import Packrat.Proofs.Derivation.Counted
import Packrat.Proofs.Reference.Growth

/-!
Where parses end. What is parsed from counted positions on ends at counted positions
(`Parses.placed`), so trees that end at one offset end at one position.
-/

set_option autoImplicit false
set_option linter.unusedSectionVars false

namespace Packrat

variable {V : Type} [Kinded V]

/-- A place that is reached from a counted position by skipping the blank text. -/
def Input.Lands (input : Input V) (place : Position) : Prop :=
  ∃ origin landing, input.Counts origin ∧ input.land origin = .ok landing ∧
    landing.position = place

/-- Rules are parsed where no blank text follows, and all that is parsed starts at counted
positions. -/
def Goal.Placed (input : Input V) : Goal V → Prop
  | .resolve place _ => input.Lands place
  | .seeds place _ _ best => input.Lands place ∧ ∀ node, best = some node → input.Counts node.stop
  | .pass _ _ best => input.Counts best.stop
  | .extend _ _ best => input.Counts best.stop
  | .sequence _ cursor => input.Counts cursor
  | .element _ cursor => input.Counts cursor
  | .rounds _ _ _ _ cursor => input.Counts cursor

def Outcome.Placed (input : Input V) : Outcome V → Prop
  | .tree found => ∀ node, found = some node → input.Counts node.stop
  | .run found => ∀ parts stop, found = some (parts, stop) →
      input.Counts stop ∧ ∀ part ∈ parts, input.Counts part.item.stop

theorem Tree.over?_stop {symbol : Symbol} {index : Nat} {parts : List (Branch V)} {node : Tree V}
    (made : Tree.over? symbol index parts = some node) :
    ∃ last ∈ parts, node.stop = last.item.stop := by
  unfold Tree.over? at made
  split at made
  · next last _ isLast =>
      cases made
      exact ⟨_, List.mem_of_getLast? isLast, rfl⟩
  · cases made

namespace Input

variable {input : Input V} {place : Position}

theorem Lands.counts (lands : input.Lands place) : input.Counts place := by
  obtain ⟨origin, landing, counts, landed, rfl⟩ := lands
  exact counts.land landed

/-! ### Trees -/

theorem counts_ofRun? {symbol : Symbol} {index : Nat} {leading : List (Branch V)}
    {run : Option (List (Branch V) × Position)} {node : Tree V}
    (before : ∀ part ∈ leading, input.Counts part.item.stop)
    (placed : (Outcome.run run).Placed input)
    (isNode : Tree.ofRun? symbol index leading run = some node) : input.Counts node.stop := by
  obtain ⟨⟨parts, stop⟩, rfl, made⟩ := Option.bind_eq_some_iff.1 isNode
  obtain ⟨last, member, ends⟩ := Tree.over?_stop made
  rw [ends]
  rcases List.mem_append.1 member with inLeading | inParts
  · exact before last inLeading
  · exact (placed parts stop rfl).2 last inParts

theorem counts_longer {best : Tree V} {next : Option (Tree V)} (counts : input.Counts best.stop)
    (counts' : ∀ node, next = some node → input.Counts node.stop) :
    input.Counts (best.longer next).stop := by
  rcases Tree.longer_eq best next with ⟨kept, -⟩ | ⟨node, isNode, replaced, -⟩
  · rwa [kept]
  · rw [replaced]
    exact counts' node isNode

theorem counts_better {best next : Option (Tree V)}
    (counts : ∀ node, best = some node → input.Counts node.stop)
    (counts' : ∀ node, next = some node → input.Counts node.stop) :
    ∀ node, Tree.better best next = some node → input.Counts node.stop := by
  intro node isNode
  rcases Tree.better_eq best next with ⟨kept, -⟩ | ⟨replacing, isNext, replaced, -⟩
  · exact counts node (kept.symm.trans isNode)
  · cases replaced.symm.trans isNode
    exact counts' _ isNext

theorem placed_seeds {symbol : Symbol} {entries rest : List (Alternative V × Nat)} {index : Nat}
    {best : Option (Tree V)} {run : Option (List (Branch V) × Position)}
    (placed : (Goal.seeds place symbol entries best).Placed input)
    (placedRun : (Outcome.run run).Placed input) :
    (Goal.seeds place symbol rest
      (Tree.better best (Tree.ofRun? symbol index [] run))).Placed input := by
  refine ⟨placed.1, counts_better placed.2 fun node isNode => ?_⟩
  exact counts_ofRun? (fun _ member => absurd member List.not_mem_nil) placedRun isNode

theorem placed_pass {symbol : Symbol} {rest : List (Alternative V × Nat)} {index : Nat}
    {label : Option String} {best : Tree V} {run : Option (List (Branch V) × Position)}
    (counts : input.Counts best.stop) (placedRun : (Outcome.run run).Placed input) :
    (Goal.pass symbol rest
      (best.longer (Tree.ofRun? symbol index [⟨label, best⟩] run))).Placed input := by
  refine counts_longer counts fun node isNode => ?_
  exact counts_ofRun? (List.forall_mem_singleton.2 counts) placedRun isNode

/-! ### Leaves -/

theorem counts_leaf {cell : LexicalCell V} {leaf : Leaf V} (counts : input.Counts place)
    (here : input.scanAt? place = some cell) (fits : leaf.FitsAt cell.toLanding) :
    input.Counts leaf.stop := by
  obtain ⟨rest, follows, rfl⟩ := Option.map_eq_some_iff.1 here
  obtain ⟨after, split⟩ := fits.text
  change leaf.text ++ after = rest at split
  rw [← split] at follows
  rw [fits.stop]
  exact counts.through follows

theorem counts_leafAt? {symbol : Symbol} {node : Tree V} (counts : input.Counts place)
    (found : input.leafAt? place symbol = some node) : input.Counts node.stop := by
  obtain ⟨cell, here, mapped⟩ := Option.bind_eq_some_iff.1 found
  obtain ⟨leaf, isLeaf, rfl⟩ := Option.map_eq_some_iff.1 mapped
  refine counts_leaf counts here ?_
  obtain ⟨rest, -, rfl⟩ := Option.map_eq_some_iff.1 here
  exact LexicalCell.scan_fits input.grammar _ leaf (List.mem_of_find?_eq_some isLeaf)

theorem counts_literalAt? {text : String} {node : Tree V} (counts : input.Counts place)
    (found : input.literalAt? place text = some node) : input.Counts node.stop := by
  obtain ⟨cell, here, mapped⟩ := Option.bind_eq_some_iff.1 found
  obtain ⟨leaf, isLeaf, rfl⟩ := Option.map_eq_some_iff.1 mapped
  exact counts_leaf counts here (LexicalCell.literal?_fits isLeaf).1

end Input

/-! ### Runs -/

namespace Outcome

variable {input : Input V}

theorem placed_behind {parts : List (Branch V)} {found : Option (List (Branch V) × Position)}
    (before : ∀ part ∈ parts, input.Counts part.item.stop)
    (placed : (Outcome.run found).Placed input) :
    (Outcome.run (Run.behind parts found)).Placed input := by
  intro all stop isRun
  obtain ⟨⟨more, stop'⟩, isFound, made⟩ := Option.map_eq_some_iff.1 isRun
  cases made
  obtain ⟨counts, countsMore⟩ := placed more stop isFound
  exact ⟨counts, List.forall_mem_append.2 ⟨before, countsMore⟩⟩

theorem placed_settled {min count : Nat} {cursor : Position} (counts : input.Counts cursor) :
    (Outcome.run (Run.settled min count cursor) : Outcome V).Placed input := by
  intro parts stop isRun
  unfold Run.settled at isRun
  split at isRun
  · cases isRun
    exact ⟨counts, nofun⟩
  · cases isRun

end Outcome

theorem Parses.placed {input : Input V} {goal : Goal V} {outcome : Outcome V}
    (parses : Parses input goal outcome) (placed : goal.Placed input) : outcome.Placed input := by
  induction parses with
  | lexical _ => exact fun node found => Input.counts_leafAt? placed.counts found
  | barren _ _ _ => nofun
  | grown _ _ _ ihSeeds ihExtend =>
      have countsFirst := ihSeeds ⟨placed, nofun⟩ _ rfl
      exact ihExtend countsFirst
  | seedsDone => exact placed.2
  | seedsSkipped _ _ ihSeeds => exact ihSeeds placed
  | seedsTried _ _ _ ihSequence ihSeeds =>
      exact ihSeeds (Input.placed_seeds placed (ihSequence placed.1.counts))
  | passDone =>
      rintro node ⟨⟩
      exact placed
  | passSkipped _ _ ihPass => exact ihPass placed
  | passTried _ _ _ _ ihSequence ihPass =>
      exact ihPass (Input.placed_pass placed (ihSequence placed))
  | extendDone _ _ ihPass => exact ihPass placed
  | extendMore _ _ _ ihPass ihExtend =>
      have countsNode := ihPass placed _ rfl
      exact ihExtend countsNode
  | sequenceDone =>
      rintro parts stop ⟨⟩
      exact ⟨placed, nofun⟩
  | sequenceStuck _ _ => nofun
  | sequenceStep _ _ ihElement ihSequence =>
      obtain ⟨countsNext, countsParts⟩ := ihElement placed _ _ rfl
      exact Outcome.placed_behind countsParts (ihSequence countsNext)
  | literal lands =>
      intro parts stop isRun
      obtain ⟨node, found, made⟩ := Option.map_eq_some_iff.1 isRun
      cases made
      have countsNode := Input.counts_literalAt? (placed.land lands) found
      exact ⟨countsNode, List.forall_mem_singleton.2 countsNode⟩
  | reference _ lands _ ihResolve =>
      intro parts stop isRun
      obtain ⟨node, found, made⟩ := Option.map_eq_some_iff.1 isRun
      cases made
      have countsNode := ihResolve ⟨_, _, placed, lands, rfl⟩ node found
      exact ⟨countsNode, List.forall_mem_singleton.2 countsNode⟩
  | repeated _ ihRounds => exact ihRounds placed
  | roundsFull _ => exact Outcome.placed_settled placed
  | roundsStopped _ _ _ => exact Outcome.placed_settled placed
  | roundsIdle _ _ _ ihSequence =>
      rintro parts stop ⟨⟩
      exact ⟨placed, (ihSequence placed _ _ rfl).2⟩
  | roundsOnward _ _ _ _ ihSequence ihRounds =>
      obtain ⟨countsNext, countsParts⟩ := ihSequence placed _ _ rfl
      exact Outcome.placed_behind countsParts (ihRounds countsNext)

end Packrat
