import Packrat.Proofs.Reference.Region

/-!
The memo does not show. Where the grammar and the text are guarded, no task reads the entry of a
rule that is still being resolved, so every answer is the outcome that the reference has for the
goal of the task (`Evaluates.refines`).
-/

set_option autoImplicit false
set_option linter.unusedSectionVars false

namespace Packrat

variable {V : Type} [Kinded V]

/-! ### Tasks and their regions -/

/-- A task that only asks for some rules first. The loops over extensions know that the best node so
far is kept for its rule. -/
def Task.Fits (input : Input V) (first : Symbol → Prop) (chart : Chart V) : Task V → Prop
  | .resolve _ symbol => input.grammar.isRule symbol = true → first symbol
  | .seeds _ _ alternatives _ =>
    ∀ entry ∈ alternatives, entry.1.recursive = false →
      input.grammar.Admits first (Element.headsAll entry.1.elements)
  | .pass cell symbol _ best => chart.known? cell.position.offset symbol = some (some best)
  | .extend cell symbol _ best => chart.known? cell.position.offset symbol = some (some best)
  | .sequence elements cursor =>
    input.Counts cursor ∧ Element.allSolid elements = true ∧
      input.grammar.Admits first (Element.headsAll elements)
  | .element single cursor =>
    input.Counts cursor ∧ single.solid = true ∧ input.grammar.Admits first single.heads
  | .rounds elements _ _ _ cursor =>
    input.Counts cursor ∧ Element.allSolid elements = true ∧
      input.grammar.Admits first (Element.headsAll elements)

def Task.region (input : Input V) (first : Symbol → Prop) : Task V → Region
  | .resolve cell _ => input.Ahead first cell.position.offset
  | .seeds cell _ _ _ => input.Ahead first cell.position.offset
  | .pass cell _ _ _ => input.Ahead (fun _ => False) cell.position.offset
  | .extend cell _ _ _ => input.Ahead (fun _ => False) cell.position.offset
  | .sequence _ cursor => input.Ahead first cursor.offset
  | .element _ cursor => input.Ahead first cursor.offset
  | .rounds _ _ _ _ cursor => input.Ahead first cursor.offset

/-- The entries that a task may change: those it may read, and for the loops over extensions the one
of the rule itself. -/
def Task.touched (input : Input V) (first : Symbol → Prop) : Task V → Region
  | .resolve cell _ => input.Ahead first cell.position.offset
  | .seeds cell _ _ _ => input.Ahead first cell.position.offset
  | .pass cell symbol _ _ => input.Ahead (fun other => other = symbol) cell.position.offset
  | .extend cell symbol _ _ => input.Ahead (fun other => other = symbol) cell.position.offset
  | .sequence _ cursor => input.Ahead first cursor.offset
  | .element _ cursor => input.Ahead first cursor.offset
  | .rounds _ _ _ _ cursor => input.Ahead first cursor.offset

def Task.Leaves (after : Chart V) : Task V → Answer V → Prop
  | .pass cell symbol _ _, .token found =>
    after.known? cell.position.offset symbol = some found
  | .extend cell symbol _ _, .token found =>
    after.known? cell.position.offset symbol = some found
  | _, _ => True

structure Task.Refined (input : Input V) (first : Symbol → Prop) (task : Task V)
    (chart after : Chart V) (answer : Answer V) : Prop where
  step : chart.Step after input (task.region input first) (task.touched input first)
  leaves : task.Leaves after answer
  parses : Parses input task.goal answer.outcome

theorem Grammar.Admits.head {grammar : Grammar V} {first : Symbol → Prop} {element : Element}
    {rest : List Element} (admits : grammar.Admits first (Element.headsAll (element :: rest))) :
    grammar.Admits first element.heads := by
  intro symbol member
  rw [Element.headsAll] at admits
  exact admits symbol (List.mem_append_left _ member)

theorem Grammar.Admits.tail {grammar : Grammar V} {first : Symbol → Prop} {element : Element}
    {rest : List Element} (admits : grammar.Admits first (Element.headsAll (element :: rest)))
    (idle : element.idle = true) : grammar.Admits first (Element.headsAll rest) := by
  intro symbol member
  rw [Element.headsAll, if_pos idle] at admits
  exact admits symbol (List.mem_append_right _ member)

/-- Behind a run of solid elements, the same rules may be first as before it if it has matched
nothing, and all rules otherwise. -/
theorem Derives.behind {input : Input V} {chart : Chart V} {first : Symbol → Prop}
    {elements : List Element} {cursor next : Position} {parts : List (Child V)}
    {symbols : List Symbol} (isRun : Derives input chart (.run elements cursor parts next))
    (agrees : chart.Agrees input (input.Ahead first cursor.offset)) (guarded : input.Guarded)
    (closed : input.grammar.Closed first) (solid : Element.allSolid elements = true)
    (valid : (input.rest? cursor.offset).isSome) (counts : input.Counts cursor)
    (admits : Element.allIdle elements = true → input.grammar.Admits first symbols) :
    ∃ behind, input.grammar.Closed behind ∧ input.grammar.Admits behind symbols ∧
      (∀ offset symbol, input.Ahead behind next.offset offset symbol →
        input.Ahead first cursor.offset offset symbol) ∧
      (input.rest? next.offset).isSome ∧ input.Counts next := by
  have arena := agrees.sound.arena
  have spans : Spans input chart cursor parts next := isRun.sits arena valid
  obtain ⟨bare, passes⟩ := isRun.advances arena guarded solid valid
  have countsNext := (isRun.counted arena agrees.counted counts).1
  by_cases none_ : parts = []
  · cases spans.bare none_
    exact ⟨first, closed, admits (bare none_), fun _ _ ahead => ahead, valid, counts⟩
  · exact ⟨fun _ => True, fun _ _ => trivial, fun _ _ _ => trivial,
      fun _ _ ahead => ahead.of_passes (passes none_) valid, spans.valid, countsNext⟩

theorem Grammar.closed_corners (grammar : Grammar V) (symbol : Symbol) :
    grammar.Closed (Relation.TransGen grammar.LeftCorner symbol) :=
  fun reached corner => reached.tail corner

theorem Grammar.Closed.corner {grammar : Grammar V} {first : Symbol → Prop}
    (closed : grammar.Closed first) {symbol corner : Symbol} (isFirst : first symbol)
    (reached : Relation.TransGen grammar.LeftCorner symbol corner) : first corner := by
  induction reached with
  | single edge => exact closed isFirst edge
  | tail _ edge ih => exact closed ih edge

theorem Grammar.isRule_of_rule? {grammar : Grammar V} {symbol : Symbol} {rule : Rule V}
    (found : grammar.rule? symbol = some rule) : grammar.isRule symbol = true := by
  rw [Grammar.isRule, found]
  rfl

/-- What the alternatives that do not start with the rule itself may ask for first are its left
corners. -/
theorem Grammar.admits_corners {grammar : Grammar V} {symbol : Symbol} {rule : Rule V}
    (isRule : grammar.rule? symbol = some rule) :
    ∀ entry ∈ rule.alternatives.zipIdx, entry.1.recursive = false →
      grammar.Admits (Relation.TransGen grammar.LeftCorner symbol)
        (Element.headsAll entry.1.elements) := by
  intro entry member plain corner isHead isCorner
  have listed := List.mem_of_getElem? (List.mem_zipIdx_iff_getElem?.1 member)
  exact .single ⟨isCorner, rule, isRule, entry.1, listed, plain, isHead⟩

/-! ### Parts of the loops over alternatives -/

namespace Chart.Agrees

variable {input : Input V} {first : Symbol → Prop} {cell : LexicalCell V} {symbol : Symbol}
  {alternative : Alternative V} {index : Nat} {chart between : Chart V} {run : Option (Run V)}

theorem seed (agrees : chart.Agrees input (input.Ahead first cell.position.offset))
    (guarded : input.Guarded) (closed : input.grammar.Closed first) (held : chart.Holds cell)
    (isAlternative : input.grammar.alternative? symbol index = some alternative)
    (admits : input.grammar.Admits first (Element.headsAll alternative.elements))
    (refined : ∀ first, input.grammar.Closed first →
      chart.Agrees input (input.Ahead first cell.position.offset) →
      (Task.sequence alternative.elements cell.position).Begins input chart →
      (Task.sequence alternative.elements cell.position).Fits input first chart →
      (Task.sequence alternative.elements cell.position).Refined input first chart between
        (.run run)) :
    chart.Step between input (input.Ahead first cell.position.offset)
        (input.Ahead first cell.position.offset) ∧
      Parses input (.sequence alternative.elements cell.position) (.run (run.map Run.erase)) := by
  have counts := agrees.counted (held.lexicalAt? agrees.sound.arena)
  obtain ⟨step, -, parses⟩ := refined first closed agrees (held.valid agrees.sound.arena)
    ⟨counts, guarded.solid isAlternative, admits⟩
  exact ⟨step, parses⟩

theorem extension {head : Element} {tail : List Element} {best : Token V}
    (agrees : chart.Agrees input (input.Ahead (fun _ => False) cell.position.offset))
    (guarded : input.Guarded) (held : chart.Holds cell)
    (isAlternative : input.grammar.alternative? symbol index = some alternative)
    (starts : alternative.elements = head :: tail)
    (isBest : Derives input chart (.matched cell symbol best))
    (kept : chart.known? cell.position.offset symbol = some (some best))
    (refined : ∀ first, input.grammar.Closed first →
      chart.Agrees input (input.Ahead first best.stop.offset) →
      (Task.sequence tail best.stop).Begins input chart →
      (Task.sequence tail best.stop).Fits input first chart →
      (Task.sequence tail best.stop).Refined input first chart between (.run run)) :
    chart.Step between input (input.Ahead (fun _ => False) cell.position.offset)
        (input.Ahead (fun other => other = symbol) cell.position.offset) ∧
      between.known? cell.position.offset symbol = some (some best) ∧
      Parses input (.sequence tail best.tree.stop) (.run (run.map Run.erase)) := by
  have arena := agrees.sound.arena
  have lexical := held.lexicalAt? arena
  have settled := (held.scanned arena).settled
  obtain ⟨rule, isRule, -⟩ := Grammar.rule?_of_alternative? isAlternative
  have passes : input.Passes cell.position best.stop := by
    intro place isPlace
    cases settled.symm.trans isPlace
    exact isBest.advances arena guarded lexical
  have solid := guarded.solid isAlternative
  rw [starts, Element.allSolid, Bool.and_eq_true] at solid
  have behind {other : Symbol → Prop} : ∀ offset symbol,
      input.Ahead (fun _ => True) best.stop.offset offset symbol →
        input.Ahead other cell.position.offset offset symbol :=
    fun _ _ ahead => ahead.of_passes passes (held.valid arena)
  obtain ⟨step, -, parses⟩ := refined (fun _ => True) (fun _ _ => trivial)
    (agrees.restrict behind) (Evaluates.token_valid isBest agrees.sound held).1
    ⟨isBest.counted arena agrees.counted lexical, solid.2, fun _ _ _ => trivial⟩
  refine ⟨step.widen agrees behind, ?_, ?_⟩
  · rw [← kept]
    refine step.frame fun ahead => ?_
    have read : input.Ahead (fun _ => False) cell.position.offset cell.position.offset symbol :=
      behind _ _ ahead
    exact read.first_of_rule settled (Grammar.isRule_of_rule? isRule)
  · rw [Token.tree_stop]
    exact parses

end Chart.Agrees

/-! ### The theorem -/

namespace Evaluates

variable {input : Input V}

theorem refines {task : Task V} {chart after : Chart V} {answer : Answer V}
    (evaluates : Evaluates input task chart answer after)
    (wellFormed : input.grammar.WellFormed) (guarded : input.Guarded) :
    ∀ first, input.grammar.Closed first → chart.Agrees input (task.region input first) →
      task.Begins input chart → task.Fits input first chart →
        task.Refined input first chart after answer := by
  -- By induction on the evaluation. The rules that may be first shrink to left corners where a rule
  -- is entered, and grow to all rules behind what has been matched.
  induction evaluates with
  | @known cell symbol entry chart known =>
      intro first closed agrees held isFirst
      have arena := agrees.sound.arena
      refine ⟨.refl agrees, trivial, ?_⟩
      exact agrees.faithful ⟨_, (held.scanned arena).settled, .inr ⟨rfl, isFirst⟩⟩ known
        (held.lexicalAt? arena)
  | @lexical cell symbol chart _ noRule =>
      intro first closed agrees held isFirst
      have leaf := (held.scanned agrees.sound.arena).leafAt?_eq symbol
      refine ⟨.refl agrees, trivial, ?_⟩
      change Parses input (.resolve cell.position symbol) _
      rw [Answer.outcome, Option.map_map]
      change Parses input _ (.tree ((cell.lexeme? symbol).map (Leaf.tree ∘ Lexeme.toLeaf)))
      rw [← Option.map_map, LexicalCell.lexeme?_toLeaf, ← leaf]
      exact .lexical noRule
  | @barren cell symbol rule chart after unknown isRule _ ihSeeds =>
      intro first closed agrees held isFirst
      have itself := Grammar.isRule_of_rule? isRule
      have entered := agrees.enter held unknown itself
        (fun _ => closed.corner (isFirst itself)) (guarded.acyclic symbol)
      have grown := Chart.enter_extends held unknown
      obtain ⟨step, -, parses⟩ := ihSeeds _ (input.grammar.closed_corners symbol) entered
        ⟨held.mono grown, Grammar.lists_zipIdx isRule, nofun⟩ (Grammar.admits_corners isRule)
      have settled := (held.scanned agrees.sound.arena).settled
      have fails : Parses input (.resolve cell.position symbol)
          (.tree ((none : Option (Token V)).map Token.tree)) := .barren isRule parses
      refine ⟨.resolved agrees held (isFirst itself) (fun _ => closed.corner (isFirst itself))
        (grown.trans step.grown) step.agrees ?_ ?_ fails, trivial, fails⟩
      · intro offset other outside apart
        rw [step.frame outside, held.known?_enter, if_neg]
        rintro ⟨rfl, rfl⟩
        exact apart ⟨rfl, rfl⟩
      · rw [step.frame fun inside => guarded.acyclic symbol (inside.first_of_rule settled itself),
          held.known?_enter, if_pos ⟨rfl, rfl⟩]
  | @grown cell symbol rule seed found chart between after unknown isRule seeds _ ihSeeds
      ihExtend =>
      intro first closed agrees held isFirst
      have itself := Grammar.isRule_of_rule? isRule
      have acyclic := guarded.acyclic symbol
      have settled := (held.scanned agrees.sound.arena).settled
      have entered := agrees.enter held unknown itself
        (fun _ => closed.corner (isFirst itself)) acyclic
      have grown := Chart.enter_extends held unknown
      have heldEntered := held.mono grown
      have begins : (Task.seeds cell symbol rule.alternatives.zipIdx none).Begins input
          (chart.enter cell.position.offset symbol) :=
        ⟨heldEntered, Grammar.lists_zipIdx isRule, nofun⟩
      obtain ⟨stepSeeds, -, parsesSeeds⟩ := ihSeeds _ (input.grammar.closed_corners symbol)
        entered begins (Grammar.admits_corners isRule)
      have isSeed := (seeds.sound wellFormed entered.sound begins).2.2 seed rfl
      have heldBetween := heldEntered.mono stepSeeds.grown
      obtain ⟨stepStore, kept⟩ := (stepSeeds.agrees.restrict
        fun _ _ ahead => ahead.mono nofun).store heldBetween itself isSeed
      obtain ⟨stepExtend, leaves, parsesExtend⟩ := ihExtend first closed stepStore.agrees
        ⟨heldBetween.mono stepStore.grown, Grammar.lists_zipIdx isRule,
          isSeed.mono stepStore.grown⟩ kept
      have behind := stepStore.trans stepExtend
      have later : after.Agrees input (input.Ahead (Relation.TransGen
          input.grammar.LeftCorner symbol) cell.position.offset) := by
        refine behind.agrees_of stepSeeds.agrees fun offset other inside changed => ?_
        rcases changed.or_self settled with read | ⟨rfl, rfl⟩
        · exact read
        · exact absurd (inside.first_of_rule settled itself) acyclic
      have parses : Parses input (.resolve cell.position symbol)
          (.tree (found.map Token.tree)) := .grown isRule parsesSeeds parsesExtend
      refine ⟨.resolved agrees held (isFirst itself) (fun _ => closed.corner (isFirst itself))
        ((grown.trans stepSeeds.grown).trans behind.grown) later ?_ leaves parses, trivial,
        parses⟩
      intro offset other outside apart
      rw [behind.frame fun changed => (changed.or_self settled).elim outside apart,
        stepSeeds.frame outside, held.known?_enter, if_neg]
      rintro ⟨rfl, rfl⟩
      exact apart ⟨rfl, rfl⟩
  | seedsDone =>
      intro first closed agrees begins fits
      exact ⟨.refl agrees, trivial, .seedsDone⟩
  | seedsSkipped recursive _ ihSeeds =>
      intro first closed agrees begins fits
      rcases begins with ⟨held, listed, best⟩
      obtain ⟨step, -, parses⟩ := ihSeeds first closed agrees ⟨held, listed.tail, best⟩
        fun entry member => fits entry (List.mem_cons_of_mem _ member)
      exact ⟨step, trivial, .seedsSkipped recursive parses⟩
  | seedsFailed plain _ _ ihSequence ihSeeds =>
      intro first closed agrees begins fits
      rcases begins with ⟨held, listed, best⟩
      obtain ⟨tried, sequence⟩ := agrees.seed guarded closed held
        (listed _ (List.mem_cons_self ..)) (fits _ (List.mem_cons_self ..) plain) ihSequence
      obtain ⟨step, -, parses⟩ := ihSeeds first closed tried.agrees
        ⟨held.mono tried.grown, listed.tail,
          fun token isBest => (best token isBest).mono tried.grown⟩
        fun entry member => fits entry (List.mem_cons_of_mem _ member)
      refine ⟨tried.trans step, trivial, .seedsTried plain sequence ?_⟩
      rw [Option.map_none, Tree.ofRun?_none, Tree.better_none]
      exact parses
  | seedsEmpty plain _ _ ihSequence ihSeeds =>
      intro first closed agrees begins fits
      rcases begins with ⟨held, listed, best⟩
      obtain ⟨tried, sequence⟩ := agrees.seed guarded closed held
        (listed _ (List.mem_cons_self ..)) (fits _ (List.mem_cons_self ..) plain) ihSequence
      obtain ⟨step, -, parses⟩ := ihSeeds first closed tried.agrees
        ⟨held.mono tried.grown, listed.tail,
          fun token isBest => (best token isBest).mono tried.grown⟩
        fun entry member => fits entry (List.mem_cons_of_mem _ member)
      refine ⟨tried.trans step, trivial, .seedsTried plain sequence ?_⟩
      rw [Option.map_some, Tree.ofRun?_empty, Tree.better_none]
      exact parses
  | @seedsMatched cell symbol alternative index rest best parts stop node found chart between
      made after plain matched nodeMade _ ihSequence ihSeeds =>
      intro first closed agrees begins fits
      rcases begins with ⟨held, listed, bestDerived⟩
      have isAlternative := listed _ (List.mem_cons_self ..)
      obtain ⟨tried, sequence⟩ := agrees.seed guarded closed held isAlternative
        (fits _ (List.mem_cons_self ..) plain) ihSequence
      have isRun := (matched.sound wellFormed agrees.sound (held.valid agrees.sound.arena)).2.2
      have isNode := Derives.seeded wellFormed isAlternative plain (isRun parts stop rfl) nodeMade
      have stepMade := tried.trans (tried.agrees.made nodeMade)
      obtain ⟨step, -, parses⟩ := ihSeeds first closed stepMade.agrees
        ⟨held.mono stepMade.grown, listed.tail, by
          intro token isBest
          split at isBest
          · cases isBest
            exact isNode.mono (Chart.Sound.made tried.agrees.sound nodeMade).2
          · exact (bestDerived token isBest).mono stepMade.grown⟩
        fun entry member => fits entry (List.mem_cons_of_mem _ member)
      refine ⟨stepMade.trans step, trivial, .seedsTried plain sequence ?_⟩
      rw [Option.map_some, Tree.ofRun?_parts nodeMade, Tree.better_some]
      exact parses
  | passDone =>
      intro first closed agrees begins kept
      exact ⟨.refl agrees, kept, .passDone⟩
  | passSkipped plain _ ihPass =>
      intro first closed agrees begins kept
      rcases begins with ⟨held, listed, best⟩
      obtain ⟨step, leaves, parses⟩ :=
        ihPass first closed agrees ⟨held, listed.tail, best⟩ kept
      exact ⟨step, leaves, .passSkipped plain parses⟩
  | passFailed recursive starts _ _ ihSequence ihPass =>
      intro first closed agrees begins kept
      rcases begins with ⟨held, listed, best⟩
      obtain ⟨tried, keptBetween, sequence⟩ := agrees.extension guarded held
        (listed _ (List.mem_cons_self ..)) starts best kept ihSequence
      obtain ⟨step, leaves, parses⟩ := ihPass first closed tried.agrees
        ⟨held.mono tried.grown, listed.tail, best.mono tried.grown⟩ keptBetween
      refine ⟨tried.trans step, leaves, .passTried recursive starts sequence ?_⟩
      rw [Option.map_none, Tree.ofRun?_none, Tree.longer]
      exact parses
  | @passShorter cell symbol alternative index head tail rest best parts stop node found chart
      between made after recursive starts _ nodeMade short _ ihSequence ihPass =>
      intro first closed agrees begins kept
      rcases begins with ⟨held, listed, isBest⟩
      obtain ⟨tried, keptBetween, sequence⟩ := agrees.extension guarded held
        (listed _ (List.mem_cons_self ..)) starts isBest kept ihSequence
      have stepMade := tried.trans (tried.agrees.made nodeMade)
      have keptMade : made.known? cell.position.offset symbol = some (some best) := by
        obtain ⟨-, -, -, -, -, rfl⟩ := Chart.makeNode_eq_some nodeMade
        exact keptBetween
      obtain ⟨step, leaves, parses⟩ := ihPass first closed stepMade.agrees
        ⟨held.mono stepMade.grown, listed.tail, isBest.mono stepMade.grown⟩ keptMade
      refine ⟨stepMade.trans step, leaves, .passTried recursive starts sequence ?_⟩
      rw [Option.map_some, Tree.ofRun?_behind nodeMade, Tree.longer_of_not_lt short]
      exact parses
  | @passLonger cell symbol alternative index head tail rest best parts stop node found chart
      between made after recursive starts matched nodeMade further _ ihSequence ihPass =>
      intro first closed agrees begins kept
      rcases begins with ⟨held, listed, isBest⟩
      have isAlternative := listed _ (List.mem_cons_self ..)
      obtain ⟨rule, isRule, -⟩ := Grammar.rule?_of_alternative? isAlternative
      obtain ⟨tried, -, sequence⟩ := agrees.extension guarded held isAlternative starts isBest
        kept ihSequence
      have isRun := (matched.sound wellFormed agrees.sound
        (token_valid isBest agrees.sound held).1).2.2
      have isNode := Derives.longer wellFormed isAlternative recursive starts
        (isBest.mono tried.grown) (isRun parts stop rfl) nodeMade further
      have stepMade : between.Step made input
          (input.Ahead (fun _ => False) cell.position.offset)
          (input.Ahead (fun other => other = symbol) cell.position.offset) :=
        tried.agrees.made nodeMade
      have noted := stepMade.trans (stepMade.agrees.report
        (.extended symbol cell.position best.stop node.stop))
      have heldNoted := (held.mono tried.grown).mono noted.grown
      obtain ⟨stepStore, keptNode⟩ := noted.agrees.store heldNoted
        (Grammar.isRule_of_rule? isRule) (isNode.mono noted.grown)
      obtain ⟨step, leaves, parses⟩ := ihPass first closed stepStore.agrees
        ⟨heldNoted.mono stepStore.grown, listed.tail,
          (isNode.mono noted.grown).mono stepStore.grown⟩ keptNode
      refine ⟨((tried.trans noted).trans stepStore).trans step, leaves,
        .passTried recursive starts sequence ?_⟩
      rw [Option.map_some, Tree.ofRun?_behind nodeMade, Tree.longer_of_lt further]
      exact parses
  | extendDone _ short ihPass =>
      intro first closed agrees begins kept
      obtain ⟨step, leaves, parses⟩ := ihPass first closed agrees begins kept
      refine ⟨step, leaves, .extendDone parses ?_⟩
      rw [Token.tree_stop, Token.tree_stop]
      exact short
  | extendMore pass further _ ihPass ihExtend =>
      intro first closed agrees begins kept
      obtain ⟨step, leaves, parses⟩ := ihPass first closed agrees begins kept
      rcases begins with ⟨held, listed, best⟩
      obtain ⟨-, -, node, ⟨⟩, isNode, -⟩ :=
        pass.sound wellFormed agrees.sound ⟨held, listed, best⟩
      obtain ⟨more, leavesMore, parsesMore⟩ := ihExtend first closed step.agrees
        ⟨held.mono step.grown, listed, isNode⟩ leaves
      refine ⟨step.trans more, leavesMore, .extendMore parses ?_ parsesMore⟩
      rw [Token.tree_stop, Token.tree_stop]
      exact further
  | sequenceDone =>
      intro first closed agrees valid fits
      exact ⟨.refl agrees, trivial, .sequenceDone⟩
  | sequenceStuck _ ihElement =>
      intro first closed agrees valid fits
      rcases fits with ⟨counts, solid, admits⟩
      rw [Element.allSolid, Bool.and_eq_true] at solid
      obtain ⟨step, -, parses⟩ :=
        ihElement first closed agrees valid ⟨counts, solid.1, admits.head⟩
      exact ⟨step, trivial, .sequenceStuck parses⟩
  | @sequenceStep single rest cursor parts next found chart between after element _ ihElement
      ihSequence =>
      intro first closed agrees valid fits
      rcases fits with ⟨counts, solid, admits⟩
      rw [Element.allSolid, Bool.and_eq_true] at solid
      obtain ⟨stepFirst, -, parsesFirst⟩ :=
        ihElement first closed agrees valid ⟨counts, solid.1, admits.head⟩
      have isRun : Derives input between (.run [single] cursor parts next) :=
        (element.sound wellFormed agrees.sound valid).2.2 _ _ rfl
      have solidFirst : Element.allSolid [single] = true := by
        rw [Element.allSolid, solid.1, Element.allSolid]
        rfl
      obtain ⟨behind, closedBehind, admitsBehind, sub, validNext, countsNext⟩ :=
        isRun.behind stepFirst.agrees guarded closed solidFirst valid counts fun idle => by
          rw [Element.allIdle, Bool.and_eq_true] at idle
          exact admits.tail idle.1
      obtain ⟨step, -, parses⟩ := ihSequence behind closedBehind
        (stepFirst.agrees.restrict sub) validNext ⟨countsNext, solid.2, admitsBehind⟩
      refine ⟨stepFirst.trans (step.widen stepFirst.agrees sub), trivial, ?_⟩
      rw [Answer.outcome, Run.erase_behind]
      exact .sequenceStep parsesFirst parses
  | @literal text cursor found chart after asked =>
      intro first closed agrees valid fits
      rcases fits with ⟨counts, -, -⟩
      obtain ⟨landing, landed⟩ := Input.land_exists valid
      obtain ⟨-, -, cell, leads, same, -⟩ := Chart.literalAt_spec agrees.sound.arena asked
      have step : chart.Step after input (input.Ahead first cursor.offset)
          (input.Ahead first cursor.offset) := agrees.literalAt counts asked
      have arena := step.agrees.sound.arena
      obtain ⟨scanned, -, -⟩ := Chart.cellFrom?_scanned arena leads
      have here := step.agrees.counted.position_eq arena counts landed leads
      refine ⟨step, trivial, ?_⟩
      have parses : Parses input (.element (.literal text) cursor) _ := .literal landed
      rw [← here, scanned.literalAt?_eq, ← same] at parses
      cases found with
      | none => exact parses
      | some lexeme => exact parses
  | @reference single symbol cursor cell found chart opened after names asked _ ihResolve =>
      intro first closed agrees valid fits
      rcases fits with ⟨counts, -, admits⟩
      obtain ⟨landing, landed⟩ := Input.land_exists valid
      obtain ⟨-, -, held, leads⟩ := Chart.syntaxCell_spec agrees.sound.arena asked
      have stepCell : chart.Step opened input (input.Ahead first cursor.offset)
          (input.Ahead first cursor.offset) := agrees.syntaxCell counts asked
      have arena := stepCell.agrees.sound.arena
      obtain ⟨scanned, settled, -⟩ := Chart.cellFrom?_scanned arena leads
      have here := stepCell.agrees.counted.position_eq arena counts landed leads
      have same {first : Symbol → Prop} := @Input.Ahead.settle _ _ input first _ _ settled
        scanned.settled
      obtain ⟨step, -, parses⟩ := ihResolve first closed
        (stepCell.agrees.restrict fun _ _ => (same _ _).1) held
        (admits symbol (Element.mem_heads_of_symbol? names))
      refine ⟨stepCell.trans (step.widen stepCell.agrees fun _ _ => (same _ _).1), trivial, ?_⟩
      change Parses input (.resolve cell.lexical.position symbol) _ at parses
      rw [here] at parses
      have all : Parses input (.element single cursor) _ := .reference names landed parses
      cases found with
      | none => exact all
      | some token =>
          rw [Option.map_some, Option.map_some, Token.tree_stop] at all
          exact all
  | repeated _ ihRounds =>
      intro first closed agrees valid fits
      rcases fits with ⟨counts, solid, admits⟩
      obtain ⟨step, -, parses⟩ := ihRounds first closed agrees valid ⟨counts, solid, admits⟩
      exact ⟨step, trivial, .repeated parses⟩
  | roundsFull full =>
      intro first closed agrees valid fits
      refine ⟨.refl agrees, trivial, ?_⟩
      rw [Answer.outcome, Run.erase_settled]
      exact .roundsFull full
  | roundsStopped room _ ihSequence =>
      intro first closed agrees valid fits
      obtain ⟨step, -, parses⟩ := ihSequence first closed agrees valid fits
      refine ⟨step, trivial, ?_⟩
      rw [Answer.outcome, Run.erase_settled]
      exact .roundsStopped room parses
  | roundsIdle room _ same ihSequence =>
      intro first closed agrees valid fits
      obtain ⟨step, -, parses⟩ := ihSequence first closed agrees valid fits
      exact ⟨step, trivial, .roundsIdle room parses same⟩
  | @roundsOnward elements min max count cursor parts next found chart between after room sequence
      apart _ ihSequence ihRounds =>
      intro first closed agrees valid fits
      rcases fits with ⟨counts, solid, admits⟩
      obtain ⟨stepRound, -, parsesRound⟩ :=
        ihSequence first closed agrees valid ⟨counts, solid, admits⟩
      have isRun : Derives input between (.run elements cursor parts next) :=
        (sequence.sound wellFormed agrees.sound valid).2.2 _ _ rfl
      obtain ⟨behind, closedBehind, admitsBehind, sub, validNext, countsNext⟩ :=
        isRun.behind stepRound.agrees guarded closed solid valid counts fun _ => admits
      obtain ⟨step, -, parses⟩ := ihRounds behind closedBehind
        (stepRound.agrees.restrict sub) validNext ⟨countsNext, solid, admitsBehind⟩
      refine ⟨stepRound.trans (step.widen stepRound.agrees sub), trivial, ?_⟩
      rw [Answer.outcome, Run.erase_behind]
      exact .roundsOnward room parsesRound apart parses

end Evaluates

end Packrat
