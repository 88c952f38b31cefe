import Packrat.Proofs.Derivation.Sound

/-!
The history of an evaluation: the nodes that are made and the entries that are written, in order.
Entries are written by activations, which are the tries of the alternatives of one rule at one
place. Activations are numbered in the order in which they are entered, so the number of an
activation tells its place in the list of what has been entered.

`Records input owner task chart history answer after` goes the same way as `Evaluates`
(`Evaluates.exists_records`, `Records.evaluates`). The owner is the activation that the task is part
of. Steps that make nodes or write entries are only taken from sound charts.
-/

set_option autoImplicit false
set_option linter.unusedSectionVars false

namespace Packrat

variable {V : Type} [Kinded V]

/-- A change of a chart that is not just another cell. -/
inductive Change (V : Type) where
  | made (node : Token V)
  | wrote (owner : Nat) (offset : Nat) (symbol : Symbol) (entry : Option (Token V))

structure Task.Grounded (input : Input V) (chart : Chart V) (task : Task V) : Prop where
  sound : chart.Sound input
  begins : task.Begins input chart

open Chart in
inductive Records (input : Input V) :
    Nat → Task V → Chart V → List (Change V) → Answer V → Chart V → Prop where
  | known {owner cell symbol entry chart} :
      chart.known? cell.position.offset symbol = some entry →
      Records input owner (.resolve cell symbol) chart [] (.token entry) chart
  | lexical {owner cell symbol chart} :
      chart.known? cell.position.offset symbol = none →
      input.grammar.rule? symbol = none →
      Records input owner (.resolve cell symbol) chart []
        (.token ((cell.lexeme? symbol).map .leaf)) chart
  | barren {owner cell symbol rule chart history after} :
      (Task.resolve cell symbol).Grounded input chart →
      chart.known? cell.position.offset symbol = none →
      input.grammar.rule? symbol = some rule →
      Records input chart.entered.length (.seeds cell symbol rule.alternatives.zipIdx none)
        (chart.enter cell.position.offset symbol) history (.token none) after →
      Records input owner (.resolve cell symbol) chart
        (.wrote chart.entered.length cell.position.offset symbol none :: history)
        (.token none) after
  | grown {owner cell symbol rule first found chart between after history more} :
      (Task.resolve cell symbol).Grounded input chart →
      chart.known? cell.position.offset symbol = none →
      input.grammar.rule? symbol = some rule →
      Records input chart.entered.length (.seeds cell symbol rule.alternatives.zipIdx none)
        (chart.enter cell.position.offset symbol) history (.token (some first)) between →
      Records input chart.entered.length (.extend cell symbol rule.alternatives.zipIdx first)
        (between.store cell.position.offset symbol (some first)) more (.token found) after →
      Records input owner (.resolve cell symbol) chart
        (.wrote chart.entered.length cell.position.offset symbol none :: history ++
          .wrote chart.entered.length cell.position.offset symbol (some first) :: more)
        (.token found) after
  | seedsDone {owner cell symbol best chart} :
      Records input owner (.seeds cell symbol [] best) chart [] (.token best) chart
  | seedsSkipped {owner cell symbol alternative index rest best found chart after history} :
      alternative.recursive = true →
      Records input owner (.seeds cell symbol rest best) chart history (.token found) after →
      Records input owner (.seeds cell symbol ((alternative, index) :: rest) best)
        chart history (.token found) after
  | seedsFailed {owner cell symbol alternative index rest best found chart between after
      history more} :
      alternative.recursive = false →
      Records input owner (.sequence alternative.elements cell.position) chart history
        (.run none) between →
      Records input owner (.seeds cell symbol rest best) between more (.token found) after →
      Records input owner (.seeds cell symbol ((alternative, index) :: rest) best)
        chart (history ++ more) (.token found) after
  | seedsEmpty {owner cell symbol alternative index rest best stop found chart between after
      history more} :
      alternative.recursive = false →
      Records input owner (.sequence alternative.elements cell.position) chart history
        (.run (some ([], stop))) between →
      Records input owner (.seeds cell symbol rest best) between more (.token found) after →
      Records input owner (.seeds cell symbol ((alternative, index) :: rest) best)
        chart (history ++ more) (.token found) after
  | seedsMatched {owner cell symbol alternative index rest best parts stop node found chart between
      made after history more} :
      (Task.seeds cell symbol ((alternative, index) :: rest) best).Grounded input chart →
      alternative.recursive = false →
      Records input owner (.sequence alternative.elements cell.position) chart history
        (.run (some (parts, stop))) between →
      makeNode symbol index parts between = (some node, made) →
      Records input owner
        (.seeds cell symbol rest (if reachesFurther node best then some node else best)) made more
        (.token found) after →
      Records input owner (.seeds cell symbol ((alternative, index) :: rest) best)
        chart (history ++ .made node :: more) (.token found) after
  | passDone {owner cell symbol best chart} :
      Records input owner (.pass cell symbol [] best) chart [] (.token (some best)) chart
  | passSkipped {owner cell symbol alternative index rest best found chart after history} :
      alternative.recursive = false →
      Records input owner (.pass cell symbol rest best) chart history (.token found) after →
      Records input owner (.pass cell symbol ((alternative, index) :: rest) best)
        chart history (.token found) after
  | passFailed {owner cell symbol alternative index head tail rest best found chart between after
      history more} :
      alternative.recursive = true →
      alternative.elements = head :: tail →
      Records input owner (.sequence tail best.stop) chart history (.run none) between →
      Records input owner (.pass cell symbol rest best) between more (.token found) after →
      Records input owner (.pass cell symbol ((alternative, index) :: rest) best)
        chart (history ++ more) (.token found) after
  | passShorter {owner cell symbol alternative index head tail rest best parts stop node found chart
      between made after history more} :
      (Task.pass cell symbol ((alternative, index) :: rest) best).Grounded input chart →
      alternative.recursive = true →
      alternative.elements = head :: tail →
      Records input owner (.sequence tail best.stop) chart history
        (.run (some (parts, stop))) between →
      makeNode symbol index (⟨head.label?, best⟩ :: parts) between = (some node, made) →
      ¬ best.stop.offset < node.stop.offset →
      Records input owner (.pass cell symbol rest best) made more (.token found) after →
      Records input owner (.pass cell symbol ((alternative, index) :: rest) best)
        chart (history ++ .made node :: more) (.token found) after
  | passLonger {owner cell symbol alternative index head tail rest best parts stop node found chart
      between made after history more} :
      (Task.pass cell symbol ((alternative, index) :: rest) best).Grounded input chart →
      alternative.recursive = true →
      alternative.elements = head :: tail →
      Records input owner (.sequence tail best.stop) chart history
        (.run (some (parts, stop))) between →
      makeNode symbol index (⟨head.label?, best⟩ :: parts) between = (some node, made) →
      best.stop.offset < node.stop.offset →
      Records input owner (.pass cell symbol rest node)
        ((made.report (.extended symbol cell.position best.stop node.stop)).store
          cell.position.offset symbol (some node)) more (.token found) after →
      Records input owner (.pass cell symbol ((alternative, index) :: rest) best)
        chart
        (history ++ .made node :: .wrote owner cell.position.offset symbol (some node) :: more)
        (.token found) after
  | extendDone {owner cell symbol alternatives best node chart after history} :
      Records input owner (.pass cell symbol alternatives best) chart history
        (.token (some node)) after →
      ¬ best.stop.offset < node.stop.offset →
      Records input owner (.extend cell symbol alternatives best) chart history
        (.token (some node)) after
  | extendMore {owner cell symbol alternatives best node found chart between after history more} :
      Records input owner (.pass cell symbol alternatives best) chart history
        (.token (some node)) between →
      best.stop.offset < node.stop.offset →
      Records input owner (.extend cell symbol alternatives node) between more
        (.token found) after →
      Records input owner (.extend cell symbol alternatives best) chart (history ++ more)
        (.token found) after
  | sequenceDone {owner cursor chart} :
      Records input owner (.sequence [] cursor) chart [] (.run (some ([], cursor))) chart
  | sequenceStuck {owner element rest cursor chart after history} :
      Records input owner (.element element cursor) chart history (.run none) after →
      Records input owner (.sequence (element :: rest) cursor) chart history (.run none) after
  | sequenceStep {owner element rest cursor parts next found chart between after history more} :
      Records input owner (.element element cursor) chart history
        (.run (some (parts, next))) between →
      Records input owner (.sequence rest next) between more (.run found) after →
      Records input owner (.sequence (element :: rest) cursor) chart (history ++ more)
        (.run (Run.behind parts found)) after
  | literal {owner text cursor found chart after} :
      chart.literalAt input cursor text = .ok (found, after) →
      Records input owner (.element (.literal text) cursor) chart []
        (.run (found.map fun lexeme => ([⟨none, .leaf lexeme⟩], lexeme.stop))) after
  | reference {owner element symbol cursor cell found chart between after history} :
      element.symbol? = some symbol →
      chart.syntaxCell input cursor = .ok (cell, between) →
      Records input owner (.resolve cell.lexical symbol) between history (.token found) after →
      Records input owner (.element element cursor) chart history
        (.run (found.map fun token => ([⟨element.label?, token⟩], token.stop))) after
  | repeated {owner elements min max cursor found chart after history} :
      Records input owner (.rounds elements min max 0 cursor) chart history (.run found) after →
      Records input owner (.element (.repeated elements min max) cursor) chart history
        (.run found) after
  | roundsFull {owner elements min max count cursor chart} :
      max.any (· ≤ count) = true →
      Records input owner (.rounds elements min max count cursor) chart []
        (.run (Run.settled min count cursor)) chart
  | roundsStopped {owner elements min max count cursor chart after history} :
      max.any (· ≤ count) = false →
      Records input owner (.sequence elements cursor) chart history (.run none) after →
      Records input owner (.rounds elements min max count cursor) chart history
        (.run (Run.settled min count cursor)) after
  | roundsIdle {owner elements min max count cursor parts next chart after history} :
      max.any (· ≤ count) = false →
      Records input owner (.sequence elements cursor) chart history
        (.run (some (parts, next))) after →
      next.offset = cursor.offset →
      Records input owner (.rounds elements min max count cursor) chart history
        (.run (some (parts, cursor))) after
  | roundsOnward {owner elements min max count cursor parts next found chart between after
      history more} :
      max.any (· ≤ count) = false →
      Records input owner (.sequence elements cursor) chart history
        (.run (some (parts, next))) between →
      next.offset ≠ cursor.offset →
      Records input owner (.rounds elements min max (count + 1) next) between more
        (.run found) after →
      Records input owner (.rounds elements min max count cursor) chart (history ++ more)
        (.run (Run.behind parts found)) after

theorem Records.evaluates {input : Input V} {owner : Nat} {task : Task V} {chart after : Chart V}
    {history : List (Change V)} {answer : Answer V}
    (records : Records input owner task chart history answer after) :
    Evaluates input task chart answer after := by
  induction records with
  | known found => exact .known found
  | lexical unknown noRule => exact .lexical unknown noRule
  | barren _ unknown isRule _ ihSeeds => exact .barren unknown isRule ihSeeds
  | grown _ unknown isRule _ _ ihSeeds ihExtend => exact .grown unknown isRule ihSeeds ihExtend
  | seedsDone => exact .seedsDone
  | seedsSkipped recursive _ ihSeeds => exact .seedsSkipped recursive ihSeeds
  | seedsFailed plain _ _ ihSequence ihSeeds => exact .seedsFailed plain ihSequence ihSeeds
  | seedsEmpty plain _ _ ihSequence ihSeeds => exact .seedsEmpty plain ihSequence ihSeeds
  | seedsMatched _ plain _ made _ ihSequence ihSeeds =>
      exact .seedsMatched plain ihSequence made ihSeeds
  | passDone => exact .passDone
  | passSkipped plain _ ihPass => exact .passSkipped plain ihPass
  | passFailed recursive starts _ _ ihSequence ihPass =>
      exact .passFailed recursive starts ihSequence ihPass
  | passShorter _ recursive starts _ made short _ ihSequence ihPass =>
      exact .passShorter recursive starts ihSequence made short ihPass
  | passLonger _ recursive starts _ made longer _ ihSequence ihPass =>
      exact .passLonger recursive starts ihSequence made longer ihPass
  | extendDone _ short ihPass => exact .extendDone ihPass short
  | extendMore _ longer _ ihPass ihExtend => exact .extendMore ihPass longer ihExtend
  | sequenceDone => exact .sequenceDone
  | sequenceStuck _ ihElement => exact .sequenceStuck ihElement
  | sequenceStep _ _ ihElement ihSequence => exact .sequenceStep ihElement ihSequence
  | literal asked => exact .literal asked
  | reference names asked _ ihResolve => exact .reference names asked ihResolve
  | repeated _ ihRounds => exact .repeated ihRounds
  | roundsFull full => exact .roundsFull full
  | roundsStopped room _ ihSequence => exact .roundsStopped room ihSequence
  | roundsIdle room _ idle ihSequence => exact .roundsIdle room ihSequence idle
  | roundsOnward room _ onward _ ihSequence ihRounds =>
      exact .roundsOnward room ihSequence onward ihRounds

/-! ### From task to task -/

section Grounding

variable {input : Input V} {chart between after made : Chart V} {cell : LexicalCell V}
  {symbol : Symbol} {alternative : Alternative V} {index : Nat}
  {rest : List (Alternative V × Nat)} {elements : List Element} {cursor next : Position}

theorem Evaluates.extends {task : Task V} {answer : Answer V}
    (evaluates : Evaluates input task chart answer after) (wellFormed : input.grammar.WellFormed)
    (grounded : task.Grounded input chart) : after.Sound input ∧ chart.Extends after := by
  obtain ⟨sound, grown, -⟩ := evaluates.sound wellFormed grounded.sound grounded.begins
  exact ⟨sound, grown⟩

namespace Task.Grounded

theorem enter {rule : Rule V} (grounded : (Task.resolve cell symbol).Grounded input chart)
    (unknown : chart.known? cell.position.offset symbol = none)
    (isRule : input.grammar.rule? symbol = some rule) :
    (Task.seeds cell symbol rule.alternatives.zipIdx none).Grounded input
      (chart.enter cell.position.offset symbol) := by
  obtain ⟨entered, grown⟩ := grounded.sound.enter grounded.begins unknown
  exact ⟨entered, Chart.Holds.mono grounded.begins grown, Grammar.lists_zipIdx isRule, nofun⟩

theorem holds {rule : Rule V} {found : Option (Token V)} (wellFormed : input.grammar.WellFormed)
    (grounded : (Task.resolve cell symbol).Grounded input chart)
    (unknown : chart.known? cell.position.offset symbol = none)
    (isRule : input.grammar.rule? symbol = some rule)
    (seeds : Evaluates input (.seeds cell symbol rule.alternatives.zipIdx none)
      (chart.enter cell.position.offset symbol) (.token found) between) :
    between.Holds cell := by
  have entered := grounded.enter unknown isRule
  exact Chart.Holds.mono entered.begins.1 (seeds.extends wellFormed entered).2

theorem store {rule : Rule V} {first : Token V} (wellFormed : input.grammar.WellFormed)
    (grounded : (Task.resolve cell symbol).Grounded input chart)
    (unknown : chart.known? cell.position.offset symbol = none)
    (isRule : input.grammar.rule? symbol = some rule)
    (seeds : Evaluates input (.seeds cell symbol rule.alternatives.zipIdx none)
      (chart.enter cell.position.offset symbol) (.token (some first)) between) :
    (Task.extend cell symbol rule.alternatives.zipIdx first).Grounded input
      (between.store cell.position.offset symbol (some first)) := by
  have entered := grounded.enter unknown isRule
  obtain ⟨sound, grown, derived⟩ := seeds.sound wellFormed entered.sound entered.begins
  have isSeed := derived first rfl
  have held := Chart.Holds.mono entered.begins.1 grown
  obtain ⟨stored, keeps⟩ := sound.store held first isSeed
  exact ⟨stored, held.mono keeps, Grammar.lists_zipIdx isRule, isSeed.mono keeps⟩

section Seeds

variable {best : Option (Token V)}

theorem seed (grounded :
    (Task.seeds cell symbol ((alternative, index) :: rest) best).Grounded input chart) :
    (Task.sequence alternative.elements cell.position).Grounded input chart :=
  ⟨grounded.sound, grounded.begins.1.valid grounded.sound.arena⟩

theorem seedsTail (grounded :
    (Task.seeds cell symbol ((alternative, index) :: rest) best).Grounded input chart)
    (sound : after.Sound input) (grown : chart.Extends after) :
    (Task.seeds cell symbol rest best).Grounded input after := by
  rcases grounded.begins with ⟨held, listed, isBest⟩
  exact ⟨sound, held.mono grown, listed.tail, fun token same => (isBest token same).mono grown⟩

theorem seedsMade {parts : List (Child V)} {stop : Position} {node : Token V}
    (wellFormed : input.grammar.WellFormed) (grounded :
      (Task.seeds cell symbol ((alternative, index) :: rest) best).Grounded input chart)
    (plain : alternative.recursive = false)
    (sequence : Evaluates input (.sequence alternative.elements cell.position) chart
      (.run (some (parts, stop))) between)
    (nodeMade : Chart.makeNode symbol index parts between = (some node, made)) :
    (Task.seeds cell symbol rest
      (if Chart.reachesFurther node best then some node else best)).Grounded input made := by
  obtain ⟨sound, grown, derived⟩ :=
    sequence.sound wellFormed grounded.sound grounded.seed.begins
  obtain ⟨soundMade, keeps⟩ := sound.made nodeMade
  rcases grounded.seedsTail soundMade (grown.trans keeps) with ⟨-, held, listed, isBest⟩
  refine ⟨soundMade, held, listed, ?_⟩
  intro token same
  split at same
  · cases same
    exact (Derives.seeded wellFormed (grounded.begins.2.1 _ (List.mem_cons_self ..)) plain
      (derived parts stop rfl) nodeMade).mono keeps
  · exact isBest token same

end Seeds

section Pass

variable {best : Token V} {head : Element} {tail : List Element}

theorem behind (grounded :
    (Task.pass cell symbol ((alternative, index) :: rest) best).Grounded input chart) :
    (Task.sequence tail best.stop).Grounded input chart := by
  rcases grounded.begins with ⟨held, -, isBest⟩
  exact ⟨grounded.sound, (Evaluates.token_valid isBest grounded.sound held).1⟩

theorem passTail (grounded :
    (Task.pass cell symbol ((alternative, index) :: rest) best).Grounded input chart)
    (sound : after.Sound input) (grown : chart.Extends after) :
    (Task.pass cell symbol rest best).Grounded input after := by
  rcases grounded.begins with ⟨held, listed, isBest⟩
  exact ⟨sound, held.mono grown, listed.tail, isBest.mono grown⟩

variable {parts : List (Child V)} {stop : Position} {node : Token V}

theorem passShorter (wellFormed : input.grammar.WellFormed) (grounded :
      (Task.pass cell symbol ((alternative, index) :: rest) best).Grounded input chart)
    (sequence : Evaluates input (.sequence tail best.stop) chart (.run (some (parts, stop)))
      between)
    (nodeMade : Chart.makeNode symbol index (⟨head.label?, best⟩ :: parts) between =
      (some node, made)) :
    (Task.pass cell symbol rest best).Grounded input made := by
  obtain ⟨sound, grown⟩ := sequence.extends wellFormed grounded.behind
  obtain ⟨soundMade, keeps⟩ := sound.made nodeMade
  exact grounded.passTail soundMade (grown.trans keeps)

theorem passLonger (wellFormed : input.grammar.WellFormed) (grounded :
      (Task.pass cell symbol ((alternative, index) :: rest) best).Grounded input chart)
    (recursive : alternative.recursive = true) (starts : alternative.elements = head :: tail)
    (sequence : Evaluates input (.sequence tail best.stop) chart (.run (some (parts, stop)))
      between)
    (nodeMade : Chart.makeNode symbol index (⟨head.label?, best⟩ :: parts) between =
      (some node, made))
    (longer : best.stop.offset < node.stop.offset) :
    made.Holds cell ∧
      (Task.pass cell symbol rest node).Grounded input
        ((made.report (.extended symbol cell.position best.stop node.stop)).store
          cell.position.offset symbol (some node)) := by
  rcases grounded.begins with ⟨held, listed, isBest⟩
  obtain ⟨sound, grown, derived⟩ :=
    sequence.sound wellFormed grounded.sound grounded.behind.begins
  have isNode := Derives.longer wellFormed (listed _ (List.mem_cons_self ..)) recursive starts
    (isBest.mono grown) (derived parts stop rfl) nodeMade longer
  obtain ⟨soundMade, grownMade⟩ := sound.made nodeMade
  have heldMade := (held.mono grown).mono grownMade
  obtain ⟨replaced, keeps⟩ := soundMade.replace heldMade
    (.extended symbol cell.position best.stop node.stop) (isNode.mono grownMade)
  exact ⟨heldMade, replaced, heldMade.mono keeps, listed.tail, (isNode.mono grownMade).mono keeps⟩

theorem extendMore {alternatives : List (Alternative V × Nat)}
    (wellFormed : input.grammar.WellFormed)
    (grounded : (Task.extend cell symbol alternatives best).Grounded input chart)
    (pass : Evaluates input (.pass cell symbol alternatives best) chart (.token (some node))
      between) :
    (Task.extend cell symbol alternatives node).Grounded input between := by
  rcases grounded.begins with ⟨held, listed, isBest⟩
  obtain ⟨sound, grown, token, ⟨⟩, isNode, -⟩ :=
    pass.sound wellFormed grounded.sound ⟨held, listed, isBest⟩
  exact ⟨sound, held.mono grown, listed, isNode⟩

end Pass

theorem sequenceTail {element : Element} {others : List Element} {parts : List (Child V)}
    (wellFormed : input.grammar.WellFormed)
    (grounded : (Task.sequence (element :: others) cursor).Grounded input chart)
    (first : Evaluates input (.element element cursor) chart (.run (some (parts, next)))
      between) :
    (Task.sequence others next).Grounded input between := by
  obtain ⟨sound, -, derived⟩ := first.sound wellFormed grounded.sound grounded.begins
  exact ⟨sound, (Evaluates.run_valid (derived parts next rfl) sound grounded.begins).1⟩

theorem reference {found : SyntaxCell V} (sound : chart.Sound input)
    (asked : chart.syntaxCell input cursor = .ok (found, between)) :
    (Task.resolve found.lexical symbol).Grounded input between := by
  obtain ⟨arena, gained, held, -⟩ := Chart.syntaxCell_spec sound.arena asked
  exact ⟨sound.gains gained arena, held⟩

theorem roundsTail {min count : Nat} {max : Option Nat} {parts : List (Child V)}
    (wellFormed : input.grammar.WellFormed)
    (grounded : (Task.rounds elements min max count cursor).Grounded input chart)
    (first : Evaluates input (.sequence elements cursor) chart (.run (some (parts, next)))
      between) :
    (Task.rounds elements min max (count + 1) next).Grounded input between := by
  obtain ⟨sound, -, derived⟩ := first.sound wellFormed grounded.sound grounded.begins
  exact ⟨sound, (Evaluates.run_valid (derived parts next rfl) sound grounded.begins).1⟩

end Task.Grounded

end Grounding

/-- Every evaluation that begins in a sound chart has a history. -/
theorem Evaluates.exists_records {input : Input V} {task : Task V} {chart after : Chart V}
    {answer : Answer V} (evaluates : Evaluates input task chart answer after)
    (wellFormed : input.grammar.WellFormed) (grounded : task.Grounded input chart) (owner : Nat) :
    ∃ history, Records input owner task chart history answer after := by
  induction evaluates generalizing owner with
  | known found => exact ⟨_, .known found⟩
  | lexical unknown noRule => exact ⟨_, .lexical unknown noRule⟩
  | barren unknown isRule _ ihSeeds =>
      obtain ⟨history, seeds⟩ := ihSeeds (grounded.enter unknown isRule) _
      exact ⟨_, .barren grounded unknown isRule seeds⟩
  | grown unknown isRule seeds _ ihSeeds ihExtend =>
      obtain ⟨history, recorded⟩ := ihSeeds (grounded.enter unknown isRule) _
      obtain ⟨more, extend⟩ := ihExtend (grounded.store wellFormed unknown isRule seeds) _
      exact ⟨_, .grown grounded unknown isRule recorded extend⟩
  | seedsDone => exact ⟨_, .seedsDone⟩
  | seedsSkipped recursive _ ihSeeds =>
      obtain ⟨history, seeds⟩ := ihSeeds (grounded.seedsTail grounded.sound (.refl _)) owner
      exact ⟨_, .seedsSkipped recursive seeds⟩
  | seedsFailed plain tried _ ihSequence ihSeeds =>
      obtain ⟨sound, grown⟩ := tried.extends wellFormed grounded.seed
      obtain ⟨history, sequence⟩ := ihSequence grounded.seed owner
      obtain ⟨more, seeds⟩ := ihSeeds (grounded.seedsTail sound grown) owner
      exact ⟨_, .seedsFailed plain sequence seeds⟩
  | seedsEmpty plain tried _ ihSequence ihSeeds =>
      obtain ⟨sound, grown⟩ := tried.extends wellFormed grounded.seed
      obtain ⟨history, sequence⟩ := ihSequence grounded.seed owner
      obtain ⟨more, seeds⟩ := ihSeeds (grounded.seedsTail sound grown) owner
      exact ⟨_, .seedsEmpty plain sequence seeds⟩
  | seedsMatched plain tried made _ ihSequence ihSeeds =>
      obtain ⟨history, sequence⟩ := ihSequence grounded.seed owner
      obtain ⟨more, seeds⟩ := ihSeeds (grounded.seedsMade wellFormed plain tried made) owner
      exact ⟨_, .seedsMatched grounded plain sequence made seeds⟩
  | passDone => exact ⟨_, .passDone⟩
  | passSkipped plain _ ihPass =>
      obtain ⟨history, pass⟩ := ihPass (grounded.passTail grounded.sound (.refl _)) owner
      exact ⟨_, .passSkipped plain pass⟩
  | passFailed recursive starts tried _ ihSequence ihPass =>
      obtain ⟨sound, grown⟩ := tried.extends wellFormed grounded.behind
      obtain ⟨history, sequence⟩ := ihSequence grounded.behind owner
      obtain ⟨more, pass⟩ := ihPass (grounded.passTail sound grown) owner
      exact ⟨_, .passFailed recursive starts sequence pass⟩
  | passShorter recursive starts tried made short _ ihSequence ihPass =>
      obtain ⟨history, sequence⟩ := ihSequence grounded.behind owner
      obtain ⟨more, pass⟩ := ihPass (grounded.passShorter wellFormed tried made) owner
      exact ⟨_, .passShorter grounded recursive starts sequence made short pass⟩
  | passLonger recursive starts tried made longer _ ihSequence ihPass =>
      obtain ⟨history, sequence⟩ := ihSequence grounded.behind owner
      obtain ⟨more, pass⟩ :=
        ihPass (grounded.passLonger wellFormed recursive starts tried made longer).2 owner
      exact ⟨_, .passLonger grounded recursive starts sequence made longer pass⟩
  | extendDone _ short ihPass =>
      obtain ⟨history, pass⟩ := ihPass ⟨grounded.sound, grounded.begins⟩ owner
      exact ⟨_, .extendDone pass short⟩
  | extendMore passed longer _ ihPass ihExtend =>
      obtain ⟨history, pass⟩ := ihPass ⟨grounded.sound, grounded.begins⟩ owner
      obtain ⟨more, extend⟩ := ihExtend (grounded.extendMore wellFormed passed) owner
      exact ⟨_, .extendMore pass longer extend⟩
  | sequenceDone => exact ⟨_, .sequenceDone⟩
  | sequenceStuck _ ihElement =>
      obtain ⟨history, element⟩ := ihElement ⟨grounded.sound, grounded.begins⟩ owner
      exact ⟨_, .sequenceStuck element⟩
  | sequenceStep first _ ihElement ihSequence =>
      obtain ⟨history, element⟩ := ihElement ⟨grounded.sound, grounded.begins⟩ owner
      obtain ⟨more, sequence⟩ := ihSequence (grounded.sequenceTail wellFormed first) owner
      exact ⟨_, .sequenceStep element sequence⟩
  | literal asked => exact ⟨_, .literal asked⟩
  | reference names asked _ ihResolve =>
      obtain ⟨history, resolve⟩ := ihResolve (.reference grounded.sound asked) owner
      exact ⟨_, .reference names asked resolve⟩
  | repeated _ ihRounds =>
      obtain ⟨history, rounds⟩ := ihRounds ⟨grounded.sound, grounded.begins⟩ owner
      exact ⟨_, .repeated rounds⟩
  | roundsFull full => exact ⟨_, .roundsFull full⟩
  | roundsStopped room _ ihSequence =>
      obtain ⟨history, sequence⟩ := ihSequence ⟨grounded.sound, grounded.begins⟩ owner
      exact ⟨_, .roundsStopped room sequence⟩
  | roundsIdle room _ idle ihSequence =>
      obtain ⟨history, sequence⟩ := ihSequence ⟨grounded.sound, grounded.begins⟩ owner
      exact ⟨_, .roundsIdle room sequence idle⟩
  | roundsOnward room first onward _ ihSequence ihRounds =>
      obtain ⟨history, sequence⟩ := ihSequence ⟨grounded.sound, grounded.begins⟩ owner
      obtain ⟨more, rounds⟩ := ihRounds (grounded.roundsTail wellFormed first) owner
      exact ⟨_, .roundsOnward room sequence onward rounds⟩

end Packrat
