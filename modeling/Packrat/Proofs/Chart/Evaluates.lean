import Packrat.Chart.Resolve

/-!
How symbols are resolved, as a relation without budgets. `Evaluates input task chart answer after`
says that the task, begun with one chart, comes to an answer and leaves another chart. There is one
rule for each way a step can go, and no rule for a place that is not one of the text: a task that
would ask for such a place comes to no answer.

A task comes to one answer at most (`Evaluates.unique`).
-/

set_option autoImplicit false

namespace Packrat

variable {V : Type} [Kinded V]

/-- What has to be done: a symbol at a place, the loops over the alternatives of a rule, or the
matching of elements from a place on. -/
inductive Task (V : Type) [Kinded V] where
  | resolve (cell : LexicalCell V) (symbol : Symbol)
  | seeds (cell : LexicalCell V) (symbol : Symbol) (alternatives : List (Alternative V × Nat))
      (best : Option (Token V))
  | pass (cell : LexicalCell V) (symbol : Symbol) (alternatives : List (Alternative V × Nat))
      (best : Token V)
  | extend (cell : LexicalCell V) (symbol : Symbol) (alternatives : List (Alternative V × Nat))
      (best : Token V)
  | sequence (elements : List Element) (cursor : Position)
  | element (element : Element) (cursor : Position)
  | rounds (elements : List Element) (min : Nat) (max : Option Nat) (count : Nat)
      (cursor : Position)

inductive Answer (V : Type) where
  | token (found : Option (Token V))
  | run (found : Option (Run V))

def Run.behind {Part : Type} (parts : List Part) (found : Option (List Part × Position)) :
    Option (List Part × Position) :=
  found.map fun (more, stop) => (parts ++ more, stop)

/-- What remains of a repetition that makes no further round. -/
def Run.settled {Part : Type} (min count : Nat) (cursor : Position) :
    Option (List Part × Position) :=
  if min ≤ count then some ([], cursor) else none

open Chart in
inductive Evaluates (input : Input V) : Task V → Chart V → Answer V → Chart V → Prop where
  -- A symbol at a place.
  | known {cell symbol entry chart} :
      chart.known? cell.position.offset symbol = some entry →
      Evaluates input (.resolve cell symbol) chart (.token entry) chart
  | lexical {cell symbol chart} :
      chart.known? cell.position.offset symbol = none →
      input.grammar.rule? symbol = none →
      Evaluates input (.resolve cell symbol) chart
        (.token ((cell.lexeme? symbol).map .leaf)) chart
  | barren {cell symbol rule chart after} :
      chart.known? cell.position.offset symbol = none →
      input.grammar.rule? symbol = some rule →
      Evaluates input (.seeds cell symbol rule.alternatives.zipIdx none)
        (chart.enter cell.position.offset symbol) (.token none) after →
      Evaluates input (.resolve cell symbol) chart (.token none) after
  | grown {cell symbol rule first found chart between after} :
      chart.known? cell.position.offset symbol = none →
      input.grammar.rule? symbol = some rule →
      Evaluates input (.seeds cell symbol rule.alternatives.zipIdx none)
        (chart.enter cell.position.offset symbol) (.token (some first)) between →
      Evaluates input (.extend cell symbol rule.alternatives.zipIdx first)
        (between.store cell.position.offset symbol (some first)) (.token found) after →
      Evaluates input (.resolve cell symbol) chart (.token found) after
  -- The alternatives that do not start with the rule itself.
  | seedsDone {cell symbol best chart} :
      Evaluates input (.seeds cell symbol [] best) chart (.token best) chart
  | seedsSkipped {cell symbol alternative index rest best found chart after} :
      alternative.recursive = true →
      Evaluates input (.seeds cell symbol rest best) chart (.token found) after →
      Evaluates input (.seeds cell symbol ((alternative, index) :: rest) best)
        chart (.token found) after
  | seedsFailed {cell symbol alternative index rest best found chart between after} :
      alternative.recursive = false →
      Evaluates input (.sequence alternative.elements cell.position) chart (.run none) between →
      Evaluates input (.seeds cell symbol rest best) between (.token found) after →
      Evaluates input (.seeds cell symbol ((alternative, index) :: rest) best)
        chart (.token found) after
  | seedsEmpty {cell symbol alternative index rest best stop found chart between after} :
      alternative.recursive = false →
      Evaluates input (.sequence alternative.elements cell.position) chart
        (.run (some ([], stop))) between →
      Evaluates input (.seeds cell symbol rest best) between (.token found) after →
      Evaluates input (.seeds cell symbol ((alternative, index) :: rest) best)
        chart (.token found) after
  | seedsMatched {cell symbol alternative index rest best parts stop node found chart between
      made after} :
      alternative.recursive = false →
      Evaluates input (.sequence alternative.elements cell.position) chart
        (.run (some (parts, stop))) between →
      makeNode symbol index parts between = (some node, made) →
      Evaluates input
        (.seeds cell symbol rest (if reachesFurther node best then some node else best)) made
        (.token found) after →
      Evaluates input (.seeds cell symbol ((alternative, index) :: rest) best)
        chart (.token found) after
  -- One pass over the alternatives that start with the rule itself.
  | passDone {cell symbol best chart} :
      Evaluates input (.pass cell symbol [] best) chart (.token (some best)) chart
  | passSkipped {cell symbol alternative index rest best found chart after} :
      alternative.recursive = false →
      Evaluates input (.pass cell symbol rest best) chart (.token found) after →
      Evaluates input (.pass cell symbol ((alternative, index) :: rest) best)
        chart (.token found) after
  | passFailed {cell symbol alternative index head tail rest best found chart between after} :
      alternative.recursive = true →
      alternative.elements = head :: tail →
      Evaluates input (.sequence tail best.stop) chart (.run none) between →
      Evaluates input (.pass cell symbol rest best) between (.token found) after →
      Evaluates input (.pass cell symbol ((alternative, index) :: rest) best)
        chart (.token found) after
  | passShorter {cell symbol alternative index head tail rest best parts stop node found chart
      between made after} :
      alternative.recursive = true →
      alternative.elements = head :: tail →
      Evaluates input (.sequence tail best.stop) chart (.run (some (parts, stop))) between →
      makeNode symbol index (⟨head.label?, best⟩ :: parts) between = (some node, made) →
      ¬ best.stop.offset < node.stop.offset →
      Evaluates input (.pass cell symbol rest best) made (.token found) after →
      Evaluates input (.pass cell symbol ((alternative, index) :: rest) best)
        chart (.token found) after
  | passLonger {cell symbol alternative index head tail rest best parts stop node found chart
      between made after} :
      alternative.recursive = true →
      alternative.elements = head :: tail →
      Evaluates input (.sequence tail best.stop) chart (.run (some (parts, stop))) between →
      makeNode symbol index (⟨head.label?, best⟩ :: parts) between = (some node, made) →
      best.stop.offset < node.stop.offset →
      Evaluates input (.pass cell symbol rest node)
        ((made.report (.extended symbol cell.position best.stop node.stop)).store
          cell.position.offset symbol (some node)) (.token found) after →
      Evaluates input (.pass cell symbol ((alternative, index) :: rest) best)
        chart (.token found) after
  -- Passes until one brings nothing.
  | extendDone {cell symbol alternatives best node chart after} :
      Evaluates input (.pass cell symbol alternatives best) chart (.token (some node)) after →
      ¬ best.stop.offset < node.stop.offset →
      Evaluates input (.extend cell symbol alternatives best) chart (.token (some node)) after
  | extendMore {cell symbol alternatives best node found chart between after} :
      Evaluates input (.pass cell symbol alternatives best) chart (.token (some node)) between →
      best.stop.offset < node.stop.offset →
      Evaluates input (.extend cell symbol alternatives node) between (.token found) after →
      Evaluates input (.extend cell symbol alternatives best) chart (.token found) after
  -- Elements one after the other.
  | sequenceDone {cursor chart} :
      Evaluates input (.sequence [] cursor) chart (.run (some ([], cursor))) chart
  | sequenceStuck {element rest cursor chart after} :
      Evaluates input (.element element cursor) chart (.run none) after →
      Evaluates input (.sequence (element :: rest) cursor) chart (.run none) after
  | sequenceStep {element rest cursor parts next found chart between after} :
      Evaluates input (.element element cursor) chart (.run (some (parts, next))) between →
      Evaluates input (.sequence rest next) between (.run found) after →
      Evaluates input (.sequence (element :: rest) cursor) chart (.run (Run.behind parts found))
        after
  -- One element.
  | literal {text cursor found chart after} :
      chart.literalAt input cursor text = .ok (found, after) →
      Evaluates input (.element (.literal text) cursor) chart
        (.run (found.map fun lexeme => ([⟨none, .leaf lexeme⟩], lexeme.stop))) after
  | reference {element symbol cursor cell found chart between after} :
      element.symbol? = some symbol →
      chart.syntaxCell input cursor = .ok (cell, between) →
      Evaluates input (.resolve cell.lexical symbol) between (.token found) after →
      Evaluates input (.element element cursor) chart
        (.run (found.map fun token => ([⟨element.label?, token⟩], token.stop))) after
  | repeated {elements min max cursor found chart after} :
      Evaluates input (.rounds elements min max 0 cursor) chart (.run found) after →
      Evaluates input (.element (.repeated elements min max) cursor) chart (.run found) after
  -- Rounds of a repetition, after some of them.
  | roundsFull {elements min max count cursor chart} :
      max.any (· ≤ count) = true →
      Evaluates input (.rounds elements min max count cursor) chart
        (.run (Run.settled min count cursor)) chart
  | roundsStopped {elements min max count cursor chart after} :
      max.any (· ≤ count) = false →
      Evaluates input (.sequence elements cursor) chart (.run none) after →
      Evaluates input (.rounds elements min max count cursor) chart
        (.run (Run.settled min count cursor)) after
  | roundsIdle {elements min max count cursor parts next chart after} :
      max.any (· ≤ count) = false →
      Evaluates input (.sequence elements cursor) chart (.run (some (parts, next))) after →
      next.offset = cursor.offset →
      Evaluates input (.rounds elements min max count cursor) chart
        (.run (some (parts, cursor))) after
  | roundsOnward {elements min max count cursor parts next found chart between after} :
      max.any (· ≤ count) = false →
      Evaluates input (.sequence elements cursor) chart (.run (some (parts, next))) between →
      next.offset ≠ cursor.offset →
      Evaluates input (.rounds elements min max (count + 1) next) between (.run found) after →
      Evaluates input (.rounds elements min max count cursor) chart
        (.run (Run.behind parts found)) after

namespace Evaluates

variable {input : Input V}

/-- A task comes to one answer at most, and leaves one chart. -/
theorem unique {task : Task V} {chart after after' : Chart V} {answer answer' : Answer V}
    (first : Evaluates input task chart answer after)
    (second : Evaluates input task chart answer' after') :
    answer = answer' ∧ after = after' := by
  -- By induction on the first evaluation. The second has to go the same way, since where two rules
  -- fit a task, the answers of what they have in common tell them apart.
  induction first generalizing answer' after' with
  | known here => cases second <;> simp_all
  | lexical unknown noRule => cases second <;> simp_all
  | barren unknown isRule seeds ihSeeds =>
      cases second with
      | known _ => simp_all
      | lexical _ _ => simp_all
      | barren _ isRule' seeds' =>
          cases isRule.symm.trans isRule'
          exact ⟨rfl, (ihSeeds seeds').2⟩
      | grown _ isRule' seeds' _ =>
          cases isRule.symm.trans isRule'
          cases (ihSeeds seeds').1
  | grown unknown isRule seeds extend ihSeeds ihExtend =>
      cases second with
      | known _ => simp_all
      | lexical _ _ => simp_all
      | barren _ isRule' seeds' =>
          cases isRule.symm.trans isRule'
          cases (ihSeeds seeds').1
      | grown _ isRule' seeds' extend' =>
          cases isRule.symm.trans isRule'
          obtain ⟨same, rfl⟩ := ihSeeds seeds'
          cases same
          exact ihExtend extend'
  | seedsDone => cases second; exact ⟨rfl, rfl⟩
  | seedsSkipped recursive seeds ihSeeds =>
      cases second with
      | seedsSkipped _ seeds' => exact ihSeeds seeds'
      | seedsFailed plain _ _ => cases recursive.symm.trans plain
      | seedsEmpty plain _ _ => cases recursive.symm.trans plain
      | seedsMatched plain _ _ _ => cases recursive.symm.trans plain
  | seedsFailed plain sequence seeds ihSequence ihSeeds =>
      cases second with
      | seedsSkipped recursive _ => cases plain.symm.trans recursive
      | seedsFailed _ sequence' seeds' =>
          obtain ⟨-, rfl⟩ := ihSequence sequence'
          exact ihSeeds seeds'
      | seedsEmpty _ sequence' _ => cases (ihSequence sequence').1
      | seedsMatched _ sequence' _ _ => cases (ihSequence sequence').1
  | seedsEmpty plain sequence seeds ihSequence ihSeeds =>
      cases second with
      | seedsSkipped recursive _ => cases plain.symm.trans recursive
      | seedsFailed _ sequence' _ => cases (ihSequence sequence').1
      | seedsEmpty _ sequence' seeds' =>
          obtain ⟨-, rfl⟩ := ihSequence sequence'
          exact ihSeeds seeds'
      | seedsMatched _ sequence' made' _ =>
          obtain ⟨same, rfl⟩ := ihSequence sequence'
          cases same
          cases made'
  | seedsMatched plain sequence made seeds ihSequence ihSeeds =>
      cases second with
      | seedsSkipped recursive _ => cases plain.symm.trans recursive
      | seedsFailed _ sequence' _ => cases (ihSequence sequence').1
      | seedsEmpty _ sequence' _ =>
          obtain ⟨same, rfl⟩ := ihSequence sequence'
          cases same
          cases made
      | seedsMatched _ sequence' made' seeds' =>
          obtain ⟨same, rfl⟩ := ihSequence sequence'
          cases same
          cases made.symm.trans made'
          exact ihSeeds seeds'
  | passDone => cases second; exact ⟨rfl, rfl⟩
  | passSkipped plain pass ihPass =>
      cases second with
      | passSkipped _ pass' => exact ihPass pass'
      | passFailed recursive _ _ _ => cases plain.symm.trans recursive
      | passShorter recursive _ _ _ _ _ => cases plain.symm.trans recursive
      | passLonger recursive _ _ _ _ _ => cases plain.symm.trans recursive
  | passFailed recursive starts sequence pass ihSequence ihPass =>
      cases second with
      | passSkipped plain _ => cases recursive.symm.trans plain
      | passFailed _ starts' sequence' pass' =>
          cases starts.symm.trans starts'
          obtain ⟨-, rfl⟩ := ihSequence sequence'
          exact ihPass pass'
      | passShorter _ starts' sequence' _ _ _ =>
          cases starts.symm.trans starts'
          cases (ihSequence sequence').1
      | passLonger _ starts' sequence' _ _ _ =>
          cases starts.symm.trans starts'
          cases (ihSequence sequence').1
  | passShorter recursive starts sequence made short pass ihSequence ihPass =>
      cases second with
      | passSkipped plain _ => cases recursive.symm.trans plain
      | passFailed _ starts' sequence' _ =>
          cases starts.symm.trans starts'
          cases (ihSequence sequence').1
      | passShorter _ starts' sequence' made' _ pass' =>
          cases starts.symm.trans starts'
          obtain ⟨same, rfl⟩ := ihSequence sequence'
          cases same
          cases made.symm.trans made'
          exact ihPass pass'
      | passLonger _ starts' sequence' made' long _ =>
          cases starts.symm.trans starts'
          obtain ⟨same, rfl⟩ := ihSequence sequence'
          cases same
          cases made.symm.trans made'
          exact absurd long short
  | passLonger recursive starts sequence made long pass ihSequence ihPass =>
      cases second with
      | passSkipped plain _ => cases recursive.symm.trans plain
      | passFailed _ starts' sequence' _ =>
          cases starts.symm.trans starts'
          cases (ihSequence sequence').1
      | passShorter _ starts' sequence' made' short _ =>
          cases starts.symm.trans starts'
          obtain ⟨same, rfl⟩ := ihSequence sequence'
          cases same
          cases made.symm.trans made'
          exact absurd long short
      | passLonger _ starts' sequence' made' _ pass' =>
          cases starts.symm.trans starts'
          obtain ⟨same, rfl⟩ := ihSequence sequence'
          cases same
          cases made.symm.trans made'
          exact ihPass pass'
  | extendDone pass short ihPass =>
      cases second with
      | extendDone pass' _ =>
          obtain ⟨same, rfl⟩ := ihPass pass'
          exact ⟨same, rfl⟩
      | extendMore pass' long _ =>
          cases (ihPass pass').1
          exact absurd long short
  | extendMore pass long extend ihPass ihExtend =>
      cases second with
      | extendDone pass' short =>
          cases (ihPass pass').1
          exact absurd long short
      | extendMore pass' _ extend' =>
          obtain ⟨same, rfl⟩ := ihPass pass'
          cases same
          exact ihExtend extend'
  | sequenceDone => cases second; exact ⟨rfl, rfl⟩
  | sequenceStuck element ihElement =>
      cases second with
      | sequenceStuck element' => exact ⟨rfl, (ihElement element').2⟩
      | sequenceStep element' _ => cases (ihElement element').1
  | sequenceStep element sequence ihElement ihSequence =>
      cases second with
      | sequenceStuck element' => cases (ihElement element').1
      | sequenceStep element' sequence' =>
          obtain ⟨same, rfl⟩ := ihElement element'
          cases same
          obtain ⟨sameRun, rfl⟩ := ihSequence sequence'
          cases sameRun
          exact ⟨rfl, rfl⟩
  | literal asked =>
      cases second with
      | literal asked' =>
          cases asked.symm.trans asked'
          exact ⟨rfl, rfl⟩
      | reference names' _ _ => cases names'
  | reference names asked resolve ihResolve =>
      cases second with
      | literal _ => cases names
      | reference names' asked' resolve' =>
          cases names.symm.trans names'
          cases asked.symm.trans asked'
          obtain ⟨same, rfl⟩ := ihResolve resolve'
          cases same
          exact ⟨rfl, rfl⟩
      | repeated _ => cases names
  | repeated rounds ihRounds =>
      cases second with
      | reference names' _ _ => cases names'
      | repeated rounds' => exact ihRounds rounds'
  | roundsFull full =>
      cases second with
      | roundsFull _ => exact ⟨rfl, rfl⟩
      | roundsStopped room _ => cases full.symm.trans room
      | roundsIdle room _ _ => cases full.symm.trans room
      | roundsOnward room _ _ _ => cases full.symm.trans room
  | roundsStopped room sequence ihSequence =>
      cases second with
      | roundsFull full => cases room.symm.trans full
      | roundsStopped _ sequence' => exact ⟨rfl, (ihSequence sequence').2⟩
      | roundsIdle _ sequence' _ => cases (ihSequence sequence').1
      | roundsOnward _ sequence' _ _ => cases (ihSequence sequence').1
  | roundsIdle room sequence idle ihSequence =>
      cases second with
      | roundsFull full => cases room.symm.trans full
      | roundsStopped _ sequence' => cases (ihSequence sequence').1
      | roundsIdle _ sequence' _ =>
          obtain ⟨same, rfl⟩ := ihSequence sequence'
          cases same
          exact ⟨rfl, rfl⟩
      | roundsOnward _ sequence' onward _ =>
          cases (ihSequence sequence').1
          exact absurd idle onward
  | roundsOnward room sequence onward rounds ihSequence ihRounds =>
      cases second with
      | roundsFull full => cases room.symm.trans full
      | roundsStopped _ sequence' => cases (ihSequence sequence').1
      | roundsIdle _ sequence' idle =>
          cases (ihSequence sequence').1
          exact absurd idle onward
      | roundsOnward _ sequence' _ rounds' =>
          obtain ⟨same, rfl⟩ := ihSequence sequence'
          cases same
          obtain ⟨sameRun, rfl⟩ := ihRounds rounds'
          cases sameRun
          exact ⟨rfl, rfl⟩

theorem token_iff {task : Task V} {chart : Chart V} {result : Option (Token V) × Chart V}
    (computed : Evaluates input task chart (.token result.1) result.2)
    (found : Option (Token V)) (after : Chart V) :
    Evaluates input task chart (.token found) after ↔ result = (found, after) := by
  constructor
  · intro evaluates
    obtain ⟨same, sameChart⟩ := computed.unique evaluates
    exact Prod.ext (Answer.token.inj same) sameChart
  · rintro rfl
    exact computed

theorem run_iff {task : Task V} {chart : Chart V} {result : Option (Run V) × Chart V}
    (computed : Evaluates input task chart (.run result.1) result.2)
    (found : Option (Run V)) (after : Chart V) :
    Evaluates input task chart (.run found) after ↔ result = (found, after) := by
  constructor
  · intro evaluates
    obtain ⟨same, sameChart⟩ := computed.unique evaluates
    exact Prod.ext (Answer.run.inj same) sameChart
  · rintro rfl
    exact computed

end Evaluates

end Packrat
