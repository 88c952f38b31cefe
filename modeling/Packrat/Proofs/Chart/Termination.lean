import Mathlib.Data.Finset.Prod
import Packrat.Proofs.Derivation.Sound

/-!
Resolving terminates. Three measures go down: for rules inside rules the number of rules and places
about which nothing is known, since a rule that is entered becomes known; for the rounds of a
repetition and for the passes over extensions the text that remains; for sequences the elements
that remain.

So the budgets of the functions never run out: every function comes to the answer of its task, and
leaves its chart (`Chart.resolve_evaluates`, `Chart.matchSequence_evaluates`).
-/

set_option autoImplicit false
set_option linter.unusedSectionVars false

namespace Packrat

variable {V : Type} [Kinded V]

namespace Chart

/-! ### Rules that have not been resolved -/

def unresolved (chart : Chart V) (input : Input V) : Finset (Symbol × Nat) :=
  ((input.grammar.rules.map (·.symbol)).toFinset ×ˢ Finset.range (input.length + 1)).filter
    fun pair => (chart.known? pair.2 pair.1).isNone

theorem mem_unresolved {chart : Chart V} {input : Input V} {symbol : Symbol} {offset : Nat} :
    (symbol, offset) ∈ chart.unresolved input ↔
      (∃ rule ∈ input.grammar.rules, rule.symbol = symbol) ∧ offset ≤ input.length ∧
        chart.known? offset symbol = none := by
  rw [unresolved, Finset.mem_filter, Finset.mem_product, Finset.mem_range_succ_iff]
  simp [and_assoc]

theorem card_unresolved_le (chart : Chart V) (input : Input V) :
    (chart.unresolved input).card ≤ input.grammar.rules.length * (input.length + 1) := by
  have symbols : (input.grammar.rules.map (·.symbol)).toFinset.card ≤
      input.grammar.rules.length := by
    have bounded := List.toFinset_card_le (input.grammar.rules.map (·.symbol))
    rwa [List.length_map] at bounded
  calc (chart.unresolved input).card
    _ ≤ ((input.grammar.rules.map (·.symbol)).toFinset ×ˢ
          Finset.range (input.length + 1)).card := Finset.card_filter_le _ _
    _ = (input.grammar.rules.map (·.symbol)).toFinset.card * (input.length + 1) := by
        rw [Finset.card_product, Finset.card_range]
    _ ≤ input.grammar.rules.length * (input.length + 1) := Nat.mul_le_mul_right _ symbols

theorem Extends.unresolved_subset {before after : Chart V} (grown : before.Extends after)
    (input : Input V) : after.unresolved input ⊆ before.unresolved input := by
  rintro ⟨symbol, offset⟩ member
  obtain ⟨isRule, inside, unknown⟩ := mem_unresolved.1 member
  exact mem_unresolved.2 ⟨isRule, inside, grown.unknown unknown⟩

theorem card_unresolved_enter {chart : Chart V} {input : Input V} {cell : LexicalCell V}
    {symbol : Symbol} {rule : Rule V} (held : chart.Holds cell) (arena : chart.Arena input)
    (isRule : input.grammar.rule? symbol = some rule)
    (unknown : chart.known? cell.position.offset symbol = none) :
    ((chart.enter cell.position.offset symbol).unresolved input).card <
      (chart.unresolved input).card := by
  refine Finset.card_lt_card (Finset.ssubset_iff_of_subset
    ((enter_extends held unknown).unresolved_subset input) |>.2
      ⟨(symbol, cell.position.offset), ?_, ?_⟩)
  · have size := Input.rest?_size (held.scanned arena).rest?
    exact mem_unresolved.2 ⟨⟨rule, List.mem_of_find?_eq_some isRule, Grammar.rule?_symbol isRule⟩,
      by omega, unknown⟩
  · intro member
    have still := (mem_unresolved.1 member).2.2
    rw [held.known?_enter, if_pos ⟨rfl, rfl⟩] at still
    cases still

/-- A sound chart with at most so many rules unresolved. -/
structure Ready (chart : Chart V) (input : Input V) (bound : Nat) : Prop where
  sound : chart.Sound input
  within : (chart.unresolved input).card ≤ bound

theorem Ready.extends {before after : Chart V} {input : Input V} {bound : Nat}
    (ready : before.Ready input bound) (grown : before.Extends after) (sound : after.Sound input) :
    after.Ready input bound :=
  ⟨sound, Nat.le_trans (Finset.card_le_card (grown.unresolved_subset input)) ready.within⟩

theorem Ready.after {task : Task V} {before after : Chart V} {answer : Answer V}
    {input : Input V} {bound : Nat} (ready : before.Ready input bound)
    (wellFormed : input.grammar.WellFormed)
    (evaluates : Evaluates input task before answer after) (begins : task.Begins input before) :
    after.Ready input bound ∧ before.Extends after ∧ answer.Derived input after task := by
  obtain ⟨sound, grown, derived⟩ := evaluates.sound wellFormed ready.sound begins
  exact ⟨ready.extends grown sound, grown, derived⟩

/-- A resolution comes to the answers of the relation as long as at most so many rules are
unresolved. -/
def Resolution.Adequate (resolve : Resolution V) (input : Input V) (bound : Nat) : Prop :=
  ∀ (cell : LexicalCell V) (symbol : Symbol) (chart after : Chart V) (found : Option (Token V)),
    chart.Ready input bound → chart.Holds cell → resolve cell symbol chart = (found, after) →
      Evaluates input (.resolve cell symbol) chart (.token found) after

/-! ### Elements -/

section Elements

variable {input : Input V} {resolve : Resolution V} {bound : Nat} {cursor : Position}
  {chart after : Chart V} {found : Option (Run V)}

theorem matchLiteral_evaluates {text : String} (valid : (input.rest? cursor.offset).isSome)
    (done : matchLiteral input text cursor chart = (found, after)) :
    Evaluates input (.element (.literal text) cursor) chart (.run found) after := by
  obtain ⟨leaf, opened, asked⟩ := literalAt_exists chart text valid
  simp only [matchLiteral, asked] at done
  cases done
  exact .literal asked

theorem matchSymbol_evaluates {element : Element} {symbol : Symbol}
    (adequate : resolve.Adequate input bound) (ready : chart.Ready input bound)
    (valid : (input.rest? cursor.offset).isSome) (names : element.symbol? = some symbol)
    (done : matchSymbol input resolve symbol element.label? cursor chart = (found, after)) :
    Evaluates input (.element element cursor) chart (.run found) after := by
  obtain ⟨cell, opened, asked⟩ := syntaxCell_exists chart valid
  obtain ⟨arena, gained, held, -⟩ := syntaxCell_spec ready.sound.arena asked
  have readyOpened := ready.extends gained.grown (ready.sound.gains gained arena)
  cases resolved : resolve cell.lexical symbol opened with
  | mk token last =>
      simp only [matchSymbol, asked, resolved] at done
      cases done
      exact .reference names asked (adequate _ _ _ _ _ readyOpened held resolved)

/-- Each round that is followed by another consumes something, so the text that remains bounds
their number. -/
theorem matchPasses_evaluates {elements : List Element} {min : Nat} {max : Option Nat}
    (wellFormed : input.grammar.WellFormed)
    (isPass : ∀ {cursor chart found after}, chart.Ready input bound →
      (input.rest? cursor.offset).isSome →
      matchSequence input resolve elements cursor chart = (found, after) →
      Evaluates input (.sequence elements cursor) chart (.run found) after)
    {budget count : Nat} (ready : chart.Ready input bound)
    (valid : (input.rest? cursor.offset).isSome)
    (enough : input.length < budget + cursor.offset)
    (done : matchPasses (matchSequence input resolve elements) min max budget count cursor chart =
      (found, after)) :
    Evaluates input (.rounds elements min max count cursor) chart (.run found) after := by
  induction budget generalizing count cursor chart found after with
  | zero =>
      obtain ⟨rest, here⟩ := Option.isSome_iff_exists.1 valid
      have size := Input.rest?_size here
      omega
  | succ budget ih =>
      rw [matchPasses] at done
      split at done
      · next full =>
          cases done
          exact .roundsFull full
      · next open_ =>
          have room : max.any (· ≤ count) = false := by simpa using open_
          split at done
          · next between matched =>
              cases done
              exact .roundsStopped room (isPass ready valid matched)
          · next parts next between matched =>
              have round := isPass ready valid matched
              obtain ⟨readyBetween, grown, derived⟩ := ready.after wellFormed round valid
              obtain ⟨validNext, forward⟩ :=
                Evaluates.run_valid (derived _ _ rfl) readyBetween.sound valid
              split at done
              · next idle =>
                  dsimp only at done
                  rw [if_pos (Nat.le_max_right count min)] at done
                  cases done
                  exact .roundsIdle room round idle
              · next apart =>
                  have enoughNext : input.length < budget + next.offset := by omega
                  dsimp only at done
                  split at done
                  · next last rounds =>
                      cases done
                      exact .roundsOnward room round apart
                        (ih readyBetween validNext enoughNext rounds)
                  · next more stop last rounds =>
                      cases done
                      exact .roundsOnward room round apart
                        (ih readyBetween validNext enoughNext rounds)

mutual

theorem matchElement_evaluates (wellFormed : input.grammar.WellFormed)
    (adequate : resolve.Adequate input bound) (element : Element) (cursor : Position)
    (chart after : Chart V) (found : Option (Run V)) (ready : chart.Ready input bound)
    (valid : (input.rest? cursor.offset).isSome)
    (done : matchElement input resolve element cursor chart = (found, after)) :
    Evaluates input (.element element cursor) chart (.run found) after := by
  cases element with
  | literal text => exact matchLiteral_evaluates valid done
  | symbol name => exact matchSymbol_evaluates adequate ready valid rfl done
  | labelled name label => exact matchSymbol_evaluates adequate ready valid rfl done
  | repeated elements min max =>
      refine .repeated (matchPasses_evaluates wellFormed ?_ ready valid (by omega) done)
      intro cursor chart found after ready valid done
      exact matchSequence_evaluates wellFormed adequate elements cursor chart after found ready
        valid done

theorem matchSequence_evaluates (wellFormed : input.grammar.WellFormed)
    (adequate : resolve.Adequate input bound) (elements : List Element) (cursor : Position)
    (chart after : Chart V) (found : Option (Run V)) (ready : chart.Ready input bound)
    (valid : (input.rest? cursor.offset).isSome)
    (done : matchSequence input resolve elements cursor chart = (found, after)) :
    Evaluates input (.sequence elements cursor) chart (.run found) after := by
  cases elements with
  | nil =>
      cases done
      exact .sequenceDone
  | cons element rest =>
      rw [matchSequence] at done
      split at done
      · next between matched =>
          cases done
          exact .sequenceStuck (matchElement_evaluates wellFormed adequate element cursor chart
            _ none ready valid matched)
      · next parts next between matched =>
          have first := matchElement_evaluates wellFormed adequate element cursor chart between
            _ ready valid matched
          obtain ⟨readyBetween, -, derived⟩ := ready.after wellFormed first valid
          have validNext :=
            (Evaluates.run_valid (derived _ _ rfl) readyBetween.sound valid).1
          split at done
          · next last others =>
              cases done
              exact .sequenceStep first (matchSequence_evaluates wellFormed adequate rest next
                between _ none readyBetween validNext others)
          · next more stop last others =>
              cases done
              exact .sequenceStep first (matchSequence_evaluates wellFormed adequate rest next
                between _ _ readyBetween validNext others)

end

end Elements

/-! ### Rules -/

section Rules

variable {input : Input V} {resolve : Resolution V} {bound : Nat} {cell : LexicalCell V}
  {symbol : Symbol} {chart after : Chart V}

theorem makeNode_cons (symbol : Symbol) (index : Nat) (head : Child V) (tail : List (Child V))
    (chart : Chart V) :
    ∃ node made, makeNode symbol index (head :: tail) chart = (some node, made) := by
  unfold makeNode
  rw [List.getLast?_cons]
  exact ⟨_, _, rfl⟩

theorem Ready.made {index : Nat} {parts : List (Child V)} {node : Token V} {made : Chart V}
    (ready : chart.Ready input bound)
    (done : makeNode symbol index parts chart = (some node, made)) :
    made.Ready input bound ∧ chart.Extends made := by
  obtain ⟨sound, grown⟩ := ready.sound.made done
  exact ⟨ready.extends grown sound, grown⟩

theorem seed_evaluates (wellFormed : input.grammar.WellFormed)
    (adequate : resolve.Adequate input bound) {alternatives : List (Alternative V × Nat)}
    {best found : Option (Token V)} (ready : chart.Ready input bound) (held : chart.Holds cell)
    (done : seed input resolve symbol cell.position alternatives best chart = (found, after)) :
    Evaluates input (.seeds cell symbol alternatives best) chart (.token found) after := by
  induction alternatives generalizing best chart with
  | nil =>
      cases done
      exact .seedsDone
  | cons entry rest ih =>
      rcases entry with ⟨alternative, index⟩
      rw [seed] at done
      split at done
      · next recursive => exact .seedsSkipped recursive (ih ready held done)
      · next notRecursive =>
          have plain : alternative.recursive = false := by simpa using notRecursive
          have valid := held.valid ready.sound.arena
          cases matched : matchSequence input resolve alternative.elements cell.position chart with
          | mk run between =>
              have sequence := matchSequence_evaluates wellFormed adequate _ _ _ _ _ ready valid
                matched
              obtain ⟨readyBetween, grown, -⟩ := ready.after wellFormed sequence valid
              have heldBetween := held.mono grown
              simp only [matched] at done
              cases run with
              | none => exact .seedsFailed plain sequence (ih readyBetween heldBetween done)
              | some run =>
                  rcases run with ⟨parts, stop⟩
                  cases parts with
                  | nil => exact .seedsEmpty plain sequence (ih readyBetween heldBetween done)
                  | cons head tail =>
                      obtain ⟨node, made, nodeMade⟩ := makeNode_cons symbol index head tail between
                      obtain ⟨readyMade, grownMade⟩ := readyBetween.made nodeMade
                      simp only [nodeMade] at done
                      exact .seedsMatched plain sequence nodeMade
                        (ih readyMade (heldBetween.mono grownMade) done)

/-- An alternative that starts with the rule itself fails behind the best node, or makes a node with
it as the first part. -/
theorem extendBy_cases {alternative : Alternative V} {index : Nat} {head : Element}
    {tail : List Element} {best : Token V} {longer : Option (Token V)}
    (starts : alternative.elements = head :: tail)
    (done : extendBy input resolve symbol alternative index best chart = (longer, after)) :
    ∃ run between, matchSequence input resolve tail best.stop chart = (run, between) ∧
      (run = none ∧ longer = none ∧ after = between ∨
        ∃ parts stop node, run = some (parts, stop) ∧ longer = some node ∧
          makeNode symbol index (⟨head.label?, best⟩ :: parts) between = (some node, after)) := by
  unfold extendBy at done
  cases matched : matchSequence input resolve tail best.stop chart with
  | mk run between =>
      refine ⟨run, between, rfl, ?_⟩
      simp only [starts, matched] at done
      cases run with
      | none =>
          cases done
          exact .inl ⟨rfl, rfl, rfl⟩
      | some run =>
          rcases run with ⟨parts, stop⟩
          rcases makeNode_cons symbol index ⟨head.label?, best⟩ parts between with
            ⟨node, made, nodeMade⟩
          cases nodeMade.symm.trans done
          exact .inr ⟨parts, stop, node, rfl, rfl, nodeMade⟩

theorem extendPass_evaluates (wellFormed : input.grammar.WellFormed)
    (adequate : resolve.Adequate input bound) {alternatives : List (Alternative V × Nat)}
    {best node : Token V} (ready : chart.Ready input bound) (held : chart.Holds cell)
    (listed : input.grammar.Lists symbol alternatives)
    (isBest : Derives input chart (.matched cell symbol best))
    (done : extendPass input resolve symbol cell.position alternatives best chart =
      (node, after)) :
    Evaluates input (.pass cell symbol alternatives best) chart (.token (some node)) after := by
  induction alternatives generalizing best chart with
  | nil =>
      cases done
      exact .passDone
  | cons entry rest ih =>
      rcases entry with ⟨alternative, index⟩
      have isAlternative : input.grammar.alternative? symbol index = some alternative :=
        listed _ (List.mem_cons_self ..)
      rw [extendPass] at done
      split at done
      · next recursive =>
          obtain ⟨head, tail, starts, -⟩ := exists_head_of_startsWithItself
            ((wellFormed.recursive_eq isAlternative).symm.trans recursive)
          have valid := (Evaluates.token_valid isBest ready.sound held).1
          cases tried : extendBy input resolve symbol alternative index best chart with
          | mk longer made =>
              rcases extendBy_cases starts tried with ⟨run, between, matched, possible⟩
              have sequence := matchSequence_evaluates wellFormed adequate _ _ _ _ _ ready valid
                matched
              obtain ⟨readyBetween, grown, derived⟩ := ready.after wellFormed sequence valid
              have heldBetween := held.mono grown
              simp only [tried] at done
              rcases possible with ⟨rfl, rfl, rfl⟩ | ⟨parts, stop, node, rfl, rfl, nodeMade⟩
              · exact .passFailed recursive starts sequence
                  (ih readyBetween heldBetween listed.tail (isBest.mono grown) done)
              · obtain ⟨readyMade, grownMade⟩ := readyBetween.made nodeMade
                have heldMade := heldBetween.mono grownMade
                simp only [reachesFurther, decide_eq_true_eq] at done
                split at done
                · next further =>
                    have isNode := (Derives.longer wellFormed isAlternative recursive starts
                      (isBest.mono grown) (derived parts stop rfl) nodeMade further).mono
                        grownMade
                    obtain ⟨replaced, keeps⟩ := readyMade.sound.replace heldMade
                      (.extended symbol cell.position best.stop node.stop) isNode
                    exact .passLonger recursive starts sequence nodeMade further
                      (ih (readyMade.extends keeps replaced) (heldMade.mono keeps) listed.tail
                        (isNode.mono keeps) done)
                · next short =>
                    exact .passShorter recursive starts sequence nodeMade short
                      (ih readyMade heldMade listed.tail
                        ((isBest.mono grown).mono grownMade) done)
      · next notRecursive =>
          have plain : alternative.recursive = false := by simpa using notRecursive
          exact .passSkipped plain (ih ready held listed.tail isBest done)

/-- Each pass that is followed by another makes the node longer, so the text bounds their
number. -/
theorem extend_evaluates (wellFormed : input.grammar.WellFormed)
    (adequate : resolve.Adequate input bound) {alternatives : List (Alternative V × Nat)}
    {budget : Nat} {best node : Token V} (ready : chart.Ready input bound)
    (held : chart.Holds cell) (listed : input.grammar.Lists symbol alternatives)
    (isBest : Derives input chart (.matched cell symbol best))
    (enough : input.length ≤ budget + best.stop.offset)
    (done : extend input resolve symbol cell.position alternatives budget best chart =
      (node, after)) :
    Evaluates input (.extend cell symbol alternatives best) chart (.token (some node)) after := by
  induction budget generalizing best chart with
  | zero =>
      rw [extend] at done
      cases passed : extendPass input resolve symbol cell.position alternatives best chart with
      | mk next between =>
          have pass := extendPass_evaluates wellFormed adequate ready held listed isBest passed
          obtain ⟨readyBetween, grown, token, ⟨⟩, isNext, -⟩ :=
            ready.after wellFormed pass ⟨held, listed, isBest⟩
          obtain ⟨rest, here⟩ := Option.isSome_iff_exists.1
            (Evaluates.token_valid isNext readyBetween.sound (held.mono grown)).1
          have size := Input.rest?_size here
          simp only [passed] at done
          rw [if_neg (by omega)] at done
          cases done
          exact .extendDone pass (by omega)
  | succ budget ih =>
      rw [extend] at done
      cases passed : extendPass input resolve symbol cell.position alternatives best chart with
      | mk next between =>
          have pass := extendPass_evaluates wellFormed adequate ready held listed isBest passed
          obtain ⟨readyBetween, grown, token, ⟨⟩, isNext, -⟩ :=
            ready.after wellFormed pass ⟨held, listed, isBest⟩
          simp only [passed] at done
          split at done
          · next longer =>
              exact .extendMore pass longer
                (ih readyBetween (held.mono grown) isNext (by omega) done)
          · next short =>
              cases done
              exact .extendDone pass short

theorem grow_evaluates (wellFormed : input.grammar.WellFormed)
    (adequate : resolve.Adequate input bound) {rule : Rule V} {found : Option (Token V)}
    (ready : chart.Ready input (bound + 1)) (held : chart.Holds cell)
    (isRule : input.grammar.rule? symbol = some rule)
    (unknown : chart.known? cell.position.offset symbol = none)
    (done : grow input resolve rule cell.position chart = (found, after)) :
    Evaluates input (.resolve cell symbol) chart (.token found) after := by
  obtain ⟨entered, grown⟩ := ready.sound.enter held unknown
  have fewer := card_unresolved_enter held ready.sound.arena isRule unknown
  have readyEntered : (chart.enter cell.position.offset symbol).Ready input bound :=
    ⟨entered, by have within := ready.within; omega⟩
  have heldEntered := held.mono grown
  have listed := Grammar.lists_zipIdx isRule
  simp only [grow, Grammar.rule?_symbol isRule] at done
  split at done
  · next between seeded =>
      cases done
      exact .barren unknown isRule
        (seed_evaluates wellFormed adequate readyEntered heldEntered seeded)
  · next first between seeded =>
      have seeds := seed_evaluates wellFormed adequate readyEntered heldEntered seeded
      obtain ⟨readyBetween, further, derived⟩ :=
        readyEntered.after wellFormed seeds ⟨heldEntered, listed, nofun⟩
      have heldBetween := heldEntered.mono further
      have isFirst := derived first rfl
      obtain ⟨stored, keeps⟩ := readyBetween.sound.store heldBetween first isFirst
      cases extended : extend input resolve symbol cell.position rule.alternatives.zipIdx
          input.length first (between.store cell.position.offset symbol (some first)) with
      | mk node last =>
          simp only [extended] at done
          cases done
          exact .grown unknown isRule seeds
            (extend_evaluates wellFormed adequate (readyBetween.extends keeps stored)
              (heldBetween.mono keeps) listed (isFirst.mono keeps) (by omega) extended)

end Rules

/-! ### The budget for rules inside rules -/

theorem resolveWithin_adequate {input : Input V} (wellFormed : input.grammar.WellFormed)
    (budget : Nat) : (resolveWithin input budget).Adequate input budget := by
  induction budget with
  | zero =>
      intro cell symbol chart after found ready held done
      simp only [resolveWithin] at done
      split at done
      · next entry known =>
          cases done
          exact .known known
      · next unknown =>
          cases done
          cases isRule : input.grammar.rule? symbol with
          | none => exact .lexical unknown isRule
          | some rule =>
              have fewer := card_unresolved_enter held ready.sound.arena isRule unknown
              have within := ready.within
              omega
  | succ budget ih =>
      intro cell symbol chart after found ready held done
      rw [resolveWithin, resolveStep] at done
      split at done
      · next entry known =>
          cases done
          exact .known known
      · next unknown =>
          split at done
          · next noRule =>
              cases done
              exact .lexical unknown noRule
          · next rule isRule => exact grow_evaluates wellFormed ih ready held isRule unknown done

theorem Sound.ready {chart : Chart V} {input : Input V} (sound : chart.Sound input) :
    chart.Ready input (input.grammar.rules.length * (input.length + 1)) :=
  ⟨sound, chart.card_unresolved_le input⟩

theorem resolve_evaluates {input : Input V} {cell : LexicalCell V} {symbol : Symbol}
    {chart after : Chart V} {found : Option (Token V)} (wellFormed : input.grammar.WellFormed)
    (sound : chart.Sound input) (held : chart.Holds cell)
    (done : resolve input cell symbol chart = (found, after)) :
    Evaluates input (.resolve cell symbol) chart (.token found) after :=
  resolveWithin_adequate wellFormed _ _ _ _ _ _ sound.ready held done

end Chart

end Packrat
