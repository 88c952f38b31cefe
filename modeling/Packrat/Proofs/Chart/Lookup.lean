import Packrat.Proofs.Chart.Reachable
import Packrat.Regex.Engine
import Packrat.Scalar.Basic

/-!
What holds of every lookup in a session on a text under a grammar that has been built: a token that
is found is derived, the lookup comes to an end, and no rule is resolved twice at one place.

The grammar of sums at the end is left recursive; sums of digits serve as the example.
-/

set_option autoImplicit false
set_option linter.unusedSectionVars false

namespace Packrat

/-! ### Sums of digits -/

namespace Sums

def sumSymbol : Symbol := ⟨"SUM"⟩

def digitSymbol : Symbol := ⟨"DIGIT"⟩

def declarations : List (Declaration Scalar) :=
  [ .blanks [' '],
    .root sumSymbol,
    .terminal digitSymbol [.pattern (.words ["0", "1"])],
    .rule sumSymbol [
      .pattern [.labelled sumSymbol "left", .literal "+", .labelled digitSymbol "right"],
      .pattern [.symbol digitSymbol]]]

def grammar : Grammar Scalar where
  blanks := [' ']
  root := sumSymbol
  terminals := [⟨digitSymbol, [⟨.words [['0'], ['1']], none⟩]⟩]
  aliases := {}
  rules := [
    ⟨sumSymbol, [
      ⟨[.labelled sumSymbol "left", .literal "+", .labelled digitSymbol "right"], none, true⟩,
      ⟨[.symbol digitSymbol], none, false⟩]⟩]

theorem build_eq : Grammar.build Regex.engine declarations = .ok grammar := by
  rfl

def input : Input Scalar where
  grammar := grammar
  source := ['1', ' ', '+', '1']

end Sums

/-! ### Tokens that are found -/

variable {V : Type} [Kinded V]

namespace Chart

variable {engine : RegexEngine} {declarations : List (Declaration V)} {input : Input V}
  {places : Position → Prop} {chart : Chart V}

/-- Whatever a lookup returns is derived in the cell where it was asked for: in a syntax cell, at
the start of the text, and as the root of a parse. -/
theorem Reachable.lookup_derives (built : Grammar.build engine declarations = .ok input.grammar)
    (reachable : chart.Reachable input places) :
    (∀ offset cell symbol token after, chart.syntacticAt? offset = some cell →
      chart.token input cell symbol = (some token, after) →
        Derives input after (.matched cell.lexical symbol token)) ∧
    (∀ symbol token after, chart.resolveAtStart input symbol = (some token, after) →
      ∃ cell, after.cellFrom? input 0 = some cell ∧
        Derives input after (.matched cell symbol token)) ∧
    (∀ root, (input.grammar.parse input.source).root = some root →
      ∃ cell, (input.grammar.parse input.source).chart.cellFrom? input 0 = some cell ∧
        Derives input (input.grammar.parse input.source).chart
          (.matched cell input.grammar.root root)) := by
  have wellFormed := Grammar.build_wellFormed built
  have sound := reachable.sound wellFormed
  refine ⟨?_, ?_, (parse_sound wellFormed).2.2⟩
  · intro offset cell symbol token after here done
    exact (token_sound wellFormed sound here done).2.2 token rfl
  · intro symbol token after done
    exact (resolveAtStart_sound wellFormed sound done).2.2 token rfl

/-- The sum of two digits is derived. -/
theorem sums_root_derived :
    ∃ root cell, (Sums.input.grammar.parse Sums.input.source).root = some root ∧
      root.stop.offset = 4 ∧
      Derives Sums.input (Sums.input.grammar.parse Sums.input.source).chart
        (.matched cell Sums.sumSymbol root) := by
  have ends :
      (Sums.input.grammar.parse Sums.input.source).root.map (·.stop.offset) = some 4 := by
    decide +kernel
  obtain ⟨root, isRoot, stops⟩ := Option.map_eq_some_iff.1 ends
  obtain ⟨cell, -, derived⟩ :=
    (Reachable.lookup_derives Sums.build_eq
      (.opened : ({} : Chart Scalar).Reachable Sums.input fun _ => True)).2.2 root isRoot
  exact ⟨root, cell, isRoot, stops, derived⟩

/-! ### Lookups come to an end -/

theorem token_enters {offset : Nat} {cell : SyntaxCell V} {symbol : Symbol} {rule : Rule V}
    (wellFormed : input.grammar.WellFormed) (sound : chart.Sound input)
    (here : chart.syntacticAt? offset = some cell)
    (unknown : chart.known? offset symbol = none)
    (isRule : input.grammar.rule? symbol = some rule) :
    ∃ new, (chart.token input cell symbol).2.entered =
      new ++ (symbol, offset) :: chart.entered := by
  cases done : chart.token input cell symbol with
  | mk found after =>
      have held := sound.arena.holds here
      have evaluates := token_evaluates wellFormed sound here done
      cases sound.arena.syntactic_position here
      obtain ⟨entered, grown⟩ := sound.enter held unknown
      have begins : (Task.seeds cell.lexical symbol rule.alternatives.zipIdx none).Begins input
          (chart.enter cell.lexical.position.offset symbol) :=
        ⟨held.mono grown, Grammar.lists_zipIdx isRule, nofun⟩
      cases evaluates with
      | known known => cases unknown.symm.trans known
      | lexical _ noRule => cases noRule.symm.trans isRule
      | barren _ isRule' seeds =>
          cases isRule.symm.trans isRule'
          obtain ⟨new, all, -⟩ := (seeds.sound wellFormed entered begins).2.1.entered
          exact ⟨new, all⟩
      | @grown _ _ _ first _ _ between _ _ isRule' seeds extend =>
          cases isRule.symm.trans isRule'
          obtain ⟨soundSeed, further, derived⟩ := seeds.sound wellFormed entered begins
          have heldSeed := (held.mono grown).mono further
          have isFirst := derived first rfl
          obtain ⟨stored, keeps⟩ := soundSeed.store heldSeed first isFirst
          have last := (extend.sound wellFormed stored
            ⟨heldSeed.mono keeps, Grammar.lists_zipIdx isRule, isFirst.mono keeps⟩).2.1
          obtain ⟨new, all, -⟩ := ((further.trans keeps).trans last).entered
          exact ⟨new, all⟩

/-- Every lookup and every matching of elements comes to an end, with one answer and one chart, and
those are what the functions return; and in one session the alternatives of a rule are tried at a
place at most once. -/
theorem Reachable.lookup_terminates (built : Grammar.build engine declarations = .ok input.grammar)
    (reachable : chart.Reachable input places) :
    (∀ offset cell symbol found after, chart.syntacticAt? offset = some cell →
      (Evaluates input (.resolve cell.lexical symbol) chart (.token found) after ↔
        chart.token input cell symbol = (found, after))) ∧
    (∀ elements cursor found after, (input.rest? cursor.offset).isSome →
      (Evaluates input (.sequence elements cursor) chart (.run found) after ↔
        matchSequence input (resolve input) elements cursor chart = (found, after))) ∧
    (∀ element cursor found after, (input.rest? cursor.offset).isSome →
      (Evaluates input (.element element cursor) chart (.run found) after ↔
        matchElement input (resolve input) element cursor chart = (found, after))) ∧
    (∀ offset cell symbol rule, chart.syntacticAt? offset = some cell →
      chart.known? offset symbol = none → input.grammar.rule? symbol = some rule →
        ∃ new, (chart.token input cell symbol).2.entered =
          new ++ (symbol, offset) :: chart.entered) ∧
    chart.entered.Nodup := by
  have wellFormed := Grammar.build_wellFormed built
  have sound := reachable.sound wellFormed
  have adequate := resolveWithin_adequate wellFormed
    (input.grammar.rules.length * (input.length + 1))
  refine ⟨?_, ?_, ?_, ?_, reachable.entered_nodup wellFormed⟩
  · intro offset cell symbol found after here
    exact Evaluates.token_iff (token_evaluates wellFormed sound here rfl) found after
  · intro elements cursor found after valid
    exact Evaluates.run_iff (matchSequence_evaluates wellFormed adequate elements cursor chart _ _
      sound.ready valid rfl) found after
  · intro element cursor found after valid
    exact Evaluates.run_iff (matchElement_evaluates wellFormed adequate element cursor chart _ _
      sound.ready valid rfl) found after
  · intro offset cell symbol rule here unknown isRule
    exact token_enters wellFormed sound here unknown isRule

/-- While the sum of two digits is parsed, the rule of sums is entered once. -/
theorem sums_entered_once :
    (Sums.input.grammar.parse Sums.input.source).chart.entered = [(Sums.sumSymbol, 0)] ∧
      (Sums.input.grammar.parse Sums.input.source).chart.entered.Nodup :=
  ⟨by decide +kernel,
    (Reachable.lookup_terminates Sums.build_eq
      (.parsed : (Sums.input.grammar.parse Sums.input.source).chart.Reachable Sums.input
        fun _ => True)).2.2.2.2⟩

end Chart

end Packrat
