import Packrat.Proofs.Bridge.Basic
import Packrat.Proofs.Chart.Reachable

/-!
A symbol is resolved in the same way over two texts where the places correspond. Step by step, an
evaluation over the first text has one over the second beside it, with corresponding answers and
charts (`Bridge.evaluates`). Since every lookup is an evaluation, lookups that start at
corresponding places find corresponding tokens (`Bridge.tokenAt`, `Bridge.resolveAtStart`).
-/

set_option autoImplicit false
set_option linter.unusedSectionVars false

namespace Packrat

variable {V : Type} [Kinded V]

theorem Chart.resolveAtStart_eq_iff {input : Input V} {chart : Chart V} {symbol : Symbol}
    {result : Option (Token V) × Chart V} :
    chart.resolveAtStart input symbol = result ↔
      chart.tokenAt input .start symbol = .ok result := by
  obtain ⟨cell, opened, asked⟩ := syntaxCell_exists chart (start_valid input)
  unfold resolveAtStart tokenAt
  simp only [asked, Except.ok.injEq]

namespace Bridge

variable {first second : Input V} (bridge : Bridge first second)

/-! ### Tasks and answers that correspond -/

/-- The same task at corresponding places. What is to be matched has literal texts of the grammar
only. -/
inductive Tasks : Task V → Task V → Prop where
  | resolve {cell cell' symbol} : bridge.Cells cell cell' →
      Tasks (.resolve cell symbol) (.resolve cell' symbol)
  | seeds {cell cell' symbol alternatives best best'} : bridge.Cells cell cell' →
      (∀ entry ∈ alternatives, first.grammar.Uses entry.1.elements) →
      Option.Rel bridge.Tokens best best' →
      Tasks (.seeds cell symbol alternatives best) (.seeds cell' symbol alternatives best')
  | pass {cell cell' symbol alternatives best best'} : bridge.Cells cell cell' →
      (∀ entry ∈ alternatives, first.grammar.Uses entry.1.elements) →
      bridge.Tokens best best' →
      Tasks (.pass cell symbol alternatives best) (.pass cell' symbol alternatives best')
  | extend {cell cell' symbol alternatives best best'} : bridge.Cells cell cell' →
      (∀ entry ∈ alternatives, first.grammar.Uses entry.1.elements) →
      bridge.Tokens best best' →
      Tasks (.extend cell symbol alternatives best) (.extend cell' symbol alternatives best')
  | sequence {elements cursor cursor'} : first.grammar.Uses elements →
      bridge.Meets cursor cursor' →
      Tasks (.sequence elements cursor) (.sequence elements cursor')
  | element {element cursor cursor'} : first.grammar.Uses [element] →
      bridge.Meets cursor cursor' →
      Tasks (.element element cursor) (.element element cursor')
  | rounds {elements min max count cursor cursor'} : first.grammar.Uses elements →
      bridge.Meets cursor cursor' →
      Tasks (.rounds elements min max count cursor) (.rounds elements min max count cursor')

inductive Answers : Answer V → Answer V → Prop where
  | token {found found'} : Option.Rel bridge.Tokens found found' →
      Answers (.token found) (.token found')
  | run {found found'} : Option.Rel bridge.Runs found found' → Answers (.run found) (.run found')

def Follows (task' : Task V) (chart' : Chart V) (answer : Answer V) (after : Chart V) : Prop :=
  ∃ answer' after', Evaluates second task' chart' answer' after' ∧
    bridge.Answers answer answer' ∧ bridge.Charts after after'

variable {bridge}

/-! ### Answers by their kind -/

section Kinds

variable {task' : Task V} {chart' after : Chart V}

theorem Follows.none_ (follows : bridge.Follows task' chart' (.token none) after) :
    ∃ after', Evaluates second task' chart' (.token none) after' ∧ bridge.Charts after after' := by
  rcases follows with ⟨_, after', evaluates, ⟨both⟩, charts⟩
  rw [eq_none_of_rel_none both] at evaluates
  exact ⟨after', evaluates, charts⟩

theorem Follows.some_ {token : Token V}
    (follows : bridge.Follows task' chart' (.token (some token)) after) :
    ∃ token' after', Evaluates second task' chart' (.token (some token')) after' ∧
      bridge.Tokens token token' ∧ bridge.Charts after after' := by
  rcases follows with ⟨_, after', evaluates, ⟨both⟩, charts⟩
  obtain ⟨token', rfl, tokens⟩ := exists_of_rel_some both
  exact ⟨token', after', evaluates, tokens, charts⟩

theorem Follows.token {found : Option (Token V)}
    (follows : bridge.Follows task' chart' (.token found) after) :
    ∃ found' after', Evaluates second task' chart' (.token found') after' ∧
      Option.Rel bridge.Tokens found found' ∧ bridge.Charts after after' := by
  rcases follows with ⟨_, after', evaluates, ⟨both⟩, charts⟩
  exact ⟨_, after', evaluates, both, charts⟩

theorem Follows.stuck (follows : bridge.Follows task' chart' (.run none) after) :
    ∃ after', Evaluates second task' chart' (.run none) after' ∧ bridge.Charts after after' := by
  rcases follows with ⟨_, after', evaluates, answers, charts⟩
  cases answers with
  | run both =>
      rw [eq_none_of_rel_none both] at evaluates
      exact ⟨after', evaluates, charts⟩

theorem Follows.matched {parts : List (Child V)} {stop : Position}
    (follows : bridge.Follows task' chart' (.run (some (parts, stop))) after) :
    ∃ parts' stop' after', Evaluates second task' chart' (.run (some (parts', stop'))) after' ∧
      bridge.Parts parts parts' ∧ bridge.Meets stop stop' ∧ bridge.Charts after after' := by
  rcases follows with ⟨_, after', evaluates, answers, charts⟩
  cases answers with
  | run both =>
      obtain ⟨⟨parts', stop'⟩, rfl, runs⟩ := exists_of_rel_some both
      exact ⟨parts', stop', after', evaluates, runs.parts, runs.stop, charts⟩

theorem Follows.run {found : Option (Run V)}
    (follows : bridge.Follows task' chart' (.run found) after) :
    ∃ found' after', Evaluates second task' chart' (.run found') after' ∧
      Option.Rel bridge.Runs found found' ∧ bridge.Charts after after' := by
  rcases follows with ⟨_, after', evaluates, answers, charts⟩
  cases answers with
  | run both => exact ⟨_, after', evaluates, both, charts⟩

end Kinds

/-! ### What the steps compare -/

section Steps

variable {place place' : Position}

theorem stop_lt_iff {token token' other other' : Token V} (tokens : bridge.Tokens token token')
    (others : bridge.Tokens other other') :
    token.stop.offset < other.stop.offset ↔ token'.stop.offset < other'.stop.offset :=
  bridge.lt_iff tokens.stop others.stop

theorem rel_better {node node' : Token V} {best best' : Option (Token V)}
    (tokens : bridge.Tokens node node') (bests : Option.Rel bridge.Tokens best best') :
    Option.Rel bridge.Tokens (if Chart.reachesFurther node best then some node else best)
      (if Chart.reachesFurther node' best' then some node' else best') := by
  cases bests with
  | none => exact .some tokens
  | @some other other' others =>
      have same : Chart.reachesFurther node' (some other') =
          Chart.reachesFurther node (some other) :=
        decide_eq_decide.2 (stop_lt_iff others tokens).symm
      rw [same]
      cases Chart.reachesFurther node (some other) with
      | false => exact .some others
      | true => exact .some tokens

theorem rel_behind {parts parts' : List (Child V)} {found found' : Option (Run V)}
    (corresponding : bridge.Parts parts parts') (runs : Option.Rel bridge.Runs found found') :
    Option.Rel bridge.Runs (Run.behind parts found) (Run.behind parts' found') := by
  cases runs with
  | none => exact .none
  | some further => exact .some ⟨corresponding.append further.parts, further.stop⟩

theorem rel_settled (min count : Nat) (meets : bridge.Meets place place') :
    Option.Rel bridge.Runs (Run.settled min count place) (Run.settled min count place') := by
  unfold Run.settled
  by_cases enough : min ≤ count
  · rw [if_pos enough, if_pos enough]
    exact .some ⟨.nil, meets⟩
  · rw [if_neg enough, if_neg enough]
    exact .none

theorem rel_single {label : Option String} {found found' : Option (Token V)}
    (both : Option.Rel bridge.Tokens found found') :
    Option.Rel bridge.Runs (found.map fun token => ([⟨label, token⟩], token.stop))
      (found'.map fun token => ([⟨label, token⟩], token.stop)) := by
  cases both with
  | none => exact .none
  | some tokens => exact .some ⟨.cons tokens .nil, tokens.stop⟩

theorem rel_literal {found found' : Option (Lexeme V)}
    (both : Option.Rel bridge.Lexemes found found') :
    Option.Rel bridge.Runs (found.map fun lexeme => ([⟨none, .leaf lexeme⟩], lexeme.stop))
      (found'.map fun lexeme => ([⟨none, .leaf lexeme⟩], lexeme.stop)) := by
  cases both with
  | none => exact .none
  | some lexemes => exact .some ⟨.cons (.leaf lexemes) .nil, lexemes.stop⟩

end Steps

/-! ### Evaluations -/

/-- An evaluation over the first text has one of the corresponding task beside it over the
second. -/
theorem evaluates {task task' : Task V} {chart chart' after : Chart V} {answer : Answer V}
    (run : Evaluates first task chart answer after) (tasks : bridge.Tasks task task')
    (charts : bridge.Charts chart chart') : bridge.Follows task' chart' answer after := by
  -- By induction on the evaluation over the first text. Each step compares offsets of
  -- corresponding places or looks at what corresponds, so the same step is possible over the
  -- second text.
  induction run generalizing task' chart' with
  | @known _ symbol _ _ here =>
      cases tasks with
      | resolve cells =>
          have both := charts.known? cells.aligned.position symbol
          rw [here] at both
          obtain ⟨known', here', entries⟩ := exists_of_rel_some both
          exact ⟨_, _, .known here', .token entries, charts⟩
  | @lexical _ symbol _ unknown noRule =>
      cases tasks with
      | resolve cells =>
          have both := charts.known? cells.aligned.position symbol
          rw [unknown] at both
          rw [← bridge.grammar_eq] at noRule
          exact ⟨_, _, .lexical (eq_none_of_rel_none both) noRule, .token (cells.lexeme? symbol),
            charts⟩
  | @barren _ symbol _ _ _ unknown isRule _ ihSeeds =>
      cases tasks with
      | resolve cells =>
          have both := charts.known? cells.aligned.position symbol
          rw [unknown] at both
          have uses := Grammar.uses_of_rule isRule
          rw [← bridge.grammar_eq] at isRule
          obtain ⟨after', seeds, chartsAfter⟩ :=
            (ihSeeds (.seeds cells uses .none) (charts.enter cells symbol)).none_
          exact ⟨_, _, .barren (eq_none_of_rel_none both) isRule seeds, .token .none, chartsAfter⟩
  | @grown _ symbol _ _ _ _ _ _ unknown isRule _ _ ihSeeds ihExtend =>
      cases tasks with
      | resolve cells =>
          have both := charts.known? cells.aligned.position symbol
          rw [unknown] at both
          have uses := Grammar.uses_of_rule isRule
          rw [← bridge.grammar_eq] at isRule
          obtain ⟨first', between', seeds, tokens, chartsBetween⟩ :=
            (ihSeeds (.seeds cells uses .none) (charts.enter cells symbol)).some_
          obtain ⟨found', after', extend, founds, chartsAfter⟩ :=
            (ihExtend (.extend cells uses tokens)
              (chartsBetween.store cells symbol (.some tokens))).token
          exact ⟨_, _, .grown (eq_none_of_rel_none both) isRule seeds extend, .token founds,
            chartsAfter⟩
  | seedsDone =>
      cases tasks with
      | seeds _ _ bests => exact ⟨_, _, .seedsDone, .token bests, charts⟩
  | seedsSkipped recursive _ ihSeeds =>
      cases tasks with
      | seeds cells uses bests =>
          obtain ⟨found', after', seeds, founds, chartsAfter⟩ :=
            (ihSeeds (.seeds cells (List.forall_mem_cons.1 uses).2 bests) charts).token
          exact ⟨_, _, .seedsSkipped recursive seeds, .token founds, chartsAfter⟩
  | seedsFailed plain _ _ ihSequence ihSeeds =>
      cases tasks with
      | seeds cells uses bests =>
          rcases List.forall_mem_cons.1 uses with ⟨usesHead, usesTail⟩
          obtain ⟨between', sequence, chartsBetween⟩ :=
            (ihSequence (.sequence usesHead cells.aligned.position) charts).stuck
          obtain ⟨found', after', seeds, founds, chartsAfter⟩ :=
            (ihSeeds (.seeds cells usesTail bests) chartsBetween).token
          exact ⟨_, _, .seedsFailed plain sequence seeds, .token founds, chartsAfter⟩
  | seedsEmpty plain _ _ ihSequence ihSeeds =>
      cases tasks with
      | seeds cells uses bests =>
          rcases List.forall_mem_cons.1 uses with ⟨usesHead, usesTail⟩
          obtain ⟨parts', stop', between', sequence, corresponding, -, chartsBetween⟩ :=
            (ihSequence (.sequence usesHead cells.aligned.position) charts).matched
          cases corresponding
          obtain ⟨found', after', seeds, founds, chartsAfter⟩ :=
            (ihSeeds (.seeds cells usesTail bests) chartsBetween).token
          exact ⟨_, _, .seedsEmpty plain sequence seeds, .token founds, chartsAfter⟩
  | seedsMatched plain _ made _ ihSequence ihSeeds =>
      cases tasks with
      | seeds cells uses bests =>
          rcases List.forall_mem_cons.1 uses with ⟨usesHead, usesTail⟩
          obtain ⟨parts', stop', between', sequence, corresponding, -, chartsBetween⟩ :=
            (ihSequence (.sequence usesHead cells.aligned.position) charts).matched
          obtain ⟨node', madeChart', made', nodes, chartsMade⟩ :=
            chartsBetween.makeNode corresponding made
          obtain ⟨found', after', seeds, founds, chartsAfter⟩ :=
            (ihSeeds (.seeds cells usesTail (rel_better nodes bests)) chartsMade).token
          exact ⟨_, _, .seedsMatched plain sequence made' seeds, .token founds, chartsAfter⟩
  | passDone =>
      cases tasks with
      | pass _ _ best => exact ⟨_, _, .passDone, .token (.some best), charts⟩
  | passSkipped plain _ ihPass =>
      cases tasks with
      | pass cells uses best =>
          obtain ⟨found', after', pass, founds, chartsAfter⟩ :=
            (ihPass (.pass cells (List.forall_mem_cons.1 uses).2 best) charts).token
          exact ⟨_, _, .passSkipped plain pass, .token founds, chartsAfter⟩
  | passFailed recursive starts _ _ ihSequence ihPass =>
      cases tasks with
      | pass cells uses best =>
          rcases List.forall_mem_cons.1 uses with ⟨usesHead, usesTail⟩
          rw [starts] at usesHead
          obtain ⟨between', sequence, chartsBetween⟩ :=
            (ihSequence (.sequence usesHead.tail best.stop) charts).stuck
          obtain ⟨found', after', pass, founds, chartsAfter⟩ :=
            (ihPass (.pass cells usesTail best) chartsBetween).token
          exact ⟨_, _, .passFailed recursive starts sequence pass, .token founds, chartsAfter⟩
  | passShorter recursive starts _ made short _ ihSequence ihPass =>
      cases tasks with
      | pass cells uses best =>
          rcases List.forall_mem_cons.1 uses with ⟨usesHead, usesTail⟩
          rw [starts] at usesHead
          obtain ⟨parts', stop', between', sequence, corresponding, -, chartsBetween⟩ :=
            (ihSequence (.sequence usesHead.tail best.stop) charts).matched
          obtain ⟨node', madeChart', made', nodes, chartsMade⟩ :=
            chartsBetween.makeNode (.cons best corresponding) made
          obtain ⟨found', after', pass, founds, chartsAfter⟩ :=
            (ihPass (.pass cells usesTail best) chartsMade).token
          exact ⟨_, _, .passShorter recursive starts sequence made'
            (mt (stop_lt_iff best nodes).2 short) pass, .token founds, chartsAfter⟩
  | passLonger recursive starts _ made long _ ihSequence ihPass =>
      cases tasks with
      | pass cells uses best =>
          rcases List.forall_mem_cons.1 uses with ⟨usesHead, usesTail⟩
          rw [starts] at usesHead
          obtain ⟨parts', stop', between', sequence, corresponding, -, chartsBetween⟩ :=
            (ihSequence (.sequence usesHead.tail best.stop) charts).matched
          obtain ⟨node', madeChart', made', nodes, chartsMade⟩ :=
            chartsBetween.makeNode (.cons best corresponding) made
          obtain ⟨found', after', pass, founds, chartsAfter⟩ :=
            (ihPass (.pass cells usesTail nodes)
              ((chartsMade.report _ _).store cells _ (.some nodes))).token
          exact ⟨_, _, .passLonger recursive starts sequence made'
            ((stop_lt_iff best nodes).1 long) pass, .token founds, chartsAfter⟩
  | extendDone _ short ihPass =>
      cases tasks with
      | extend cells uses best =>
          obtain ⟨node', after', pass, nodes, chartsAfter⟩ :=
            (ihPass (.pass cells uses best) charts).some_
          exact ⟨_, _, .extendDone pass (mt (stop_lt_iff best nodes).2 short),
            .token (.some nodes), chartsAfter⟩
  | extendMore _ long _ ihPass ihExtend =>
      cases tasks with
      | extend cells uses best =>
          obtain ⟨node', between', pass, nodes, chartsBetween⟩ :=
            (ihPass (.pass cells uses best) charts).some_
          obtain ⟨found', after', extend, founds, chartsAfter⟩ :=
            (ihExtend (.extend cells uses nodes) chartsBetween).token
          exact ⟨_, _, .extendMore pass ((stop_lt_iff best nodes).1 long) extend, .token founds,
            chartsAfter⟩
  | sequenceDone =>
      cases tasks with
      | sequence _ meets =>
          exact ⟨_, _, .sequenceDone, .run (.some ⟨.nil, meets⟩), charts⟩
  | sequenceStuck _ ihElement =>
      cases tasks with
      | sequence uses meets =>
          obtain ⟨after', element, chartsAfter⟩ :=
            (ihElement (.element uses.head meets) charts).stuck
          exact ⟨_, _, .sequenceStuck element, .run .none, chartsAfter⟩
  | sequenceStep _ _ ihElement ihSequence =>
      cases tasks with
      | sequence uses meets =>
          obtain ⟨parts', next', between', element, corresponding, onward, chartsBetween⟩ :=
            (ihElement (.element uses.head meets) charts).matched
          obtain ⟨found', after', sequence, founds, chartsAfter⟩ :=
            (ihSequence (.sequence uses.tail onward) chartsBetween).run
          exact ⟨_, _, .sequenceStep element sequence, .run (rel_behind corresponding founds),
            chartsAfter⟩
  | literal asked =>
      cases tasks with
      | element uses meets =>
          obtain ⟨found', after', asked', founds, chartsAfter⟩ :=
            charts.literalAt (bridge.lands meets) uses.literal asked
          exact ⟨_, _, .literal asked', .run (rel_literal founds), chartsAfter⟩
  | reference names asked _ ihResolve =>
      cases tasks with
      | element uses meets =>
          obtain ⟨cell', between', asked', cells, chartsBetween⟩ :=
            charts.syntaxCell (bridge.lands meets) asked
          obtain ⟨found', after', resolve, founds, chartsAfter⟩ :=
            (ihResolve (.resolve cells) chartsBetween).token
          exact ⟨_, _, .reference names asked' resolve, .run (rel_single founds), chartsAfter⟩
  | repeated _ ihRounds =>
      cases tasks with
      | element uses meets =>
          obtain ⟨found', after', rounds, founds, chartsAfter⟩ :=
            (ihRounds (.rounds uses.repeated meets) charts).run
          exact ⟨_, _, .repeated rounds, .run founds, chartsAfter⟩
  | roundsFull full =>
      cases tasks with
      | rounds _ meets =>
          exact ⟨_, _, .roundsFull full, .run (rel_settled _ _ meets), charts⟩
  | roundsStopped room _ ihSequence =>
      cases tasks with
      | rounds uses meets =>
          obtain ⟨after', sequence, chartsAfter⟩ :=
            (ihSequence (.sequence uses meets) charts).stuck
          exact ⟨_, _, .roundsStopped room sequence, .run (rel_settled _ _ meets), chartsAfter⟩
  | roundsIdle room _ idle ihSequence =>
      cases tasks with
      | rounds uses meets =>
          obtain ⟨parts', next', after', sequence, corresponding, onward, chartsAfter⟩ :=
            (ihSequence (.sequence uses meets) charts).matched
          exact ⟨_, _, .roundsIdle room sequence ((offset_eq_iff onward meets).1 idle),
            .run (.some ⟨corresponding, meets⟩), chartsAfter⟩
  | roundsOnward room _ away _ ihSequence ihRounds =>
      cases tasks with
      | rounds uses meets =>
          obtain ⟨parts', next', between', sequence, corresponding, onward, chartsBetween⟩ :=
            (ihSequence (.sequence uses meets) charts).matched
          obtain ⟨found', after', rounds, founds, chartsAfter⟩ :=
            (ihRounds (.rounds uses onward) chartsBetween).run
          exact ⟨_, _, .roundsOnward room sequence (mt (offset_eq_iff onward meets).2 away) rounds,
            .run (rel_behind corresponding founds), chartsAfter⟩

/-! ### Lookups -/

section Lookups

variable {chart chart' : Chart V} {origin origin' : Position} {symbol : Symbol}

/-- At places from which skipping blank text leads to corresponding places, a symbol has
corresponding tokens in both texts, or none. -/
theorem tokenAt {found : Option (Token V)} {after : Chart V}
    (wellFormed : first.grammar.WellFormed) (charts : bridge.Charts chart chart')
    (sound : chart.Sound first) (sound' : chart'.Sound second)
    (lands : bridge.Lands origin origin')
    (done : chart.tokenAt first origin symbol = .ok (found, after)) :
    ∃ found' after', chart'.tokenAt second origin' symbol = .ok (found', after') ∧
      Option.Rel bridge.Tokens found found' ∧ bridge.Charts after after' := by
  have wellFormed' : second.grammar.WellFormed := by
    rw [bridge.grammar_eq]
    exact wellFormed
  unfold Chart.tokenAt at done ⊢
  cases asked : chart.syntaxCell first origin with
  | error refusal => simp [asked] at done
  | ok result =>
      rcases result with ⟨cell, between⟩
      obtain ⟨cell', between', asked', cells, chartsBetween⟩ := charts.syntaxCell lands asked
      simp only [asked, Except.ok.injEq] at done
      simp only [asked']
      obtain ⟨arena, gained, held, -⟩ := Chart.syntaxCell_spec sound.arena asked
      obtain ⟨arena', gained', held', -⟩ := Chart.syntaxCell_spec sound'.arena asked'
      have run := Chart.resolve_evaluates wellFormed (sound.gains gained arena) held done
      obtain ⟨found', after', run', founds, chartsAfter⟩ :=
        (evaluates run (.resolve cells) chartsBetween).token
      refine ⟨found', after', ?_, founds, chartsAfter⟩
      have computed : Evaluates second (.resolve cell'.lexical symbol) between'
          (.token (between'.token second cell' symbol).1) (between'.token second cell' symbol).2 :=
        Chart.resolve_evaluates wellFormed' (sound'.gains gained' arena') held' rfl
      exact congrArg Except.ok ((Evaluates.token_iff computed found' after').1 run')

theorem resolveAtStart (wellFormed : first.grammar.WellFormed)
    (charts : bridge.Charts chart chart') (sound : chart.Sound first)
    (sound' : chart'.Sound second) (lands : bridge.Lands .start .start) :
    Option.Rel bridge.Tokens (chart.resolveAtStart first symbol).1
      (chart'.resolveAtStart second symbol).1 := by
  cases done : chart.resolveAtStart first symbol with
  | mk found after =>
      obtain ⟨found', after', done', both, -⟩ :=
        tokenAt wellFormed charts sound sound' lands (Chart.resolveAtStart_eq_iff.1 done)
      rw [Chart.resolveAtStart_eq_iff.2 done']
      exact both

theorem parse_root (wellFormed : first.grammar.WellFormed) (lands : bridge.Lands .start .start) :
    Option.Rel bridge.Tokens (first.grammar.parse first.source).root
      (second.grammar.parse second.source).root := by
  have begun : bridge.Charts { log := [.parsing first.length first.grammar.root] }
      { log := [.parsing second.length second.grammar.root] } :=
    ⟨Charts.empty.lexical, Charts.empty.syntactic, Charts.empty.literals, rfl, rfl⟩
  have sound := (Chart.empty_sound : ({} : Chart V).Sound first).of_cells
    { log := [.parsing first.length first.grammar.root] } rfl rfl rfl rfl
  have sound' := (Chart.empty_sound : ({} : Chart V).Sound second).of_cells
    { log := [.parsing second.length second.grammar.root] } rfl rfl rfl rfl
  rw [Grammar.parse_eq first rfl, Grammar.parse_eq second rfl, bridge.grammar_eq]
  rw [bridge.grammar_eq] at begun sound'
  exact resolveAtStart wellFormed begun sound.1 sound'.1 lands

end Lookups

end Bridge

end Packrat
