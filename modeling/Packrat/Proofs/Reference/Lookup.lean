import Packrat.Proofs.Chart.Lookup
import Packrat.Proofs.Reference.Growth
import Packrat.Proofs.Reference.Refines

/-!
What lookups return under a guarded grammar. In every chart that a session comes to, all entries are
what the reference finds (`Chart.Reachable.agrees`), so a lookup has the answer of the reference,
whatever has been asked for before; and the match of a rule is a fixed point of its alternatives.

Sums of digits are guarded: they start with themselves or with a digit.
-/

set_option autoImplicit false
set_option linter.unusedSectionVars false

namespace Packrat

/-! ### Sums of digits -/

namespace Sums

theorem digit_covers {text : List Char} {length : Nat}
    (found : (Scanner.words [['0'], ['1']]).scan text = some length) : length ≠ 0 := by
  simp only [Scanner.scan, List.map, Scanner.longest, List.foldl, Scanner.scanWord] at found
  split at found <;> split at found <;> cases found <;> decide

theorem digits_cover {landing : Landing} {symbol : Symbol} {leaf : Leaf Scalar}
    {candidate : Candidate Scalar}
    (found : LexicalCell.scanTerminal landing ⟨symbol, [⟨.words [['0'], ['1']], none⟩]⟩ =
      some (leaf, candidate)) : leaf.text ≠ [] := by
  simp only [LexicalCell.scanTerminal, LexicalCell.longestCandidate, List.foldl,
    Option.bind_eq_bind, Option.bind_eq_some_iff] at found
  rcases found with ⟨⟨length, chosen⟩, longest, text, taken, made⟩
  cases made
  rintro rfl
  obtain ⟨-, -, size⟩ := (Text.takeBytes?_eq_some_iff _ _ _).1 taken
  cases scans : (Scanner.words [['0'], ['1']]).scan landing.rest with
  | none => simp [scans] at longest
  | some bytes =>
      simp only [scans] at longest
      cases longest
      exact digit_covers scans size.symm

theorem guarded : input.Guarded where
  literals := by decide
  terminals := by
    intro origin landing _ terminal isTerminal leaf candidate found
    cases List.mem_singleton.1 isTerminal
    exact digits_cover found
  acyclic := Grammar.acyclic_of_rank (fun _ => 0) (by decide)

end Sums

/-! ### Charts of a session -/

variable {V : Type} [Kinded V]

namespace Chart

variable {engine : RegexEngine} {declarations : List (Declaration V)} {input : Input V}
  {chart after : Chart V}

theorem empty_agrees {region : Region} : ({} : Chart V).Agrees input region := by
  refine ⟨empty_sound, ?_, ?_⟩
  · intro offset cell here
    simp [lexicalAt?] at here
  · intro offset symbol entry cell _ known
    simp [known?, syntacticAt?] at known

theorem Step.all (step : chart.Step after input (fun _ _ => True) fun _ _ => True) :
    after.Agrees input fun _ _ => True :=
  step.agrees

theorem Agrees.token {cell : SyntaxCell V} {symbol : Symbol} {found : Option (Token V)}
    (agrees : chart.Agrees input fun _ _ => True) (wellFormed : input.grammar.WellFormed)
    (guarded : input.Guarded) (held : chart.Holds cell.lexical)
    (done : chart.token input cell symbol = (found, after)) :
    after.Agrees input (fun _ _ => True) ∧
      Parses input (.resolve cell.lexical.position symbol) (.tree (found.map Token.tree)) := by
  have evaluates := resolve_evaluates wellFormed agrees.sound held done
  obtain ⟨step, -, parses⟩ := evaluates.refines wellFormed guarded (fun _ => True)
    (fun _ _ => trivial) (agrees.restrict fun _ _ _ => trivial) held fun _ => trivial
  exact ⟨(step.widen agrees fun _ _ inside => inside).agrees, parses⟩

theorem Agrees.tokenAt {origin : Position} {landing : Landing} {symbol : Symbol}
    {found : Option (Token V)} (agrees : chart.Agrees input fun _ _ => True)
    (wellFormed : input.grammar.WellFormed) (guarded : input.Guarded)
    (counts : input.Counts origin) (landed : input.land origin = .ok landing)
    (done : chart.tokenAt input origin symbol = .ok (found, after)) :
    after.Agrees input (fun _ _ => True) ∧
      Parses input (.resolve landing.position symbol) (.tree (found.map Token.tree)) := by
  obtain ⟨cell, opened, asked⟩ := syntaxCell_exists chart counts.rest?
  obtain ⟨-, -, held, leads⟩ := syntaxCell_spec agrees.sound.arena asked
  have opens : opened.Agrees input fun _ _ => True := Step.all (agrees.syntaxCell counts asked)
  rw [← opens.counted.position_eq opens.sound.arena counts landed leads]
  simp only [Chart.tokenAt, asked] at done
  exact opens.token wellFormed guarded held (Except.ok.inj done)

theorem tokenAt_exists {origin : Position} (counts : input.Counts origin) (symbol : Symbol)
    (chart : Chart V) :
    ∃ landing found after, input.land origin = .ok landing ∧
      chart.tokenAt input origin symbol = .ok (found, after) := by
  obtain ⟨landing, landed⟩ := Input.land_exists counts.rest?
  obtain ⟨cell, opened, asked⟩ := syntaxCell_exists chart counts.rest?
  cases done : opened.token input cell symbol with
  | mk found after =>
      refine ⟨landing, found, after, landed, ?_⟩
      simp only [Chart.tokenAt, asked, done]

theorem parse_agrees (wellFormed : input.grammar.WellFormed) (guarded : input.Guarded) :
    (input.grammar.parse input.source).chart.Agrees input (fun _ _ => True) ∧
      ∀ landing, input.land .start = .ok landing →
        Parses input (.resolve landing.position input.grammar.root)
          (.tree ((input.grammar.parse input.source).root.map Token.tree)) := by
  have begun : ({ log := [.parsing input.length input.grammar.root] } : Chart V).Agrees input
      fun _ _ => True := Step.all (empty_agrees.of_cells _ rfl rfl rfl rfl)
  obtain ⟨landing, found, after, landed, done⟩ := tokenAt_exists input.counts_start
    input.grammar.root { log := [.parsing input.length input.grammar.root] }
  obtain ⟨agrees, parses⟩ :=
    begun.tokenAt wellFormed guarded input.counts_start landed done
  have resolved : ({ log := [.parsing input.length input.grammar.root] } : Chart V).resolveAtStart
      input input.grammar.root = (found, after) := by
    rw [resolveAtStart, done]
  rw [Grammar.parse_eq input resolved]
  refine ⟨Step.all (agrees.report _), ?_⟩
  intro place landed'
  cases landed.symm.trans landed'
  exact parses

theorem Reachable.agrees (reachable : chart.Reachable input input.Counts)
    (wellFormed : input.grammar.WellFormed) (guarded : input.Guarded) :
    chart.Agrees input fun _ _ => True := by
  induction reachable with
  | opened => exact empty_agrees
  | parsed => exact (parse_agrees wellFormed guarded).1
  | lexicalCell _ counts asked ih => exact Step.all (ih.lexicalCell counts asked)
  | syntaxCell _ counts asked ih => exact Step.all (ih.syntaxCell counts asked)
  | literal _ here done ih => exact Step.all (ih.literal here done)
  | token _ here done ih =>
      exact (ih.token wellFormed guarded (ih.sound.arena.holds here) done).1
  | value _ done ih =>
      exact Step.all (ih.of_cells _ (by cases done; rfl) (by cases done; rfl)
        (by cases done; rfl) (by cases done; rfl))

/-! ### Answers -/

/-- Whatever has been asked for before, a lookup has the one outcome of the reference: at a
position, in a cell, and as the root of a parse. So any two sessions on the text have equal
answers. -/
theorem Reachable.lookup_parses (built : Grammar.build engine declarations = .ok input.grammar)
    (guarded : input.Guarded) (reachable : chart.Reachable input input.Counts) :
    (∀ origin symbol, input.Counts origin → ∃ landing found after,
      input.land origin = .ok landing ∧ chart.tokenAt input origin symbol = .ok (found, after) ∧
        ∀ outcome, Parses input (.resolve landing.position symbol) outcome ↔
          outcome = .tree (found.map Token.tree)) ∧
    (∀ offset cell symbol found after, chart.syntacticAt? offset = some cell →
      chart.token input cell symbol = (found, after) →
        ∀ outcome, Parses input (.resolve cell.lexical.position symbol) outcome ↔
          outcome = .tree (found.map Token.tree)) ∧
    (∀ landing, input.land .start = .ok landing →
      ∀ outcome, Parses input (.resolve landing.position input.grammar.root) outcome ↔
        outcome = .tree ((input.grammar.parse input.source).root.map Token.tree)) ∧
    (∀ (other : Chart V) origin symbol found after found' after',
      other.Reachable input input.Counts → input.Counts origin →
        chart.tokenAt input origin symbol = .ok (found, after) →
          other.tokenAt input origin symbol = .ok (found', after') →
            found.map Token.tree = found'.map Token.tree) := by
  have wellFormed := Grammar.build_wellFormed built
  have agrees := reachable.agrees wellFormed guarded
  refine ⟨?_, ?_, ?_, ?_⟩
  · intro origin symbol counts
    obtain ⟨landing, found, after, landed, done⟩ := tokenAt_exists counts symbol chart
    exact ⟨landing, found, after, landed, done,
      (agrees.tokenAt wellFormed guarded counts landed done).2.outcome_iff⟩
  · intro offset cell symbol found after here done
    exact (agrees.token wellFormed guarded (agrees.sound.arena.holds here) done).2.outcome_iff
  · intro landing landed
    exact ((parse_agrees wellFormed guarded).2 landing landed).outcome_iff
  · intro other origin symbol found after found' after' reached counts done done'
    obtain ⟨landing, landed⟩ := Input.land_exists counts.rest?
    have parses := (agrees.tokenAt wellFormed guarded counts landed done).2
    have parses' := ((reached.agrees wellFormed guarded).tokenAt wellFormed guarded counts landed
      done').2
    exact Outcome.tree.inj (parses.unique parses')

/-- After a whole parse, the sum of two digits is looked up again. -/
theorem sums_token_parses :
    ∃ landing token after, Sums.input.land .start = .ok landing ∧
      (Sums.input.grammar.parse Sums.input.source).chart.tokenAt Sums.input .start
        Sums.sumSymbol = .ok (some token, after) ∧
      token.stop.offset = 4 ∧
      Parses Sums.input (.resolve landing.position Sums.sumSymbol) (.tree (some token.tree)) := by
  have ends : ((Sums.input.grammar.parse Sums.input.source).chart.tokenAt Sums.input .start
      Sums.sumSymbol).toOption.bind (fun result => result.1.map (·.stop.offset)) = some 4 := by
    decide +kernel
  obtain ⟨landing, found, after, landed, done, outcomes⟩ :=
    (Reachable.lookup_parses Sums.build_eq Sums.guarded .parsed).1 .start Sums.sumSymbol
      Sums.input.counts_start
  rw [done] at ends
  obtain ⟨token, rfl, stops⟩ := Option.map_eq_some_iff.1 ends
  exact ⟨landing, token, after, landed, done, stops, (outcomes _).2 rfl⟩

/-- A rule has no match at a position exactly if no alternative that does not start with the rule
itself matches there with any parts. Otherwise its match grows from the first of the longest of
those, by alternatives that start with the rule itself, until none of these reaches further. -/
theorem Reachable.token_fixed_point (built : Grammar.build engine declarations = .ok input.grammar)
    (guarded : input.Guarded) (reachable : chart.Reachable input input.Counts)
    {origin : Position} {symbol : Symbol} (counts : input.Counts origin)
    (isRule : input.grammar.isRule symbol = true) :
    ∃ landing found after, input.land origin = .ok landing ∧
      chart.tokenAt input origin symbol = .ok (found, after) ∧
      (found = none ↔ ∀ index alternative,
        input.grammar.alternative? symbol index = some alternative →
          alternative.recursive = false →
            ∃ run, Parses input (.sequence alternative.elements landing.position) (.run run) ∧
              ∀ parts stop, run = some (parts, stop) → parts = []) ∧
      ∀ token, found = some token →
        ∃ first, input.IsSeed landing.position symbol first ∧
          Relation.ReflTransGen (input.Lengthens symbol) first token.tree ∧
          input.Exhausted symbol token.tree := by
  have wellFormed := Grammar.build_wellFormed built
  obtain ⟨landing, found, after, landed, done⟩ := tokenAt_exists counts symbol chart
  have parses := ((reachable.agrees wellFormed guarded).tokenAt wellFormed guarded counts landed
    done).2
  refine ⟨landing, found, after, landed, done, ?_, ?_⟩
  · rw [← Option.map_eq_none_iff, parses.resolve_none_iff isRule]
    refine forall_congr' fun index => forall_congr' fun alternative => ?_
    refine imp_congr_right fun _ => imp_congr_right fun plain => ?_
    rw [Input.Tries.none_iff, and_iff_right plain]
  · rintro token rfl
    exact parses.resolve_some isRule

/-- The sum of two digits has grown from a seed, and grows no further. -/
theorem sums_token_grows :
    ∃ landing token first, Sums.input.land .start = .ok landing ∧ token.stop.offset = 4 ∧
      Sums.input.IsSeed landing.position Sums.sumSymbol first ∧
      Relation.ReflTransGen (Sums.input.Lengthens Sums.sumSymbol) first (Token.tree token) ∧
      Sums.input.Exhausted Sums.sumSymbol (Token.tree token) := by
  have ends : (({} : Chart Scalar).tokenAt Sums.input .start Sums.sumSymbol).toOption.bind
      (fun result => result.1.map (·.stop.offset)) = some 4 := by
    decide +kernel
  obtain ⟨landing, found, after, landed, done, -, grows⟩ :=
    Reachable.token_fixed_point Sums.build_eq Sums.guarded .opened Sums.input.counts_start
      (rfl : Sums.input.grammar.isRule Sums.sumSymbol = true)
  rw [done] at ends
  obtain ⟨token, rfl, stops⟩ := Option.map_eq_some_iff.1 ends
  obtain ⟨first, isSeed, chain, exhausted⟩ := grows token rfl
  exact ⟨landing, token, first, landed, stops, isSeed, chain, exhausted⟩

end Chart

end Packrat
