import Packrat.Proofs.Reading.Lexemes
import Packrat.Proofs.Reference.Lookup
import Packrat.Proofs.Reference.Mirrors
import Packrat.Proofs.Reference.Reordered

/-!
The order of seeds. The loop over seeds comes to a node that reaches furthest, so whichever of
several such nodes is the first, it ends at the same place; and only ends decide. Hence two grammars
that differ in the order of alternatives that do not start with the rule itself have the same
symbols at the same places, with the same ends (`Chart.Reachable.seed_order_free`).
-/

set_option autoImplicit false
set_option linter.unusedSectionVars false

namespace Packrat

variable {V : Type} [Kinded V]

/-! ### Sums with a choice

Sums of digits that start with a match of one of two terminals. Both match the same digits, so which
of the two the sum starts with is decided by the order of the seeds. -/

namespace Choices

open Sums (sumSymbol digitSymbol digits_cover)

def bitSymbol : Symbol := ⟨"BIT"⟩

def longer : Alternative Scalar :=
  ⟨[.labelled sumSymbol "left", .literal "+", .labelled digitSymbol "right"], none, true⟩

def single (symbol : Symbol) : Alternative Scalar :=
  ⟨[.symbol symbol], none, false⟩

def starts (swapped : Bool) : List Symbol :=
  if swapped then [bitSymbol, digitSymbol] else [digitSymbol, bitSymbol]

def declarations (swapped : Bool) : List (Declaration Scalar) :=
  [ .blanks [' '],
    .root sumSymbol,
    .terminal digitSymbol [.pattern (.words ["0", "1"])],
    .terminal bitSymbol [.pattern (.words ["0", "1"])],
    .rule sumSymbol
      (.pattern longer.elements :: (starts swapped).map fun symbol => .pattern [.symbol symbol])]

def grammar (swapped : Bool) : Grammar Scalar where
  blanks := [' ']
  root := sumSymbol
  terminals :=
    [⟨digitSymbol, [⟨.words [['0'], ['1']], none⟩]⟩, ⟨bitSymbol, [⟨.words [['0'], ['1']], none⟩]⟩]
  aliases := {}
  rules := [⟨sumSymbol, longer :: (starts swapped).map single⟩]

theorem build_eq (swapped : Bool) :
    Grammar.build Regex.engine (declarations swapped) = .ok (grammar swapped) := by
  cases swapped <;> rfl

def input (swapped : Bool) : Input Scalar :=
  (grammar swapped).on ['1', ' ', '+', '1']

theorem guarded (swapped : Bool) : (input swapped).Guarded where
  literals := by cases swapped <;> decide
  terminals := by
    intro origin landing _ terminal isTerminal leaf candidate found
    rcases List.mem_pair.1 isTerminal with rfl | rfl
    · exact digits_cover found
    · exact digits_cover found
  acyclic := Grammar.acyclic_of_rank (fun _ => 0) (by cases swapped <;> decide)

theorem reordered : (input false).Reordered List.Perm Eq (input true) where
  grammar :=
    { blanks := rfl
      root := rfl
      terminals := rfl
      aliases := rfl
      rules := .cons ⟨rfl, .swap _ _ _, rfl⟩ .nil }
  source := rfl

def firstSymbol? (token : Token Scalar) : Option Symbol := do
  let left ← token.children.head?
  let digit ← left.item.children.head?
  return digit.item.symbol

end Choices

/-! ### The loop over seeds -/

theorem Input.Tries.reindexed {input : Input V} {place : Position} {symbol : Symbol}
    {alternative : Alternative V} {index : Nat} {found : Option (Tree V)}
    (tries : input.Tries place symbol (alternative, index) found) (index' : Nat) :
    ∃ found', input.Tries place symbol (alternative, index') found' ∧
      found.map Tree.stop = found'.map Tree.stop := by
  obtain ⟨plain, run, parses, rfl⟩ := tries
  exact ⟨_, ⟨plain, run, parses, rfl⟩, Tree.ofRun?_alike rfl rfl⟩

theorem Rule.mem_seeds_iff {rule : Rule V} {alternative : Alternative V} :
    alternative ∈ rule.seeds ↔
      alternative.recursive = false ∧ ∃ index, (alternative, index) ∈ rule.alternatives.zipIdx := by
  rw [mem_seeds, and_comm]
  refine and_congr_right fun _ => List.mem_iff_getElem?.trans (exists_congr fun index => ?_)
  rw [List.mk_mem_zipIdx_iff_getElem?]

namespace Parses

variable {input : Input V} {place : Position} {symbol : Symbol}

/-- The loop over seeds comes to an end if every alternative does. -/
theorem seeds_exists {entries : List (Alternative V × Nat)}
    (tried : ∀ entry ∈ entries, entry.1.recursive = false →
      ∃ found, input.Tries place symbol entry found) (best : Option (Tree V)) :
    ∃ found, Parses input (.seeds place symbol entries best) (.tree found) := by
  induction entries generalizing best with
  | nil => exact ⟨best, .seedsDone⟩
  | cons entry rest ih =>
      obtain ⟨triedEntry, triedRest⟩ := List.forall_mem_cons.1 tried
      cases kind : entry.1.recursive with
      | true =>
          obtain ⟨found, seeds⟩ := ih triedRest best
          exact ⟨found, .seedsSkipped kind seeds⟩
      | false =>
          obtain ⟨-, plain, run, sequence, rfl⟩ := triedEntry kind
          obtain ⟨found, seeds⟩ :=
            ih triedRest (Tree.better best (Tree.ofRun? symbol entry.2 [] run))
          exact ⟨found, .seedsTried plain sequence seeds⟩

variable {rule rule' : Rule V} {found found' : Option (Tree V)}

/-- What is found over all seeds of a rule reaches as far as every one of them. -/
theorem le_seeds {alternative : Alternative V} {index : Nat} {node : Tree V}
    (seeds : Parses input (.seeds place symbol rule.alternatives.zipIdx none) (.tree found))
    (listed : (alternative, index) ∈ rule.alternatives.zipIdx)
    (tries : input.Tries place symbol (alternative, index) (some node)) :
    ∃ first, found = some first ∧ node.stop.offset ≤ first.stop.offset := by
  cases found with
  | none => cases tries.unique ((seeds_none seeds).2 _ listed tries.1)
  | some first =>
      rcases seeds_some rule.zipIdx_ordered seeds with ⟨isBest, -⟩ | ⟨entry, -, -, -, top⟩
      · cases isBest
      · exact ⟨first, rfl, (top _ listed node tries).1⟩

/-- With more seeds, no less is found. -/
theorem seeds_le (covered : ∀ alternative ∈ rule.seeds, alternative ∈ rule'.seeds)
    (seeds : Parses input (.seeds place symbol rule.alternatives.zipIdx none) (.tree found))
    (seeds' : Parses input (.seeds place symbol rule'.alternatives.zipIdx none) (.tree found')) :
    ∀ first, found = some first →
      ∃ first', found' = some first' ∧ first.stop.offset ≤ first'.stop.offset := by
  rintro first rfl
  rcases seeds_some rule.zipIdx_ordered seeds with ⟨isBest, -⟩ | ⟨entry, listed, isFirst, -⟩
  · cases isBest
  · obtain ⟨-, index', listed'⟩ := Rule.mem_seeds_iff.1
      (covered entry.1 (Rule.mem_seeds_iff.2 ⟨isFirst.1, entry.2, listed⟩))
    obtain ⟨again, tries', same⟩ := isFirst.reindexed index'
    obtain ⟨node, rfl, sameStop⟩ := Option.map_eq_some_iff.1 same.symm
    obtain ⟨first', isFirst', further⟩ := le_seeds seeds' listed' tries'
    rw [sameStop] at further
    exact ⟨first', isFirst', further⟩

/-- With the same seeds in another order, something that ends at the same place is found. -/
theorem seeds_reordered (lands : input.Lands place)
    (same : ∀ alternative, alternative ∈ rule.seeds ↔ alternative ∈ rule'.seeds)
    (seeds : Parses input (.seeds place symbol rule.alternatives.zipIdx none) (.tree found)) :
    ∃ found', Parses input (.seeds place symbol rule'.alternatives.zipIdx none) (.tree found') ∧
      found.map Tree.stop = found'.map Tree.stop := by
  have tried : ∀ entry ∈ rule'.alternatives.zipIdx, entry.1.recursive = false →
      ∃ found, input.Tries place symbol entry found := by
    intro entry listed' plain
    obtain ⟨-, index, listed⟩ := Rule.mem_seeds_iff.1
      ((same entry.1).2 (Rule.mem_seeds_iff.2 ⟨plain, entry.2, listed'⟩))
    obtain ⟨tree, tries⟩ := seeds_tried seeds _ listed plain
    obtain ⟨tree', tries', -⟩ := tries.reindexed entry.2
    exact ⟨tree', tries'⟩
  obtain ⟨found', seeds'⟩ := seeds_exists tried none
  have upper := seeds_le (fun alternative => (same alternative).1) seeds seeds'
  have lower := seeds_le (fun alternative => (same alternative).2) seeds' seeds
  refine ⟨found', seeds', ?_⟩
  cases found with
  | none =>
      cases found' with
      | none => rfl
      | some first' =>
          obtain ⟨first, isFirst, -⟩ := lower first' rfl
          cases isFirst
  | some first =>
      obtain ⟨first', rfl, further⟩ := upper first rfl
      obtain ⟨again, isFirst, further'⟩ := lower first' rfl
      cases isFirst
      have counts := seeds.placed ⟨lands, nofun⟩ first rfl
      have counts' := seeds'.placed ⟨lands, nofun⟩ first' rfl
      exact congrArg some (counts.unique counts' (Nat.le_antisymm further further'))

end Parses

/-! ### Reordered grammars -/

theorem Alternative.leading_zipIdx (rule : Rule V) :
    leading rule.alternatives.zipIdx = rule.extensions := by
  rw [leading, List.zipIdx_map_fst]
  rfl

namespace Input.Reordered

variable {onSeeds onExtensions : Order V} {input other : Input V}

theorem lands (reordered : input.Reordered onSeeds onExtensions other) {place : Position}
    (lands : input.Lands place) : other.Lands place := by
  obtain ⟨origin, landing, counts, landed, isPlace⟩ := lands
  exact ⟨origin, landing, reordered.counts_iff.1 counts, (reordered.land origin) ▸ landed, isPlace⟩

/-- With the same seeds, it is enough that a seed that grows by the extensions of a rule in one
order grows to the same end in the other. -/
theorem mirrors_of_growth (reordered : input.Reordered onSeeds onExtensions other)
    (sameSeeds : ∀ list list', onSeeds list list' →
      ∀ alternative, alternative ∈ list ↔ alternative ∈ list')
    (growth : ∀ {place symbol first found} {rule rule' : Rule V}, other.Lands place →
      other.grammar.rule? symbol = some rule' → onExtensions rule.extensions rule'.extensions →
      Parses other (.seeds place symbol rule'.alternatives.zipIdx none) (.tree (some first)) →
      Parses other (.extend symbol rule.alternatives.zipIdx first) (.tree found) →
      ∃ found', Parses other (.resolve place symbol) (.tree found') ∧
        found.map Tree.stop = found'.map Tree.stop) :
    input.Mirrors other where
  land := reordered.land
  scanAt? := reordered.scanAt?
  noRule := reordered.grammar.rule?_eq_none
  regrows := by
    intro place symbol rule found lands isRule grows
    obtain ⟨rule', isRule', same⟩ := reordered.grammar.rule?_eq_some isRule
    have lands' := reordered.lands lands
    cases grows with
    | barren seeds =>
        obtain ⟨found', seeds', sameSeed⟩ :=
          seeds.seeds_reordered lands' (sameSeeds _ _ same.seeds)
        cases Option.map_eq_none_iff.1 sameSeed.symm
        exact ⟨none, .barren isRule' seeds', rfl⟩
    | @grown first _ seeds extend =>
        obtain ⟨found', seeds', sameSeed⟩ :=
          seeds.seeds_reordered lands' (sameSeeds _ _ same.seeds)
        obtain ⟨first', rfl, sameFirst⟩ := Option.map_eq_some_iff.1 sameSeed.symm
        have countsFirst := seeds.placed ⟨lands', nofun⟩ first rfl
        obtain ⟨grown, extend', sameGrown⟩ := (extend.mirrored (Input.Mirrors.refl other)
          countsFirst (.extend rfl sameFirst.symm)).tree
        obtain ⟨found', resolved, sameFound⟩ :=
          growth lands' isRule' same.extensions seeds' extend'
        exact ⟨found', resolved, sameGrown.trans sameFound⟩

/-- Where only the order of seeds differs, alike seeds grow by the same extensions. -/
theorem mirrors_of_seeds (reordered : input.Reordered List.Perm Eq other) :
    input.Mirrors other := by
  refine reordered.mirrors_of_growth (fun _ _ permuted _ => permuted.mem_iff) ?_
  intro place symbol first found rule rule' lands isRule sameExtensions seeds extend
  have sameLeading : Alternative.leading rule.alternatives.zipIdx =
      Alternative.leading rule'.alternatives.zipIdx := by
    rw [Alternative.leading_zipIdx, Alternative.leading_zipIdx, sameExtensions]
  have countsFirst := seeds.placed ⟨lands, nofun⟩ first rfl
  obtain ⟨found', extend', sameFound⟩ := (extend.mirrored (Input.Mirrors.refl other) countsFirst
    (.extend sameLeading rfl)).tree
  exact ⟨found', .grown isRule seeds extend', sameFound⟩

end Input.Reordered

/-! ### Lookups -/

namespace Chart

variable {engine : RegexEngine} {declarations declarations' : List (Declaration V)}
  {input other : Input V} {chart chart' : Chart V} {origin : Position}

theorem Agrees.tokenAt_mirrored (mirrors : input.Mirrors other)
    (agrees : chart.Agrees input fun _ _ => True) (agrees' : chart'.Agrees other fun _ _ => True)
    (wellFormed : input.grammar.WellFormed) (wellFormed' : other.grammar.WellFormed)
    (guarded : input.Guarded) (guarded' : other.Guarded) (counts : input.Counts origin)
    (counts' : other.Counts origin) (symbol : Symbol) :
    ∃ found after found' after', chart.tokenAt input origin symbol = .ok (found, after) ∧
      chart'.tokenAt other origin symbol = .ok (found', after') ∧
      found.map Token.stop = found'.map Token.stop := by
  obtain ⟨landing, found, after, landed, done⟩ := tokenAt_exists counts symbol chart
  obtain ⟨landing', found', after', landed', done'⟩ := tokenAt_exists counts' symbol chart'
  cases ((mirrors.land origin).symm.trans landed).symm.trans landed'
  have parses := (agrees.tokenAt wellFormed guarded counts landed done).2
  have parses' := (agrees'.tokenAt wellFormed' guarded' counts' landed' done').2
  obtain ⟨tree, mirrored, same⟩ :=
    (parses.mirrored mirrors ⟨origin, landing, counts, landed, rfl⟩ .resolve).tree
  cases mirrored.unique parses'
  have ends : (Tree.stop ∘ Token.tree : Token V → Position) = Token.stop :=
    funext Token.tree_stop
  rw [Option.map_map, Option.map_map, ends] at same
  exact ⟨found, after, found', after', done, done', same⟩

/-- Under two grammars that differ only in the order of alternatives that do not start with the
rule itself, a symbol has a token at a position in both or in neither, and both tokens end at the
same place, whatever has been asked for before. -/
theorem Reachable.seed_order_free (built : Grammar.build engine declarations = .ok input.grammar)
    (built' : Grammar.build engine declarations' = .ok other.grammar)
    (reordered : input.Reordered List.Perm Eq other) (guarded : input.Guarded)
    (reachable : chart.Reachable input input.Counts)
    (reachable' : chart'.Reachable other other.Counts) (counts : input.Counts origin)
    (symbol : Symbol) :
    ∃ found after found' after', chart.tokenAt input origin symbol = .ok (found, after) ∧
      chart'.tokenAt other origin symbol = .ok (found', after') ∧
      found.map Token.stop = found'.map Token.stop := by
  have wellFormed := Grammar.build_wellFormed built
  have wellFormed' := Grammar.build_wellFormed built'
  have guarded' := guarded.reordered (reordered.mono (fun _ _ => id) fun _ _ => .of_eq)
  exact Agrees.tokenAt_mirrored reordered.mirrors_of_seeds (reachable.agrees wellFormed guarded)
    (reachable'.agrees wellFormed' guarded') wellFormed wellFormed' guarded guarded' counts
    (reordered.counts_iff.1 counts) symbol

/-- Swapped seeds give a sum of two digits another first part, but the same end. -/
theorem choices_swapped :
    ∃ token after token' after',
      ({} : Chart Scalar).tokenAt (Choices.input false) .start Sums.sumSymbol =
        .ok (some token, after) ∧
      ({} : Chart Scalar).tokenAt (Choices.input true) .start Sums.sumSymbol =
        .ok (some token', after') ∧
      token.stop = token'.stop ∧ token.stop.offset = 4 ∧
      Choices.firstSymbol? token = some Sums.digitSymbol ∧
      Choices.firstSymbol? token' = some Choices.bitSymbol := by
  have first : (({} : Chart Scalar).tokenAt (Choices.input false) .start
      Sums.sumSymbol).toOption.bind (fun result =>
        result.1.map fun token => (token.stop.offset, Choices.firstSymbol? token)) =
      some (4, some Sums.digitSymbol) := by
    decide +kernel
  have second : (({} : Chart Scalar).tokenAt (Choices.input true) .start
      Sums.sumSymbol).toOption.bind (fun result => result.1.map Choices.firstSymbol?) =
      some (some Choices.bitSymbol) := by
    decide +kernel
  obtain ⟨found, after, found', after', done, done', same⟩ :=
    Reachable.seed_order_free (Choices.build_eq false) (Choices.build_eq true) Choices.reordered
      (Choices.guarded false) .opened .opened (Choices.input false).counts_start Sums.sumSymbol
  rw [done] at first
  rw [done'] at second
  obtain ⟨token, rfl, isFirst⟩ := Option.map_eq_some_iff.1 first
  obtain ⟨token', rfl, isSecond⟩ := Option.map_eq_some_iff.1 second
  obtain ⟨stops, symbols⟩ := Prod.mk.inj isFirst
  exact ⟨token, after, token', after', done, done', Option.some.inj same, stops, symbols, isSecond⟩

end Chart

end Packrat
