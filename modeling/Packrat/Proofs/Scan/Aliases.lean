import Packrat.Proofs.Chart.Reachable
import Packrat.Proofs.Grammar.Validation
import Packrat.Proofs.Scan.Leaves
import Packrat.Regex.Engine
import Packrat.Scalar.Basic

/-!
What a cell has for an alias. Aliases are gone through once, in an order in which each comes after
those that it refers to, so when the last of them has been added, all of them are settled
(`LexicalCell.foldl_addAlias_settled`): an alias that is a terminal with a match of its own keeps
this match, and otherwise stands for the match of its targets that reaches furthest.

For a grammar that is built, `Chart.Reachable.alias_equations` says this of the targets as they were
declared, in whatever order the aliases were.
-/

set_option autoImplicit false
set_option linter.unusedSectionVars false

namespace Packrat

variable {V : Type} [Kinded V]

namespace LexicalCell

/-! ### The match that reaches furthest -/

theorem foldl_pick_some {leaves : List (Leaf V)} {best leaf : Leaf V}
    (folded : leaves.foldl pick (some best) = some leaf) :
    (leaf = best ∧ ∀ other ∈ leaves, other.stop.offset ≤ best.stop.offset) ∨
      ∃ before after, leaves = before ++ leaf :: after ∧
        best.stop.offset < leaf.stop.offset ∧
        (∀ other ∈ before, other.stop.offset < leaf.stop.offset) ∧
        ∀ other ∈ after, other.stop.offset ≤ leaf.stop.offset := by
  induction leaves generalizing best with
  | nil =>
      cases folded
      exact .inl ⟨rfl, nofun⟩
  | cons head rest ih =>
      rw [List.foldl_cons, pick] at folded
      by_cases further : best.stop.offset < head.stop.offset
      · rw [if_pos further] at folded
        right
        rcases ih folded with ⟨rfl, behind⟩ | ⟨before, after, rfl, longer, earlier, later⟩
        · exact ⟨[], rest, rfl, further, nofun, behind⟩
        · refine ⟨head :: before, after, rfl, Nat.lt_trans further longer, ?_, later⟩
          exact List.forall_mem_cons.2 ⟨longer, earlier⟩
      · rw [if_neg further] at folded
        have notFurther : head.stop.offset ≤ best.stop.offset := Nat.le_of_not_lt further
        rcases ih folded with ⟨rfl, behind⟩ | ⟨before, after, rfl, longer, earlier, later⟩
        · exact .inl ⟨rfl, List.forall_mem_cons.2 ⟨notFurther, behind⟩⟩
        · right
          refine ⟨head :: before, after, rfl, longer, ?_, later⟩
          exact List.forall_mem_cons.2 ⟨Nat.lt_of_le_of_lt notFurther longer, earlier⟩

/-- The match that reaches furthest is the first of those that do. -/
theorem furthest_eq_some {leaves : List (Leaf V)} {leaf : Leaf V}
    (found : furthest leaves = some leaf) :
    ∃ before after, leaves = before ++ leaf :: after ∧
      (∀ other ∈ before, other.stop.offset < leaf.stop.offset) ∧
      ∀ other ∈ after, other.stop.offset ≤ leaf.stop.offset := by
  rw [furthest_eq] at found
  cases leaves with
  | nil => cases found
  | cons head rest =>
      rcases foldl_pick_some found with ⟨rfl, behind⟩ | ⟨before, after, rfl, longer, earlier, later⟩
      · exact ⟨[], rest, rfl, nofun, behind⟩
      · exact ⟨head :: before, after, rfl, List.forall_mem_cons.2 ⟨longer, earlier⟩, later⟩

theorem furthest_eq_none_iff {leaves : List (Leaf V)} : furthest leaves = none ↔ leaves = [] := by
  constructor
  · intro none_
    have kept (rest : List (Leaf V)) (best : Leaf V) : (rest.foldl pick (some best)).isSome := by
      induction rest generalizing best with
      | nil => rfl
      | cons head rest ih =>
          rw [List.foldl_cons, pick]
          split
          · exact ih head
          · exact ih best
    cases leaves with
    | nil => rfl
    | cons head rest =>
        have some_ := kept rest head
        rw [furthest_eq, List.foldl_cons] at none_
        change rest.foldl pick (some head) = none at none_
        rw [none_] at some_
        cases some_
  · rintro rfl
    rfl

/-- Of the matches of some entries, the one that reaches furthest belongs to the first entry whose
match does. -/
theorem furthest_filterMap {α : Type} {entries : List α} {found : α → Option (Leaf V)}
    {leaf : Leaf V} (isBest : furthest (entries.filterMap found) = some leaf) :
    ∃ before entry after, entries = before ++ entry :: after ∧ found entry = some leaf ∧
      (∀ other ∈ before, ∀ reached, found other = some reached →
        reached.stop.offset < leaf.stop.offset) ∧
      ∀ other ∈ after, ∀ reached, found other = some reached →
        reached.stop.offset ≤ leaf.stop.offset := by
  obtain ⟨before, after, split, earlier, later⟩ := furthest_eq_some isBest
  obtain ⟨passed, rest, rfl, rfl, isRest⟩ := List.filterMap_eq_append_iff.1 split
  obtain ⟨unmatched, entry, behind, rfl, missing, isLeaf, rfl⟩ :=
    List.filterMap_eq_cons_iff.1 isRest
  refine ⟨passed ++ unmatched, entry, behind, (List.append_assoc ..).symm, isLeaf, ?_, ?_⟩
  · intro other member reached isReached
    rcases List.mem_append.1 member with inPassed | inUnmatched
    · exact earlier reached (List.mem_filterMap.2 ⟨other, inPassed, isReached⟩)
    · rw [missing other inUnmatched] at isReached
      cases isReached
  · intro other member reached isReached
    exact later reached (List.mem_filterMap.2 ⟨other, member, isReached⟩)

/-! ### Adding aliases in order -/

section Settled

variable {own leaves : List (Leaf V)} {entry other : Alias}

/-- Whether an alias has among some leaves what it stands for: its own match if there is one, and
otherwise the match of its targets that reaches furthest. -/
def Settled (own leaves : List (Leaf V)) (entry : Alias) : Prop :=
  leaves.find? (fun leaf => leaf.symbol == entry.symbol) =
    (own.find? fun leaf => leaf.symbol == entry.symbol).or
      ((furthest (targetLeaves leaves entry)).map (·.retag entry.symbol))

theorem addAlias_of_find? {leaf : Leaf V}
    (found : leaves.find? (fun leaf => leaf.symbol == entry.symbol) = some leaf) :
    addAlias leaves entry = leaves := by
  have named := List.find?_some found
  have matched : (leaves.any fun leaf => leaf.symbol == entry.symbol) = true :=
    List.any_eq_true.2 ⟨leaf, List.mem_of_find?_eq_some found, named⟩
  rw [addAlias, if_pos matched]

theorem addAlias_of_settled (settled : Settled own leaves entry) :
    addAlias leaves entry = leaves := by
  cases found : leaves.find? (fun leaf => leaf.symbol == entry.symbol) with
  | some leaf => exact addAlias_of_find? found
  | none =>
      rw [Settled, found, eq_comm, Option.or_eq_none_iff, Option.map_eq_none_iff] at settled
      rw [addAlias, settled.2, ite_self]

theorem targetLeaves_addAlias (apart : entry.symbol ∉ other.targets) :
    targetLeaves (addAlias leaves entry) other = targetLeaves leaves other :=
  List.filterMap_congr fun target listed =>
    find?_addAlias fun same : entry.symbol = target => apart (same ▸ listed)

theorem Settled.addAlias (settled : Settled own leaves other)
    (differs : entry.symbol ≠ other.symbol) (apart : entry.symbol ∉ other.targets) :
    Settled own (addAlias leaves entry) other := by
  rw [Settled, find?_addAlias differs, targetLeaves_addAlias apart]
  exact settled

theorem settled_addAlias_self
    (unplaced : leaves.find? (fun leaf => leaf.symbol == entry.symbol) =
      own.find? fun leaf => leaf.symbol == entry.symbol)
    (apart : entry.symbol ∉ entry.targets) :
    Settled own (LexicalCell.addAlias leaves entry) entry := by
  rw [Settled, targetLeaves_addAlias apart]
  cases found : own.find? (fun leaf => leaf.symbol == entry.symbol) with
  | none => rw [find?_addAlias_self (unplaced.trans found), Option.none_or]
  | some leaf =>
      rw [addAlias_of_find? (unplaced.trans found), unplaced, found, Option.some_or]

/-- Once aliases have been added in order, all of them are settled. -/
theorem foldl_addAlias_settled {aliases placed : List Alias}
    (ordered : Alias.Ordered aliases placed) (own : List (Leaf V)) :
    ∀ entry ∈ placed, Settled own (placed.foldl LexicalCell.addAlias own) entry := by
  induction ordered with
  | nil => exact nofun
  | @append placed entry orderedPlaced isAlias earlier ih =>
      rw [List.foldl_append, List.foldl_cons, List.foldl_nil, List.forall_mem_append,
        List.forall_mem_singleton]
      by_cases placedBefore : entry ∈ placed
      · -- An alias that is placed again has been settled, and adding it changes nothing.
        rw [addAlias_of_settled (ih entry placedBefore)]
        exact ⟨ih, ih entry placedBefore⟩
      · have differs : ∀ other ∈ placed, other.symbol ≠ entry.symbol := by
          intro other member same
          have isOther := orderedPlaced.find?_eq member
          rw [same, isAlias] at isOther
          cases isOther
          exact placedBefore member
        constructor
        · intro other member
          apply (ih other member).addAlias (differs other member).symm
          exact fun listed => placedBefore (orderedPlaced.closed member listed isAlias)
        · apply settled_addAlias_self
          · exact find?_foldl_addAlias differs
          · exact fun listed => placedBefore (earlier entry.symbol listed entry isAlias)

end Settled

theorem Scanned.leaf?_alias {input : Input V} {cell : LexicalCell V} {aliases : List Alias}
    {entry : Alias} (scanned : cell.Scanned input)
    (ordered : Alias.Ordered aliases input.grammar.aliases.entries)
    (member : entry ∈ input.grammar.aliases.entries) :
    cell.leaf? entry.symbol =
      ((ownLeaves cell.toLanding input.grammar.terminals).find? fun leaf =>
        leaf.symbol == entry.symbol).or
          ((furthest (entry.targets.filterMap cell.leaf?)).map (·.retag entry.symbol)) := by
  have leaves : cell.leaves = input.grammar.aliases.entries.foldl addAlias
      (ownLeaves cell.toLanding input.grammar.terminals) := by
    rw [← scanned.scanned, scan_leaves]
  have settled := foldl_addAlias_settled ordered
    (ownLeaves cell.toLanding input.grammar.terminals) entry member
  rw [← leaves] at settled
  exact settled

end LexicalCell

/-! ### Cells of a session -/

namespace Chart

variable {engine : RegexEngine} {declarations : List (Declaration V)} {input : Input V}
  {places : Position → Prop} {chart : Chart V}

/-- In every cell, an alias with a match of its own as a terminal has this match. Any other alias
has a match if and only if one of its targets has; it is the match of the first declared target
among those that reach furthest, under the symbol of the alias. -/
theorem Reachable.alias_equations (built : Grammar.build engine declarations = .ok input.grammar)
    (reachable : chart.Reachable input places) {offset : Nat} {cell : LexicalCell V}
    (here : chart.lexicalAt? offset = some cell) {symbol : Symbol}
    (declared : Call.Declared (declarations.flatMap Declaration.calls) .aliased symbol) :
    (∀ terminal ∈ input.grammar.terminals, terminal.symbol = symbol → ∀ own candidate,
      LexicalCell.scanTerminal cell.toLanding terminal = some (own, candidate) →
        cell.leaf? symbol = some own) ∧
    ((∀ terminal ∈ input.grammar.terminals, terminal.symbol = symbol →
        LexicalCell.scanTerminal cell.toLanding terminal = none) →
      ((cell.leaf? symbol).isSome ↔
        ∃ target ∈ Call.targets (declarations.flatMap Declaration.calls) symbol,
          (cell.leaf? target).isSome) ∧
      ∀ leaf, cell.leaf? symbol = some leaf → ∃ before target after found,
        Call.targets (declarations.flatMap Declaration.calls) symbol =
          before ++ target :: after ∧
        cell.leaf? target = some found ∧ leaf = found.retag symbol ∧
        (∀ other ∈ before, ∀ reached, cell.leaf? other = some reached →
          reached.stop.offset < found.stop.offset) ∧
        ∀ other ∈ after, ∀ reached, cell.leaf? other = some reached →
          reached.stop.offset ≤ found.stop.offset) := by
  have wellFormed := Grammar.build_wellFormed built
  have scanned := ((reachable.sound wellFormed).arena.lexical here).1
  obtain ⟨⟨aliases, ordered⟩, member⟩ := Grammar.build_alias built declared
  have equation := scanned.leaf?_alias ordered member
  constructor
  · rintro terminal listed rfl own candidate isOwn
    rw [LexicalCell.find?_ownLeaves (Grammar.build_terminals_nodup built) listed, isOwn] at equation
    exact equation
  · intro unmatched
    have noOwn : (LexicalCell.ownLeaves cell.toLanding input.grammar.terminals).find?
        (fun leaf => leaf.symbol == symbol) = none := by
      by_cases listed : symbol ∈ input.grammar.terminals.map Terminal.symbol
      · obtain ⟨terminal, isTerminal, rfl⟩ := List.mem_map.1 listed
        rw [LexicalCell.find?_ownLeaves (Grammar.build_terminals_nodup built) isTerminal,
          unmatched terminal isTerminal rfl]
        rfl
      · exact LexicalCell.find?_ownLeaves_of_not_mem listed
    rw [noOwn, Option.none_or] at equation
    constructor
    · rw [equation, Option.isSome_map, Option.isSome_iff_ne_none, Ne,
        LexicalCell.furthest_eq_none_iff, List.filterMap_eq_nil_iff]
      simp only [not_forall, exists_prop, Option.isSome_iff_ne_none, Ne]
    · intro leaf isLeaf
      rw [equation] at isLeaf
      obtain ⟨found, isBest, rfl⟩ := Option.map_eq_some_iff.1 isLeaf
      obtain ⟨before, target, after, split, isFound, earlier, later⟩ :=
        LexicalCell.furthest_filterMap isBest
      exact ⟨before, target, after, found, split, isFound, rfl, earlier, later⟩

end Chart

/-! ### An alias that is declared before its target -/

namespace Nested

def outerSymbol : Symbol := ⟨"OUTER"⟩

def innerSymbol : Symbol := ⟨"INNER"⟩

def shortSymbol : Symbol := ⟨"SHORT"⟩

def longSymbol : Symbol := ⟨"LONG"⟩

def declarations : List (Declaration Scalar) :=
  [ .blanks [' '],
    .root outerSymbol,
    .aliased outerSymbol [innerSymbol],
    .aliased innerSymbol [shortSymbol, longSymbol],
    .terminal shortSymbol [.pattern (.words ["b"])],
    .terminal longSymbol [.pattern (.words ["bb"])]]

def grammar : Grammar Scalar where
  blanks := [' ']
  root := outerSymbol
  terminals := [
    ⟨shortSymbol, [⟨.words [['b']], none⟩]⟩,
    ⟨longSymbol, [⟨.words [['b', 'b']], none⟩]⟩]
  aliases := .ofEntries [⟨innerSymbol, [shortSymbol, longSymbol]⟩, ⟨outerSymbol, [innerSymbol]⟩]
  rules := []

theorem build_eq : Grammar.build Regex.engine declarations = .ok grammar := by
  rfl

def input : Input Scalar where
  grammar := grammar
  source := [' ', 'b', 'b']

end Nested

/-- The outer alias stands for what the inner one does, which is the longer of its matches. -/
theorem nested_outer_settled :
    ∃ cell found, (Nested.grammar.parse Nested.input.source).chart.lexicalAt? 1 = some cell ∧
      cell.leaf? Nested.innerSymbol = some found ∧ found.text = ['b', 'b'] ∧
      cell.leaf? Nested.outerSymbol = some (found.retag Nested.outerSymbol) := by
  have reads : ((Nested.grammar.parse Nested.input.source).chart.lexicalAt? 1).bind
      (fun cell => (cell.leaf? Nested.innerSymbol).map (·.text)) = some ['b', 'b'] := by
    decide +kernel
  obtain ⟨cell, here, isInner⟩ := Option.bind_eq_some_iff.1 reads
  obtain ⟨found, matched, text⟩ := Option.map_eq_some_iff.1 isInner
  have declared : Call.Declared (Nested.declarations.flatMap Declaration.calls) .aliased
      Nested.outerSymbol := by
    refine ⟨.aliased Nested.outerSymbol [Nested.innerSymbol], ?_, rfl⟩
    simp [Nested.declarations, Declaration.calls, Declaration.opening]
  have reachable : (Nested.grammar.parse Nested.input.source).chart.Reachable Nested.input
      fun _ => True := .parsed
  obtain ⟨-, unmatched⟩ := Chart.Reachable.alias_equations Nested.build_eq reachable here declared
  have notTerminal : ∀ terminal ∈ Nested.input.grammar.terminals,
      terminal.symbol ≠ Nested.outerSymbol := by
    decide
  obtain ⟨present, isTarget⟩ :=
    unmatched fun terminal member same => (notTerminal terminal member same).elim
  have targets : Call.targets (Nested.declarations.flatMap Declaration.calls) Nested.outerSymbol =
      [Nested.innerSymbol] := by
    decide
  rw [targets] at present isTarget
  have some_ : (cell.leaf? Nested.outerSymbol).isSome :=
    present.2 ⟨_, List.mem_singleton_self _, Option.isSome_of_mem matched⟩
  obtain ⟨leaf, isLeaf⟩ := Option.isSome_iff_exists.1 some_
  obtain ⟨before, target, after, other, split, isOther, rfl, -, -⟩ := isTarget leaf isLeaf
  obtain ⟨rfl, rfl, rfl⟩ : before = [] ∧ target = Nested.innerSymbol ∧ after = [] := by
    simpa [List.singleton_eq_append_iff] using split
  rw [matched] at isOther
  cases isOther
  exact ⟨cell, found, here, matched, text, isLeaf⟩

end Packrat
