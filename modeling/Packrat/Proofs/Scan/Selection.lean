import Packrat.Proofs.Scan.Aliases
import Packrat.Proofs.Scan.Cuts
import Packrat.Proofs.Scan.Spelling

/-!
Which match is chosen at a place. Twice the first of those that reach furthest wins (`Leads`): among
the candidates of a terminal (`LexicalCell.longestCandidate_leads`), and among the terminals that
match (`LexicalCell.longest_own`). Aliases take no part in the second choice. What an alias stands
for ends where an earlier match does, so adding it changes nothing, however aliases refer to each
other (`LexicalCell.furthest_foldl_addAlias`).
-/

set_option autoImplicit false
set_option linter.unusedSectionVars false

namespace Packrat

/-- Whether an entry is the first of those with the greatest size, which is `most`. Entries can be
without a size. -/
def Leads {α : Type} (size : α → Option Nat) (entries : List α) (entry : α) (most : Nat) : Prop :=
  ∃ before after, entries = before ++ entry :: after ∧ size entry = some most ∧
    (∀ other ∈ before, ∀ less, size other = some less → less < most) ∧
    ∀ other ∈ after, ∀ less, size other = some less → less ≤ most

namespace Leads

variable {α : Type} {size : α → Option Nat} {entries : List α} {entry next : α} {most : Nat}

theorem le (leads : Leads size entries entry most) {other : α} (member : other ∈ entries)
    {less : Nat} (isSize : size other = some less) : less ≤ most := by
  obtain ⟨before, after, rfl, isMost, earlier, later⟩ := leads
  rcases List.mem_append.1 member with inBefore | behind
  · exact Nat.le_of_lt (earlier other inBefore less isSize)
  · rcases List.mem_cons.1 behind with rfl | inAfter
    · cases isMost.symm.trans isSize
      exact Nat.le_refl most
    · exact later other inAfter less isSize

/-- An entry behind all others takes the lead only with a greater size. -/
theorem keep (leads : Leads size entries entry most)
    (notMore : ∀ less, size next = some less → less ≤ most) :
    Leads size (entries ++ [next]) entry most := by
  obtain ⟨before, after, rfl, isMost, earlier, later⟩ := leads
  refine ⟨before, after ++ [next], by rw [List.append_assoc, List.cons_append], isMost, earlier, ?_⟩
  exact List.forall_mem_append.2 ⟨later, List.forall_mem_singleton.2 notMore⟩

theorem take (isMost : size next = some most)
    (less : ∀ other ∈ entries, ∀ less, size other = some less → less < most) :
    Leads size (entries ++ [next]) next most :=
  ⟨entries, [], rfl, isMost, less, nofun⟩

theorem measures (leads : Leads size entries entry most) : size entry = some most := by
  obtain ⟨-, -, -, isMost, -, -⟩ := leads
  exact isMost

theorem mem (leads : Leads size entries entry most) : entry ∈ entries := by
  obtain ⟨before, after, rfl, -, -, -⟩ := leads
  exact List.mem_append_right before (List.mem_cons_self ..)

/-- Only one entry leads. -/
theorem unique {most' : Nat} (first : Leads size entries entry most)
    (second : Leads size entries next most') : entry = next := by
  have same : most = most' :=
    Nat.le_antisymm (second.le first.mem first.measures)
      (first.le second.mem second.measures)
  subst same
  obtain ⟨before, after, rfl, isMost, earlier, -⟩ := first
  obtain ⟨before', after', split, isMost', earlier', -⟩ := second
  rcases List.append_eq_append_iff.1 split with ⟨more, rfl, behind⟩ | ⟨more, rfl, behind⟩
  · cases more with
    | nil => exact (List.cons.inj behind).1
    | cons head rest =>
        obtain ⟨rfl, -⟩ := List.cons.inj behind
        have member : entry ∈ before ++ entry :: rest :=
          List.mem_append_right before (List.mem_cons_self ..)
        exact absurd (earlier' entry member most isMost) (Nat.lt_irrefl most)
  · cases more with
    | nil => exact (List.cons.inj behind).1.symm
    | cons head rest =>
        obtain ⟨rfl, -⟩ := List.cons.inj behind
        have member : next ∈ before' ++ next :: rest :=
          List.mem_append_right before' (List.mem_cons_self ..)
        exact absurd (earlier next member most isMost') (Nat.lt_irrefl most)

end Leads

variable {V : Type} [Kinded V]

namespace LexicalCell

/-! ### Candidates -/

section Candidates

variable {candidates : List (Candidate V)} {text : List Char}

theorem longestCandidate_append (candidates : List (Candidate V)) (candidate : Candidate V)
    (text : List Char) :
    longestCandidate (candidates ++ [candidate]) text =
      prefer text (longestCandidate candidates text) candidate :=
  List.foldl_append

theorem longestCandidate_eq_none_iff :
    longestCandidate candidates text = none ↔
      ∀ candidate ∈ candidates, candidate.scanner.scan text = none := by
  induction candidates using List.reverseRecOn with
  | nil => exact ⟨fun _ => nofun, fun _ => rfl⟩
  | append_singleton candidates next ih =>
      rw [longestCandidate_append, List.forall_mem_append, List.forall_mem_singleton, ← ih, prefer]
      cases next.scanner.scan text with
      | none => simp
      | some length =>
          cases longestCandidate candidates text with
          | none => simp
          | some best =>
              dsimp only
              split <;> simp

/-- Of the candidates that match, the first of those that match most is chosen. -/
theorem longestCandidate_leads {candidate : Candidate V} {length : Nat}
    (chosen : longestCandidate candidates text = some (length, candidate)) :
    Leads (fun candidate => candidate.scanner.scan text) candidates candidate length := by
  induction candidates using List.reverseRecOn generalizing candidate length with
  | nil => cases chosen
  | append_singleton candidates next ih =>
      rw [longestCandidate_append, prefer] at chosen
      cases scanned : next.scanner.scan text with
      | none =>
          rw [scanned] at chosen
          refine (ih chosen).keep fun less isSize => ?_
          cases scanned.symm.trans isSize
      | some more =>
          rw [scanned] at chosen
          cases best : longestCandidate candidates text with
          | none =>
              rw [best] at chosen
              cases chosen
              refine .take scanned fun other member less isSize => ?_
              cases (longestCandidate_eq_none_iff.1 best other member).symm.trans isSize
          | some found =>
              rcases found with ⟨most, winner⟩
              rw [best] at chosen
              dsimp only at chosen
              split at chosen
              · next longer =>
                  cases chosen
                  exact .take scanned fun other member less isSize =>
                    Nat.lt_of_le_of_lt ((ih best).le member isSize) longer
              · next short =>
                  cases chosen
                  refine (ih best).keep fun less isSize => ?_
                  cases scanned.symm.trans isSize
                  exact Nat.le_of_not_lt short

end Candidates

/-! ### Own matches of terminals -/

section Own

variable {landing : Landing} {terminal : Terminal V}

theorem scanTerminal_eq_none_iff :
    scanTerminal landing terminal = none ↔
      ∀ candidate ∈ terminal.candidates, candidate.scanner.scan landing.rest = none := by
  rw [← longestCandidate_eq_none_iff]
  constructor
  · intro nothing
    cases chosen : longestCandidate terminal.candidates landing.rest with
    | none => rfl
    | some found =>
        rcases found with ⟨length, candidate⟩
        obtain ⟨before, after, -, scanned, -, -⟩ := longestCandidate_leads chosen
        obtain ⟨piece, behind, split, rfl⟩ := candidate.scanner.scan_cuts _ _ scanned
        have taken : Text.takeBytes? landing.rest (Text.byteLength piece) = some piece := by
          rw [split, Text.takeBytes?_append]
        simp [scanTerminal, chosen, taken] at nothing
  · intro nothing
    simp [scanTerminal, nothing]

/-- The match of a terminal is as long as its leading candidate says, and has the value that this
candidate gives to the text. -/
theorem scanTerminal_leads {own : Leaf V} {candidate : Candidate V}
    (matched : scanTerminal landing terminal = some (own, candidate)) :
    Leads (fun candidate => candidate.scanner.scan landing.rest) terminal.candidates candidate
        (Text.byteLength own.text) ∧
      own.value = candidate.transform.map fun transform => transform own.text := by
  simp only [scanTerminal, Option.bind_eq_bind, Option.bind_eq_some_iff] at matched
  obtain ⟨⟨length, chosen⟩, isChosen, text, taken, made⟩ := matched
  obtain ⟨after, -, rfl⟩ := (Text.takeBytes?_eq_some_iff _ _ _).1 taken
  cases made
  exact ⟨longestCandidate_leads isChosen, rfl⟩

end Own

/-! ### Aliases -/

section Aliases

variable {leaves own : List (Leaf V)} {entry : Alias} {leaf : Leaf V}

theorem furthest_append (leaves : List (Leaf V)) (next : Leaf V) :
    furthest (leaves ++ [next]) = pick (furthest leaves) next :=
  List.foldl_append

theorem furthest_leads (found : furthest leaves = some leaf) :
    Leads (fun leaf => some leaf.stop.offset) leaves leaf leaf.stop.offset := by
  obtain ⟨before, after, split, earlier, later⟩ := furthest_eq_some found
  refine ⟨before, after, split, rfl, ?_, ?_⟩
  · rintro other member less ⟨⟩
    exact earlier other member
  · rintro other member less ⟨⟩
    exact later other member

/-- The match of an alias reaches no further than a match that is there already. -/
theorem furthest_addAlias (leaves : List (Leaf V)) (entry : Alias) :
    furthest (addAlias leaves entry) = furthest leaves := by
  unfold addAlias
  split
  · rfl
  · split
    · next target isTarget =>
        obtain ⟨name, -, isLeaf⟩ := List.mem_filterMap.1 (furthest_mem isTarget)
        have member : target ∈ leaves := List.mem_of_find?_eq_some isLeaf
        cases best : furthest leaves with
        | none =>
            rw [furthest_eq_none_iff.1 best] at member
            cases member
        | some winner =>
            have notFurther : target.stop.offset ≤ winner.stop.offset :=
              (furthest_leads best).le member rfl
            rw [furthest_append, best, pick, if_neg]
            exact Nat.not_lt_of_le notFurther
    · rfl

theorem furthest_foldl_addAlias (leaves : List (Leaf V)) (aliases : List Alias) :
    furthest (aliases.foldl addAlias leaves) = furthest leaves := by
  induction aliases generalizing leaves with
  | nil => rfl
  | cons entry rest ih => rw [List.foldl_cons, ih, furthest_addAlias]

/-- Whether some leaves are given ones with those of aliases behind them, under symbols that none of
the given ones has. -/
def Retags (aliases : List Alias) (own leaves : List (Leaf V)) : Prop :=
  ∃ retagged, leaves = own ++ retagged ∧ ∀ leaf ∈ retagged,
    (∃ entry ∈ aliases, leaf.symbol = entry.symbol) ∧ ∀ other ∈ own, other.symbol ≠ leaf.symbol

theorem Retags.refl (aliases : List Alias) (own : List (Leaf V)) : Retags aliases own own :=
  ⟨[], (List.append_nil own).symm, nofun⟩

theorem Retags.addAlias {aliases : List Alias} (retags : Retags aliases own leaves)
    (listed : entry ∈ aliases) : Retags aliases own (LexicalCell.addAlias leaves entry) := by
  obtain ⟨retagged, rfl, named⟩ := retags
  unfold LexicalCell.addAlias
  split
  · exact ⟨retagged, rfl, named⟩
  · next unmatched =>
      split
      · next target _ =>
          refine ⟨retagged ++ [target.retag entry.symbol], List.append_assoc .., ?_⟩
          refine List.forall_mem_append.2 ⟨named, List.forall_mem_singleton.2 ?_⟩
          refine ⟨⟨entry, listed, rfl⟩, fun other member same => unmatched ?_⟩
          exact List.any_eq_true.2 ⟨other, List.mem_append_left _ member, beq_iff_eq.2 same⟩
      · exact ⟨retagged, rfl, named⟩

theorem Retags.foldl_addAlias {aliases listed : List Alias} (retags : Retags aliases own leaves)
    (inside : ∀ entry ∈ listed, entry ∈ aliases) :
    Retags aliases own (listed.foldl LexicalCell.addAlias leaves) := by
  induction listed generalizing leaves with
  | nil => exact retags
  | cons entry rest ih =>
      obtain ⟨first, others⟩ := List.forall_mem_cons.1 inside
      exact ih (retags.addAlias first) others

end Aliases

/-! ### Cells -/

section Cells

variable {grammar : Grammar V} {landing : Landing}

theorem scan_retags (grammar : Grammar V) (landing : Landing) :
    Retags grammar.aliases.entries (ownLeaves landing grammar.terminals)
      (scan grammar landing).1.leaves := by
  rw [scan_leaves]
  exact (Retags.refl _ _).foldl_addAlias fun _ listed => listed

theorem scan_leaf?_own {terminal : Terminal V} {own : Leaf V} {candidate : Candidate V}
    (distinct : (grammar.terminals.map (·.symbol)).Nodup) (listed : terminal ∈ grammar.terminals)
    (matched : scanTerminal landing terminal = some (own, candidate)) :
    (scan grammar landing).1.leaf? terminal.symbol = some own := by
  obtain ⟨retagged, split, -⟩ := scan_retags grammar landing
  rw [leaf?, split, List.find?_append, find?_ownLeaves distinct listed, matched]
  rfl

theorem scan_longest (grammar : Grammar V) (landing : Landing) :
    (scan grammar landing).1.longest = furthest (ownLeaves landing grammar.terminals) := by
  rw [longest, scan_leaves, furthest_foldl_addAlias]

theorem ownLeaves_eq_nil_iff {terminals : List (Terminal V)} :
    ownLeaves landing terminals = [] ↔
      ∀ terminal ∈ terminals, scanTerminal landing terminal = none := by
  rw [ownLeaves, List.map_eq_nil_iff, List.filterMap_eq_nil_iff]

/-- Of the matches of terminals, the one that reaches furthest is that of the first terminal that
does. -/
theorem furthest_ownLeaves {terminals : List (Terminal V)} {leaf : Leaf V}
    (found : furthest (ownLeaves landing terminals) = some leaf) :
    ∃ terminal candidate, scanTerminal landing terminal = some (leaf, candidate) ∧
      Leads (fun terminal => (scanTerminal landing terminal).map fun own => own.1.stop.offset)
        terminals terminal leaf.stop.offset := by
  have ownOf : ownLeaves landing terminals =
      terminals.filterMap fun terminal => (scanTerminal landing terminal).map Prod.fst :=
    List.map_filterMap
  rw [ownOf] at found
  obtain ⟨before, terminal, after, rfl, matched, earlier, later⟩ := furthest_filterMap found
  obtain ⟨⟨own, candidate⟩, isOwn, rfl⟩ := Option.map_eq_some_iff.1 matched
  refine ⟨terminal, candidate, isOwn, before, after, rfl, by simp only [isOwn, Option.map_some],
    ?_, ?_⟩
  · intro other member less isSize
    obtain ⟨reached, isReached, rfl⟩ := Option.map_eq_some_iff.1 isSize
    exact earlier other member reached.1 (by rw [isReached]; rfl)
  · intro other member less isSize
    obtain ⟨reached, isReached, rfl⟩ := Option.map_eq_some_iff.1 isSize
    exact later other member reached.1 (by rw [isReached]; rfl)

end Cells

end LexicalCell

/-! ### Cells of a session -/

namespace Chart

variable {engine : RegexEngine} {declarations : List (Declaration V)} {input : Input V}
  {places : Position → Prop} {chart : Chart V}

/-- In every cell, the terminals that match come first, in their order, and then aliases whose
symbols none of them has. A terminal matches exactly if one of its candidates does; its match is as
long as the longest of theirs, and has the value of the first candidate of this length. The longest
match of the cell is that of the first terminal among those that reach furthest. -/
theorem Reachable.longest_chosen (built : Grammar.build engine declarations = .ok input.grammar)
    (reachable : chart.Reachable input places) {offset : Nat} {cell : LexicalCell V}
    (here : chart.lexicalAt? offset = some cell) :
    LexicalCell.Retags input.grammar.aliases.entries
      (LexicalCell.ownLeaves cell.toLanding input.grammar.terminals) cell.leaves ∧
    (∀ terminal ∈ input.grammar.terminals,
      (LexicalCell.scanTerminal cell.toLanding terminal = none ↔
        ∀ candidate ∈ terminal.candidates, candidate.scanner.scan cell.rest = none) ∧
      ∀ own candidate,
        LexicalCell.scanTerminal cell.toLanding terminal = some (own, candidate) →
          cell.leaf? terminal.symbol = some own ∧ own.symbol = terminal.symbol ∧
          own.FitsAt cell.toLanding ∧
          Leads (fun candidate => candidate.scanner.scan cell.rest) terminal.candidates candidate
            (Text.byteLength own.text) ∧
          own.value = candidate.transform.map fun transform => transform own.text) ∧
    (cell.longest = none ↔ ∀ terminal ∈ input.grammar.terminals,
      LexicalCell.scanTerminal cell.toLanding terminal = none) ∧
    ∀ leaf, cell.longest = some leaf → ∃ terminal candidate,
      LexicalCell.scanTerminal cell.toLanding terminal = some (leaf, candidate) ∧
      Leads
        (fun terminal =>
          (LexicalCell.scanTerminal cell.toLanding terminal).map fun own => own.1.stop.offset)
        input.grammar.terminals terminal leaf.stop.offset := by
  have scanned := ((reachable.sound (Grammar.build_wellFormed built)).arena.lexical here).1
  have retags := LexicalCell.scan_retags input.grammar cell.toLanding
  have longest := LexicalCell.scan_longest input.grammar cell.toLanding
  rw [LexicalCell.longest, scanned.scanned] at longest
  rw [scanned.scanned] at retags
  refine ⟨retags, ?_, ?_, ?_⟩
  · intro terminal listed
    refine ⟨LexicalCell.scanTerminal_eq_none_iff, ?_⟩
    intro own candidate matched
    have isLeaf := LexicalCell.scan_leaf?_own (Grammar.build_terminals_nodup built) listed matched
    rw [LexicalCell.leaf?, scanned.scanned] at isLeaf
    exact ⟨isLeaf, LexicalCell.scanTerminal_symbol matched, LexicalCell.scanTerminal_fits matched,
      LexicalCell.scanTerminal_leads matched⟩
  · rw [LexicalCell.longest, longest, LexicalCell.furthest_eq_none_iff,
      LexicalCell.ownLeaves_eq_nil_iff]
  · intro leaf isLongest
    rw [LexicalCell.longest, longest] at isLongest
    exact LexicalCell.furthest_ownLeaves isLongest

end Chart

/-! ### Candidates and terminals that reach equally far -/

namespace Ties

def pairSymbol : Symbol := ⟨"PAIR"⟩

def runSymbol : Symbol := ⟨"RUN"⟩

def eitherSymbol : Symbol := ⟨"EITHER"⟩

def outerSymbol : Symbol := ⟨"OUTER"⟩

def declarations : List (Declaration Scalar) :=
  [ .root outerSymbol,
    .aliased outerSymbol [eitherSymbol],
    .aliased eitherSymbol [runSymbol, pairSymbol],
    .terminal pairSymbol [
      .pattern (.fixed 1), .value fun _ => .text "one",
      .pattern (.words ["b", "bb"]), .value fun _ => .text "word",
      .pattern (.fixed 2), .value fun _ => .text "two"],
    .terminal runSymbol [.pattern (.words ["bb"])]]

def pairTerminal : Terminal Scalar :=
  ⟨pairSymbol, [
    ⟨.fixed 1, some fun _ => .text "one"⟩,
    ⟨.words [['b'], ['b', 'b']], some fun _ => .text "word"⟩,
    ⟨.fixed 2, some fun _ => .text "two"⟩]⟩

def grammar : Grammar Scalar where
  blanks := [' ', '\t', '\r', '\n']
  root := outerSymbol
  terminals := [pairTerminal, ⟨runSymbol, [⟨.words [['b', 'b']], none⟩]⟩]
  aliases := .ofEntries [⟨eitherSymbol, [runSymbol, pairSymbol]⟩, ⟨outerSymbol, [eitherSymbol]⟩]
  rules := []

theorem build_eq : Grammar.build Regex.engine declarations = .ok grammar := by
  rfl

def input : Input Scalar where
  grammar := grammar
  source := [' ', 'b', 'b', 'b']

end Ties

/-- All symbols match two characters, and so do two candidates of the first terminal. The longest
match is its own, with the value of the first of these candidates. -/
theorem ties_pair_chosen :
    ∃ cell leaf, (Ties.grammar.parse Ties.input.source).chart.lexicalAt? 1 = some cell ∧
      cell.longest = some leaf ∧ leaf.symbol = Ties.pairSymbol ∧ leaf.text = ['b', 'b'] ∧
      leaf.value = some (.text "word") := by
  have reads : ((Ties.grammar.parse Ties.input.source).chart.lexicalAt? 1).bind
      (fun cell => cell.longest.map fun leaf => (leaf.symbol, leaf.text, cell.rest)) =
        some (Ties.pairSymbol, ['b', 'b'], ['b', 'b', 'b']) := by
    decide +kernel
  obtain ⟨cell, here, isLongest⟩ := Option.bind_eq_some_iff.1 reads
  obtain ⟨leaf, found, same⟩ := Option.map_eq_some_iff.1 isLongest
  obtain ⟨isPair, same⟩ := Prod.mk.inj same
  obtain ⟨isText, isRest⟩ := Prod.mk.inj same
  have reachable : (Ties.grammar.parse Ties.input.source).chart.Reachable Ties.input
      fun _ => True := .parsed
  obtain ⟨-, each, -, chosen⟩ := Chart.Reachable.longest_chosen Ties.build_eq reachable here
  obtain ⟨terminal, candidate, matched, leads⟩ := chosen leaf found
  obtain ⟨-, isSymbol, -, isBest, isValue⟩ := (each terminal leads.mem).2 leaf candidate matched
  have isTerminal : terminal = Ties.pairTerminal := by
    rcases List.mem_cons.1 leads.mem with same | other
    · exact same
    · rw [List.mem_singleton.1 other, isPair] at isSymbol
      exact absurd isSymbol (by decide)
  subst isTerminal
  rw [isRest, isText] at isBest
  have second : Leads (fun candidate : Candidate Scalar => candidate.scanner.scan ['b', 'b', 'b'])
      Ties.pairTerminal.candidates
      ⟨.words [['b'], ['b', 'b']], some fun _ => .text "word"⟩ 2 := by
    refine ⟨[⟨.fixed 1, _⟩], [⟨.fixed 2, _⟩], rfl, by decide +kernel, ?_, ?_⟩
    · refine List.forall_mem_singleton.2 fun less isSize => ?_
      cases (show Scanner.scan (.fixed 1) ['b', 'b', 'b'] = some 1 by decide +kernel).symm.trans
        isSize
      decide
    · refine List.forall_mem_singleton.2 fun less isSize => ?_
      cases (show Scanner.scan (.fixed 2) ['b', 'b', 'b'] = some 2 by decide +kernel).symm.trans
        isSize
      decide
  rw [isBest.unique second] at isValue
  exact ⟨cell, leaf, here, found, isPair, isText, isValue⟩

end Packrat
