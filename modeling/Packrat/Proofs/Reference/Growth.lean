import Mathlib.Logic.Relation
import Packrat.Proofs.Grammar.WellFormed
import Packrat.Proofs.Reference.Basic

/-!
What the reference makes of a rule. The first of the longest nodes over alternatives that do not
start with the rule itself is the seed; the alternatives that do lengthen it step by step; and the
outcome is a node that none of them lengthens any more (`Parses.resolve_some`). There is no outcome
exactly if no alternative gives a seed (`Parses.resolve_none_iff`).
-/

set_option autoImplicit false
set_option linter.unusedSectionVars false

namespace Packrat

variable {V : Type} [Kinded V]

theorem Tree.over?_eq_none_iff {symbol : Symbol} {index : Nat} {parts : List (Branch V)} :
    Tree.over? symbol index parts = none ↔ parts = [] := by
  cases parts with
  | nil => exact ⟨fun _ => rfl, fun _ => rfl⟩
  | cons first rest =>
      refine ⟨fun none_ => ?_, nofun⟩
      rw [Tree.over?, List.head?_cons, List.getLast?_cons] at none_
      cases none_

theorem Tree.ofRun?_eq_none_iff {symbol : Symbol} {index : Nat}
    {run : Option (List (Branch V) × Position)} :
    Tree.ofRun? symbol index [] run = none ↔
      ∀ parts stop, run = some (parts, stop) → parts = [] := by
  cases run with
  | none => exact ⟨fun _ => nofun, fun _ => rfl⟩
  | some result =>
      rcases result with ⟨parts, stop⟩
      rw [Tree.ofRun?, Option.bind_some]
      change Tree.over? symbol index parts = none ↔ _
      rw [Tree.over?_eq_none_iff]
      constructor
      · rintro rfl _ _ ⟨⟩
        rfl
      · intro all
        exact all parts stop rfl

theorem Rule.zipIdx_ordered (rule : Rule V) :
    rule.alternatives.zipIdx.Pairwise fun entry later => entry.2 < later.2 := by
  rw [← List.pairwise_map, List.zipIdx_map_snd]
  exact List.pairwise_lt_range'

namespace Input

def Tries (input : Input V) (place : Position) (symbol : Symbol) (entry : Alternative V × Nat)
    (found : Option (Tree V)) : Prop :=
  entry.1.recursive = false ∧ ∃ run,
    Parses input (.sequence entry.1.elements place) (.run run) ∧
      found = Tree.ofRun? symbol entry.2 [] run

def Prolongs (input : Input V) (symbol : Symbol) (base : Tree V) (entry : Alternative V × Nat)
    (found : Option (Tree V)) : Prop :=
  entry.1.recursive = true ∧ ∃ head tail run, entry.1.elements = head :: tail ∧
    Parses input (.sequence tail base.stop) (.run run) ∧
      found = Tree.ofRun? symbol entry.2 [⟨head.label?, base⟩] run

/-- The first of the nodes of a rule at a place that reach furthest, over alternatives that do not
start with the rule itself. -/
def IsSeed (input : Input V) (place : Position) (symbol : Symbol) (first : Tree V) : Prop :=
  ∃ index alternative, input.grammar.alternative? symbol index = some alternative ∧
    input.Tries place symbol (alternative, index) (some first) ∧
    ∀ other alternative', input.grammar.alternative? symbol other = some alternative' →
      alternative'.recursive = false →
        ∃ found, input.Tries place symbol (alternative', other) found ∧
          ∀ node, found = some node → node.stop.offset ≤ first.stop.offset ∧
            (other < index → node.stop.offset < first.stop.offset)

/-- A node with a shorter one as its first part, by an alternative that starts with the rule
itself. -/
def Lengthens (input : Input V) (symbol : Symbol) (shorter longer : Tree V) : Prop :=
  shorter.stop.offset < longer.stop.offset ∧
    ∃ index alternative, input.grammar.alternative? symbol index = some alternative ∧
      input.Prolongs symbol shorter (alternative, index) (some longer)

def Exhausted (input : Input V) (symbol : Symbol) (node : Tree V) : Prop :=
  ∀ index alternative, input.grammar.alternative? symbol index = some alternative →
    alternative.recursive = true →
      ∃ found, input.Prolongs symbol node (alternative, index) found ∧
        ∀ longer, found = some longer → longer.stop.offset ≤ node.stop.offset

variable {input : Input V}

theorem Tries.unique {place : Position} {symbol : Symbol} {entry : Alternative V × Nat}
    {found found' : Option (Tree V)} (tries : input.Tries place symbol entry found)
    (tries' : input.Tries place symbol entry found') : found = found' := by
  rcases tries with ⟨-, run, parses, rfl⟩
  rcases tries' with ⟨-, run', parses', rfl⟩
  cases parses.unique parses'
  rfl

theorem Tries.none_iff {place : Position} {symbol : Symbol} {entry : Alternative V × Nat} :
    input.Tries place symbol entry none ↔ entry.1.recursive = false ∧ ∃ run,
      Parses input (.sequence entry.1.elements place) (.run run) ∧
        ∀ parts stop, run = some (parts, stop) → parts = [] := by
  refine and_congr_right fun _ => exists_congr fun run => and_congr_right fun _ => ?_
  rw [eq_comm, Tree.ofRun?_eq_none_iff]

theorem Prolongs.unique {symbol : Symbol} {base : Tree V} {entry : Alternative V × Nat}
    {found found' : Option (Tree V)} (prolongs : input.Prolongs symbol base entry found)
    (prolongs' : input.Prolongs symbol base entry found') : found = found' := by
  rcases prolongs with ⟨-, head, tail, run, starts, parses, rfl⟩
  rcases prolongs' with ⟨-, head', tail', run', starts', parses', rfl⟩
  cases starts.symm.trans starts'
  cases parses.unique parses'
  rfl

theorem Lengthens.chain_stop {symbol : Symbol} {shorter longer : Tree V}
    (chain : Relation.ReflTransGen (input.Lengthens symbol) shorter longer) :
    shorter.stop.offset ≤ longer.stop.offset := by
  induction chain with
  | refl => exact Nat.le_refl _
  | tail _ step ih => exact Nat.le_trans ih (Nat.le_of_lt step.1)

end Input

theorem Tree.longer_eq (best : Tree V) (next : Option (Tree V)) :
    (best.longer next = best ∧ ∀ node, next = some node → node.stop.offset ≤ best.stop.offset) ∨
      ∃ node, next = some node ∧ best.longer next = node ∧
        best.stop.offset < node.stop.offset := by
  cases next with
  | none => exact .inl ⟨rfl, nofun⟩
  | some node =>
      by_cases further : best.stop.offset < node.stop.offset
      · exact .inr ⟨node, rfl, if_pos further, further⟩
      · refine .inl ⟨if_neg further, ?_⟩
        rintro other ⟨⟩
        exact Nat.le_of_not_lt further

theorem Tree.better_eq (best next : Option (Tree V)) :
    (Tree.better best next = best ∧ ∀ node, next = some node →
      ∃ old, best = some old ∧ node.stop.offset ≤ old.stop.offset) ∨
      ∃ node, next = some node ∧ Tree.better best next = some node ∧
        ∀ old, best = some old → old.stop.offset < node.stop.offset := by
  cases best with
  | none =>
      cases next with
      | none => exact .inl ⟨rfl, nofun⟩
      | some node => exact .inr ⟨node, rfl, rfl, nofun⟩
  | some best =>
      rcases Tree.longer_eq best next with ⟨kept, short⟩ | ⟨node, isNode, replaced, further⟩
      · exact .inl ⟨congrArg some kept, fun node isNode => ⟨best, rfl, short node isNode⟩⟩
      · refine .inr ⟨node, isNode, congrArg some replaced, ?_⟩
        rintro old ⟨⟩
        exact further

namespace Parses

variable {input : Input V} {place : Position} {symbol : Symbol}
  {alternatives : List (Alternative V × Nat)}

/-! ### Seeds -/

theorem seeds_none {best : Option (Tree V)}
    (parses : Parses input (.seeds place symbol alternatives best) (.tree none)) :
    best = none ∧ ∀ entry ∈ alternatives, entry.1.recursive = false →
      input.Tries place symbol entry none := by
  induction alternatives generalizing best with
  | nil =>
      cases parses
      exact ⟨rfl, nofun⟩
  | cons entry rest ih =>
      cases parses with
      | seedsSkipped recursive others =>
          obtain ⟨bestNone, fail⟩ := ih others
          refine ⟨bestNone, List.forall_mem_cons.2 ⟨?_, fail⟩⟩
          intro plain
          cases recursive.symm.trans plain
      | @seedsTried _ _ alternative index _ _ run _ plain sequence others =>
          obtain ⟨betterNone, fail⟩ := ih others
          cases best with
          | none => exact ⟨rfl, List.forall_mem_cons.2 ⟨fun _ => ⟨plain, run, sequence,
              betterNone.symm⟩, fail⟩⟩
          | some best => cases betterNone

/-- The loop over seeds keeps the best so far, or comes to the first of the nodes that reach
furthest. -/
theorem seeds_some {best : Option (Tree V)} {first : Tree V}
    (ordered : alternatives.Pairwise fun entry later => entry.2 < later.2)
    (parses : Parses input (.seeds place symbol alternatives best) (.tree (some first))) :
    (best = some first ∧ ∀ entry ∈ alternatives, ∀ node,
      input.Tries place symbol entry (some node) → node.stop.offset ≤ first.stop.offset) ∨
    ∃ entry ∈ alternatives, input.Tries place symbol entry (some first) ∧
      (∀ node, best = some node → node.stop.offset < first.stop.offset) ∧
      ∀ other ∈ alternatives, ∀ node, input.Tries place symbol other (some node) →
        node.stop.offset ≤ first.stop.offset ∧
          (other.2 < entry.2 → node.stop.offset < first.stop.offset) := by
  induction alternatives generalizing best with
  | nil =>
      cases parses
      exact .inl ⟨rfl, nofun⟩
  | cons head rest ih =>
      obtain ⟨behindHead, orderedRest⟩ := List.pairwise_cons.1 ordered
      cases parses with
      | @seedsSkipped _ _ alternative index _ _ _ recursive others =>
          have skipped {found : Option (Tree V)} :
              ¬ input.Tries place symbol (alternative, index) found := by
            rintro ⟨plain, -⟩
            cases recursive.symm.trans plain
          rcases ih orderedRest others with ⟨isBest, top⟩ | ⟨entry, member, isFirst, beats, top⟩
          · exact .inl ⟨isBest, List.forall_mem_cons.2 ⟨fun _ tries => absurd tries skipped, top⟩⟩
          · exact .inr ⟨entry, List.mem_cons_of_mem _ member, isFirst, beats,
              List.forall_mem_cons.2 ⟨fun _ tries => absurd tries skipped, top⟩⟩
      | @seedsTried _ _ alternative index _ _ run _ plain sequence others =>
          have tried : input.Tries place symbol (alternative, index)
              (Tree.ofRun? symbol index [] run) := ⟨plain, run, sequence, rfl⟩
          rcases ih orderedRest others with ⟨isBetter, top⟩ | ⟨entry, member, isFirst, beats, top⟩
          · rcases Tree.better_eq best (Tree.ofRun? symbol index [] run) with
              ⟨kept, behind⟩ | ⟨node, isNode, replaced, further⟩
            · refine .inl ⟨kept.symm.trans isBetter, List.forall_mem_cons.2 ⟨?_, top⟩⟩
              intro node tries
              obtain ⟨old, isOld, short⟩ := behind node (tried.unique tries)
              cases (isOld.symm.trans kept.symm).trans isBetter
              exact short
            · cases replaced.symm.trans isBetter
              rw [isNode] at tried
              refine .inr ⟨(alternative, index), List.mem_cons_self, tried, further, ?_⟩
              refine List.forall_mem_cons.2 ⟨fun node' tries => ?_, fun other inRest node' tries =>
                ⟨top other inRest node' tries, fun earlier => ?_⟩⟩
              · cases tried.unique tries
                exact ⟨Nat.le_refl _, fun earlier => absurd earlier (Nat.lt_irrefl _)⟩
              · exact absurd earlier (Nat.lt_asymm (behindHead other inRest))
          · have beaten : ∀ node, input.Tries place symbol (alternative, index) (some node) →
                node.stop.offset < first.stop.offset := by
              intro node tries
              rcases Tree.better_eq best (Tree.ofRun? symbol index [] run) with
                ⟨kept, behind⟩ | ⟨node', isNode, replaced, -⟩
              · obtain ⟨old, isOld, short⟩ := behind node (tried.unique tries)
                exact Nat.lt_of_le_of_lt short (beats old (kept.trans isOld))
              · cases isNode.symm.trans (tried.unique tries)
                exact beats node replaced
            refine .inr ⟨entry, List.mem_cons_of_mem _ member, isFirst, fun old isOld => ?_,
              List.forall_mem_cons.2 ⟨fun node tries => ?_, top⟩⟩
            · rcases Tree.better_eq best (Tree.ofRun? symbol index [] run) with
                ⟨kept, -⟩ | ⟨node, -, replaced, further⟩
              · exact beats old (kept.trans isOld)
              · exact Nat.lt_trans (further old isOld) (beats node replaced)
            · exact ⟨Nat.le_of_lt (beaten node tries), fun _ => beaten node tries⟩

/-- The loop over seeds comes to an end only if every alternative does. -/
theorem seeds_tried {best found : Option (Tree V)}
    (parses : Parses input (.seeds place symbol alternatives best) (.tree found)) :
    ∀ entry ∈ alternatives, entry.1.recursive = false →
      ∃ found, input.Tries place symbol entry found := by
  induction alternatives generalizing best with
  | nil => nofun
  | cons head rest ih =>
      cases parses with
      | seedsSkipped recursive others =>
          refine List.forall_mem_cons.2 ⟨fun plain => ?_, ih others⟩
          cases recursive.symm.trans plain
      | seedsTried plain sequence others =>
          exact List.forall_mem_cons.2 ⟨fun _ => ⟨_, plain, _, sequence, rfl⟩, ih others⟩

/-! ### Extensions -/

theorem pass_chain {best : Tree V} {found : Option (Tree V)}
    (listed : input.grammar.Lists symbol alternatives)
    (parses : Parses input (.pass symbol alternatives best) (.tree found)) :
    ∃ node, found = some node ∧ Relation.ReflTransGen (input.Lengthens symbol) best node ∧
      (node.stop.offset ≤ best.stop.offset → node = best ∧
        ∀ entry ∈ alternatives, entry.1.recursive = true →
          ∃ next, input.Prolongs symbol best entry next ∧
            ∀ longer, next = some longer → longer.stop.offset ≤ best.stop.offset) := by
  induction alternatives generalizing best with
  | nil =>
      cases parses
      exact ⟨best, rfl, .refl, fun _ => ⟨rfl, nofun⟩⟩
  | cons head rest ih =>
      cases parses with
      | passSkipped plain others =>
          obtain ⟨node, isNode, chain, same⟩ := ih listed.tail others
          refine ⟨node, isNode, chain, fun short => ?_⟩
          obtain ⟨isBest, top⟩ := same short
          refine ⟨isBest, List.forall_mem_cons.2 ⟨fun recursive => ?_, top⟩⟩
          cases recursive.symm.trans plain
      | @passTried _ alternative index first tail _ _ run _ recursive starts sequence others =>
          have prolongs : input.Prolongs symbol best (alternative, index)
              (Tree.ofRun? symbol index [⟨first.label?, best⟩] run) :=
            ⟨recursive, first, tail, run, starts, sequence, rfl⟩
          obtain ⟨node, isNode, chain, same⟩ := ih listed.tail others
          rcases Tree.longer_eq best (Tree.ofRun? symbol index [⟨first.label?, best⟩] run) with
            ⟨kept, short⟩ | ⟨next, isNext, replaced, further⟩
          · rw [kept] at chain same
            refine ⟨node, isNode, chain, fun still => ?_⟩
            obtain ⟨isBest, top⟩ := same still
            exact ⟨isBest, List.forall_mem_cons.2 ⟨fun _ => ⟨_, prolongs, short⟩, top⟩⟩
          · rw [replaced] at chain
            rw [isNext] at prolongs
            have step : input.Lengthens symbol best next :=
              ⟨further, index, alternative, listed _ List.mem_cons_self, prolongs⟩
            refine ⟨node, isNode, .head step chain, fun short => ?_⟩
            exact absurd (Nat.lt_of_lt_of_le further (Input.Lengthens.chain_stop chain))
              (Nat.not_lt_of_le short)

theorem extend_chain {best : Tree V} {found : Option (Tree V)}
    (listed : input.grammar.Lists symbol alternatives)
    (parses : Parses input (.extend symbol alternatives best) (.tree found)) :
    ∃ node, found = some node ∧ Relation.ReflTransGen (input.Lengthens symbol) best node ∧
      ∀ entry ∈ alternatives, entry.1.recursive = true →
        ∃ next, input.Prolongs symbol node entry next ∧
          ∀ longer, next = some longer → longer.stop.offset ≤ node.stop.offset := by
  generalize isGoal : Goal.extend symbol alternatives best = goal at parses
  generalize isOutcome : Outcome.tree found = outcome at parses
  induction parses generalizing best found with
  | extendDone pass short _ =>
      cases isGoal
      cases isOutcome
      obtain ⟨node, isNode, chain, same⟩ := pass_chain listed pass
      cases isNode
      obtain ⟨rfl, top⟩ := same (Nat.le_of_not_lt short)
      exact ⟨_, rfl, .refl, top⟩
  | extendMore pass _ _ _ ihExtend =>
      cases isGoal
      cases isOutcome
      obtain ⟨node, isNode, chain, -⟩ := pass_chain listed pass
      cases isNode
      obtain ⟨last, isLast, further, top⟩ := ihExtend rfl rfl
      exact ⟨last, isLast, chain.trans further, top⟩
  | _ => cases isGoal

/-! ### Rules -/

/-- Over all alternatives of a rule, the loop over seeds comes to the seed. -/
theorem seeds_isSeed {rule : Rule V} {first : Tree V}
    (isRule : input.grammar.rule? symbol = some rule)
    (seeds : Parses input (.seeds place symbol rule.alternatives.zipIdx none)
      (.tree (some first))) :
    input.IsSeed place symbol first := by
  rcases seeds_some rule.zipIdx_ordered seeds with ⟨isBest, -⟩ | ⟨entry, member, isFirst, -, beats⟩
  · cases isBest
  · refine ⟨entry.2, entry.1, (Grammar.alternative?_iff isRule).2 member, isFirst, ?_⟩
    intro other alternative isAlternative plain
    have listed := (Grammar.alternative?_iff isRule).1 isAlternative
    obtain ⟨tree, tries⟩ := seeds_tried seeds _ listed plain
    refine ⟨tree, tries, ?_⟩
    rintro node rfl
    exact beats _ listed node tries

/-- Over alternatives of a rule, with all that start with the rule itself among them, a node grows
until nothing lengthens it. -/
theorem extend_grows {first : Tree V} {found : Option (Tree V)}
    (listed : input.grammar.Lists symbol alternatives)
    (covered : ∀ index alternative,
      input.grammar.alternative? symbol index = some alternative → alternative.recursive = true →
        (alternative, index) ∈ alternatives)
    (extend : Parses input (.extend symbol alternatives first) (.tree found)) :
    ∃ node, found = some node ∧ Relation.ReflTransGen (input.Lengthens symbol) first node ∧
      input.Exhausted symbol node := by
  obtain ⟨node, isNode, chain, top⟩ := extend_chain listed extend
  refine ⟨node, isNode, chain, ?_⟩
  intro index alternative isAlternative recursive
  exact top _ (covered index alternative isAlternative recursive) recursive

/-- The match of a rule grows from the seed until nothing lengthens it. -/
theorem resolve_some {node : Tree V} (isRule : input.grammar.isRule symbol = true)
    (parses : Parses input (.resolve place symbol) (.tree (some node))) :
    ∃ first, input.IsSeed place symbol first ∧
      Relation.ReflTransGen (input.Lengthens symbol) first node ∧
      input.Exhausted symbol node := by
  generalize isFound : some node = found at parses
  cases parses with
  | lexical noRule =>
      rw [Grammar.isRule, noRule] at isRule
      cases isRule
  | barren => cases isFound
  | @grown _ _ rule first _ found seeds extend =>
      obtain ⟨last, isLast, chain, exhausted⟩ := extend_grows (Grammar.lists_zipIdx found)
        (fun _ _ isAlternative _ => (Grammar.alternative?_iff found).1 isAlternative) extend
      cases isFound.trans isLast
      exact ⟨first, seeds_isSeed found seeds, chain, exhausted⟩

/-- A rule is not matched exactly if no alternative gives a seed. -/
theorem resolve_none_iff {found : Option (Tree V)} (isRule : input.grammar.isRule symbol = true)
    (parses : Parses input (.resolve place symbol) (.tree found)) :
    found = none ↔ ∀ index alternative,
      input.grammar.alternative? symbol index = some alternative → alternative.recursive = false →
        input.Tries place symbol (alternative, index) none := by
  cases found with
  | some node =>
      refine ⟨nofun, fun fail => ?_⟩
      obtain ⟨first, ⟨index, alternative, isAlternative, tries, -⟩, -⟩ :=
        resolve_some isRule parses
      cases tries.unique (fail index alternative isAlternative tries.1)
  | none =>
      refine ⟨fun _ index alternative isAlternative plain => ?_, fun _ => rfl⟩
      generalize isFound : none = found at parses
      cases parses with
      | lexical noRule =>
          rw [Grammar.isRule, noRule] at isRule
          cases isRule
      | barren found seeds =>
          exact (seeds_none seeds).2 _ ((Grammar.alternative?_iff found).1 isAlternative) plain
      | grown found _ extend =>
          obtain ⟨node, isNode, -⟩ := extend_chain (Grammar.lists_zipIdx found) extend
          cases isFound.trans isNode

end Parses

end Packrat
