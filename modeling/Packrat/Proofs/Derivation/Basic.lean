import Packrat.Proofs.Chart.Cells
import Packrat.Proofs.Grammar.WellFormed

/-!
Derivations: which tokens a symbol may have at a place, as a grammar says and without regard to how
they are found. A token of a rule is a node over one run of the elements of one of its
alternatives, from left to right; the first element of an alternative that starts with the rule
itself stands for a shorter node of the same rule at the same place.

A derivation speaks of the cells of one chart and stays valid while the chart grows
(`Derives.mono`). `Derives.sits` says where derived tokens lie: they start at the cell, and
the parts of a run reach from its beginning to its end.
-/

set_option autoImplicit false

namespace Packrat

variable {V : Type} [Kinded V]

/-- What a derivation shows: that a symbol has a token in a cell, that elements have these parts
between two places, or the same of a repetition after some rounds. -/
inductive Fact (V : Type) where
  | matched (cell : LexicalCell V) (symbol : Symbol) (token : Token V)
  | run (elements : List Element) (cursor : Position) (parts : List (Child V)) (stop : Position)
  | rounds (elements : List Element) (min : Nat) (max : Option Nat) (count : Nat)
      (cursor : Position) (parts : List (Child V)) (stop : Position)

inductive Derives (input : Input V) (chart : Chart V) : Fact V → Prop where
  -- A terminal or an alias has the leaf that the cell holds for it.
  | leaf {cell symbol lexeme} :
      input.grammar.rule? symbol = none →
      cell.leaf? symbol = some lexeme.toLeaf →
      Derives input chart (.matched cell symbol (.leaf lexeme))
  -- A rule has a node over a run of an alternative that does not start with the rule itself.
  | seed {cell symbol index alternative children first last stop id} :
      input.grammar.alternative? symbol index = some alternative →
      input.grammar.resolver? symbol index = alternative.resolver →
      startsWithItself symbol alternative.elements = false →
      Derives input chart (.run alternative.elements cell.position children stop) →
      children.head? = some first →
      children.getLast? = some last →
      Derives input chart
        (.matched cell symbol
          (.node id symbol index first.item.start last.item.stop children))
  -- Where it does, a shorter node of the rule at the same place stands for the first element.
  | extension {cell symbol index alternative head tail base parts last stop id} :
      input.grammar.alternative? symbol index = some alternative →
      input.grammar.resolver? symbol index = alternative.resolver →
      alternative.elements = head :: tail →
      head.symbol? = some symbol →
      Derives input chart (.matched cell symbol base) →
      Derives input chart (.run tail base.stop parts stop) →
      (⟨head.label?, base⟩ :: parts).getLast? = some last →
      base.stop.offset < last.item.stop.offset →
      Derives input chart
        (.matched cell symbol
          (.node id symbol index base.start last.item.stop (⟨head.label?, base⟩ :: parts)))
  -- Each element begins where the one before it has ended.
  | done {cursor} : Derives input chart (.run [] cursor [] cursor)
  | literal {text rest cursor cell lexeme more stop} :
      chart.cellFrom? input cursor.offset = some cell →
      cell.literal? text = some lexeme.toLeaf →
      Derives input chart (.run rest lexeme.stop more stop) →
      Derives input chart
        (.run (.literal text :: rest) cursor (⟨none, .leaf lexeme⟩ :: more) stop)
  | reference {element symbol rest cursor cell token more stop} :
      element.symbol? = some symbol →
      chart.cellFrom? input cursor.offset = some cell →
      Derives input chart (.matched cell symbol token) →
      Derives input chart (.run rest token.stop more stop) →
      Derives input chart (.run (element :: rest) cursor (⟨element.label?, token⟩ :: more) stop)
  | repeated {elements min max rest cursor parts next more stop} :
      Derives input chart (.rounds elements min max 0 cursor parts next) →
      Derives input chart (.run rest next more stop) →
      Derives input chart (.run (.repeated elements min max :: rest) cursor (parts ++ more) stop)
  -- A repetition makes complete rounds: so many as its bounds allow, or fewer than the lower bound
  -- if the last of them consumes nothing.
  | enough {elements min max count cursor} :
      min ≤ count →
      Derives input chart (.rounds elements min max count cursor [] cursor)
  | idle {elements min max count cursor parts next} :
      (∀ limit, max = some limit → count < limit) →
      Derives input chart (.run elements cursor parts next) →
      next.offset = cursor.offset →
      Derives input chart (.rounds elements min max count cursor parts cursor)
  | onward {elements min max count cursor parts next more stop} :
      (∀ limit, max = some limit → count < limit) →
      Derives input chart (.run elements cursor parts next) →
      cursor.offset < next.offset →
      Derives input chart (.rounds elements min max (count + 1) next more stop) →
      Derives input chart (.rounds elements min max count cursor (parts ++ more) stop)

namespace Derives

variable {input : Input V} {chart : Chart V}

theorem mono {after : Chart V} {fact : Fact V} (derived : Derives input chart fact)
    (grown : chart.Extends after) : Derives input after fact := by
  induction derived with
  | leaf noRule found => exact .leaf noRule found
  | seed isAlternative resolver plain _ isFirst isLast ihRun =>
      exact .seed isAlternative resolver plain ihRun isFirst isLast
  | extension isAlternative resolver starts itself _ _ isLast longer ihBase ihRun =>
      exact .extension isAlternative resolver starts itself ihBase ihRun isLast longer
  | done => exact .done
  | literal here found _ ihRest =>
      exact .literal (Chart.cellFrom?_mono grown here) found ihRest
  | reference names here _ _ ihToken ihRest =>
      exact .reference names (Chart.cellFrom?_mono grown here) ihToken ihRest
  | repeated _ _ ihRounds ihRest => exact .repeated ihRounds ihRest
  | enough reached => exact .enough reached
  | idle room _ same ihRun => exact .idle room ihRun same
  | onward room _ further _ ihRun ihRounds => exact .onward room ihRun further ihRounds

theorem cons {element : Element} {rest : List Element} {cursor next stop : Position}
    {parts more : List (Child V)} (first : Derives input chart (.run [element] cursor parts next))
    (others : Derives input chart (.run rest next more stop)) :
    Derives input chart (.run (element :: rest) cursor (parts ++ more) stop) := by
  cases first with
  | literal here found ended =>
      cases ended
      exact .literal here found others
  | reference names here token ended =>
      cases ended
      exact .reference names here token others
  | repeated rounds ended =>
      cases ended
      rw [List.append_nil]
      exact .repeated rounds others

end Derives

/-! ### Where derived tokens lie -/

/-- Parts that reach from one place to another: the first starts behind the blank text at the
beginning, and the last ends at the end. -/
structure Spans (input : Input V) (chart : Chart V) (cursor : Position) (parts : List (Child V))
    (stop : Position) : Prop where
  forward : cursor.offset ≤ stop.offset
  valid : (input.rest? stop.offset).isSome
  bare : parts = [] → stop = cursor
  first : ∀ {part}, parts.head? = some part →
    ∃ cell, chart.cellFrom? input cursor.offset = some cell ∧ part.item.start = cell.position
  last : ∀ {part}, parts.getLast? = some part → part.item.stop.offset = stop.offset

namespace Spans

variable {input : Input V} {chart : Chart V} {cursor next stop : Position}
  {parts more : List (Child V)}

theorem nil (valid : (input.rest? cursor.offset).isSome) : Spans input chart cursor [] cursor :=
  ⟨Nat.le_refl _, valid, fun _ => rfl, nofun, nofun⟩

theorem append (before : Spans input chart cursor parts next)
    (behind : Spans input chart next more stop) :
    Spans input chart cursor (parts ++ more) stop := by
  refine ⟨Nat.le_trans before.forward behind.forward, behind.valid, ?_, ?_, ?_⟩
  · intro none_
    obtain ⟨noParts, noMore⟩ := List.append_eq_nil_iff.1 none_
    rw [behind.bare noMore, before.bare noParts]
  · intro part isFirst
    cases parts with
    | nil =>
        rw [List.nil_append] at isFirst
        rw [← before.bare rfl]
        exact behind.first isFirst
    | cons head tail => exact before.first isFirst
  · intro part isLast
    cases more with
    | nil =>
        rw [List.append_nil] at isLast
        rw [behind.bare rfl]
        exact before.last isLast
    | cons head tail =>
        rw [List.getLast?_append, List.getLast?_cons, Option.some_or] at isLast
        exact behind.last (by rw [List.getLast?_cons]; exact isLast)

theorem single {cell : LexicalCell V} (label : Option String) (token : Token V)
    (arena : chart.Arena input) (here : chart.cellFrom? input cursor.offset = some cell)
    (starts : token.start = cell.position)
    (forward : cell.position.offset ≤ token.stop.offset)
    (valid : (input.rest? token.stop.offset).isSome) :
    Spans input chart cursor [⟨label, token⟩] token.stop := by
  obtain ⟨-, settled, -⟩ := Chart.cellFrom?_scanned arena here
  refine ⟨Nat.le_trans (Input.le_of_settle? settled) forward, valid, ?_, ?_, ?_⟩
  · intro impossible
    cases impossible
  · intro first isFirst
    cases isFirst
    exact ⟨cell, here, starts⟩
  · intro last isLast
    cases isLast
    rfl

end Spans

def Fact.Sits (input : Input V) (chart : Chart V) : Fact V → Prop
  | .matched cell _ token =>
    chart.lexicalAt? cell.position.offset = some cell →
      token.start = cell.position ∧ cell.position.offset ≤ token.stop.offset ∧
        (input.rest? token.stop.offset).isSome
  | .run _ cursor parts stop =>
    (input.rest? cursor.offset).isSome → Spans input chart cursor parts stop
  | .rounds _ _ _ _ cursor parts stop =>
    (input.rest? cursor.offset).isSome → Spans input chart cursor parts stop

theorem Derives.sits {input : Input V} {chart : Chart V} {fact : Fact V}
    (derived : Derives input chart fact) (arena : chart.Arena input) :
    fact.Sits input chart := by
  induction derived with
  | leaf noRule found =>
      intro here
      have fits := (arena.lexical here).1.leaf_fits found
      obtain ⟨forward, valid⟩ := (arena.lexical here).1.leaf_stop fits
      exact ⟨fits.start, forward, valid⟩
  | @seed cell symbol index alternative children first last stop id _ _ _ _ isFirst isLast ihRun =>
      intro here
      have scanned := (arena.lexical here).1
      have spans := ihRun (by rw [scanned.rest?]; rfl)
      obtain ⟨other, leads, starts⟩ := spans.first isFirst
      rw [Chart.cellFrom?, scanned.settled, Option.bind_some, here] at leads
      cases leads
      refine ⟨starts, ?_, ?_⟩
      · change cell.position.offset ≤ last.item.stop.offset
        rw [spans.last isLast]
        exact spans.forward
      · change (input.rest? last.item.stop.offset).isSome
        rw [spans.last isLast]
        exact spans.valid
  | @extension cell symbol index alternative head tail base parts last stop id _ _ _ _ _ _ isLast
      longer ihBase ihRun =>
      intro here
      obtain ⟨starts, forward, valid⟩ := ihBase here
      refine ⟨starts, Nat.le_of_lt (Nat.lt_of_le_of_lt forward longer), ?_⟩
      change (input.rest? last.item.stop.offset).isSome
      cases parts with
      | nil =>
          cases isLast
          exact absurd longer (Nat.lt_irrefl _)
      | cons first others =>
          rw [List.getLast?_cons_cons] at isLast
          rw [(ihRun valid).last isLast]
          exact (ihRun valid).valid
  | done => exact Spans.nil
  | literal leads found _ ihRest =>
      intro _
      obtain ⟨scanned, -, -⟩ := Chart.cellFrom?_scanned arena leads
      have fits := (LexicalCell.literal?_fits found).1
      obtain ⟨forward, valid⟩ := scanned.leaf_stop fits
      exact (Spans.single none (.leaf _) arena leads fits.start forward valid).append (ihRest valid)
  | reference names leads _ _ ihToken ihRest =>
      intro _
      obtain ⟨-, -, here⟩ := Chart.cellFrom?_scanned arena leads
      obtain ⟨starts, forward, valid⟩ := ihToken here
      exact (Spans.single _ _ arena leads starts forward valid).append (ihRest valid)
  | repeated _ _ ihRounds ihRest =>
      intro valid
      have spans := ihRounds valid
      exact spans.append (ihRest spans.valid)
  | enough _ => exact Spans.nil
  | @idle elements min max count cursor parts next _ _ same ihRun =>
      intro valid
      have spans := ihRun valid
      refine ⟨Nat.le_refl _, valid, fun _ => rfl, spans.first, ?_⟩
      intro part isLast
      rw [spans.last isLast]
      exact same
  | onward _ _ _ _ ihRun ihRounds =>
      intro valid
      have spans := ihRun valid
      exact spans.append (ihRounds spans.valid)

end Packrat
