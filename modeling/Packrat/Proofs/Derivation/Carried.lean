import Packrat.Proofs.Derivation.Basic
import Packrat.Proofs.Grammar.Literals

/-!
Properties of places that matches carry on: what is matched in a cell ends at a place with the
property if the cell was asked for from such a place (`Input.Carries`). If all cells of a chart have
been asked for from such places, then whatever is derived there ends at such places
(`Derives.carried`).
-/

set_option autoImplicit false
set_option linter.unusedSectionVars false

namespace Packrat

variable {V : Type} [Kinded V]

/-- A property of places that the start of a text has, and that the matches of terminals, aliases
and literal texts carry on. -/
structure Input.Carries (input : Input V) (holds : Position → Prop) : Prop where
  start : holds .start
  leaf : ∀ {cell : LexicalCell V} {symbol : Symbol} {leaf : Leaf V}, cell.Scanned input →
    holds cell.origin → cell.leaf? symbol = some leaf → holds leaf.stop
  literal : ∀ {cell : LexicalCell V} {text : String} {leaf : Leaf V}, cell.Scanned input →
    holds cell.origin → text ∈ input.grammar.literals → cell.literal? text = some leaf →
    holds leaf.stop

/-- Whether all cells of a chart have been asked for from places with a property. -/
def Chart.Stems (chart : Chart V) (holds : Position → Prop) : Prop :=
  ∀ ⦃offset cell⦄, chart.lexicalAt? offset = some cell → holds cell.origin

def Fact.Carried (input : Input V) (chart : Chart V) (holds : Position → Prop) : Fact V → Prop
  | .matched cell _ token =>
    chart.lexicalAt? cell.position.offset = some cell → holds token.stop
  | .run elements cursor parts stop =>
    input.grammar.Uses elements →
      (stop = cursor ∨ holds stop) ∧ ∀ part ∈ parts, holds part.item.stop
  | .rounds elements _ _ _ cursor parts stop =>
    input.grammar.Uses elements →
      (stop = cursor ∨ holds stop) ∧ ∀ part ∈ parts, holds part.item.stop

section Carried

variable {input : Input V} {chart : Chart V} {holds : Position → Prop}

theorem carried_trans {cursor next stop : Position} (first : next = cursor ∨ holds next)
    (second : stop = next ∨ holds stop) : stop = cursor ∨ holds stop := by
  cases second with
  | inl same =>
      subst same
      exact first
  | inr carried => exact .inr carried

theorem Derives.carried {fact : Fact V} (derived : Derives input chart fact)
    (arena : chart.Arena input) (carries : input.Carries holds) (stems : chart.Stems holds) :
    fact.Carried input chart holds := by
  induction derived with
  | leaf _ found =>
      intro here
      exact carries.leaf (arena.lexical here).1 (stems here) found
  | seed isAlternative _ _ _ _ isLast ihRun =>
      intro _
      exact (ihRun (Grammar.uses_of_alternative? isAlternative)).2 _ (List.mem_of_getLast? isLast)
  | @extension cell symbol index alternative head tail base parts last stop id isAlternative _
      starts _ _ _ isLast _ ihBase ihRun =>
      intro here
      have uses := Grammar.uses_of_alternative? isAlternative
      rw [starts] at uses
      rcases List.mem_cons.1 (List.mem_of_getLast? isLast) with rfl | member
      · exact ihBase here
      · exact (ihRun uses.tail).2 _ member
  | done => exact fun _ => ⟨.inl rfl, nofun⟩
  | literal leads found _ ihRest =>
      intro uses
      obtain ⟨scanned, -, here⟩ := Chart.cellFrom?_scanned arena leads
      have atLeaf := carries.literal scanned (stems here) uses.head.literal found
      obtain ⟨ends, parts⟩ := ihRest uses.tail
      exact ⟨carried_trans (.inr atLeaf) ends, List.forall_mem_cons.2 ⟨atLeaf, parts⟩⟩
  | reference _ leads _ _ ihToken ihRest =>
      intro uses
      obtain ⟨-, -, here⟩ := Chart.cellFrom?_scanned arena leads
      obtain ⟨ends, parts⟩ := ihRest uses.tail
      exact ⟨carried_trans (.inr (ihToken here)) ends,
        List.forall_mem_cons.2 ⟨ihToken here, parts⟩⟩
  | repeated _ _ ihRounds ihRest =>
      intro uses
      obtain ⟨between, parts⟩ := ihRounds uses.head.repeated
      obtain ⟨ends, more⟩ := ihRest uses.tail
      exact ⟨carried_trans between ends, List.forall_mem_append.2 ⟨parts, more⟩⟩
  | enough _ => exact fun _ => ⟨.inl rfl, nofun⟩
  | idle _ _ _ ihRun => exact fun uses => ⟨.inl rfl, (ihRun uses).2⟩
  | onward _ _ _ _ ihRun ihRounds =>
      intro uses
      obtain ⟨between, parts⟩ := ihRun uses
      obtain ⟨ends, more⟩ := ihRounds uses
      exact ⟨carried_trans between ends, List.forall_mem_append.2 ⟨parts, more⟩⟩

end Carried

end Packrat
