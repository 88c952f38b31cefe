import Mathlib.Logic.Relation
import Packrat.Proofs.Derivation.Sound

/-!
Grammars and texts under which no rule comes back to itself before something has been consumed:
nothing that is matched is empty, and no rule is a left corner of itself (`Input.Guarded`). The
alternatives that start with the rule itself do not count, since a node stands for their first
element.

What is derived of such a text moves forward (`Derives.advances`): every token covers something, and
a run without parts is one of elements that may match nothing.
-/

set_option autoImplicit false
set_option linter.unusedSectionVars false

namespace Packrat

variable {V : Type} [Kinded V]

namespace Element

mutual

/-- Whether an element may match nothing, if no token is empty. -/
def idle : Element → Bool
  | .literal _ => false
  | .symbol _ => false
  | .labelled _ _ => false
  | .repeated elements min _ => min == 0 || allIdle elements

def allIdle : List Element → Bool
  | [] => true
  | element :: rest => idle element && allIdle rest

end

mutual

/-- The symbols that may be the first that an element asks for. -/
def heads : Element → List Symbol
  | .literal _ => []
  | .symbol name => [name]
  | .labelled name _ => [name]
  | .repeated elements _ _ => headsAll elements

def headsAll : List Element → List Symbol
  | [] => []
  | element :: rest => heads element ++ if idle element then headsAll rest else []

end

mutual

def solid : Element → Bool
  | .literal text => text != ""
  | .symbol _ => true
  | .labelled _ _ => true
  | .repeated elements _ _ => allSolid elements

def allSolid : List Element → Bool
  | [] => true
  | element :: rest => solid element && allSolid rest

end

theorem mem_heads_of_symbol? {element : Element} {symbol : Symbol}
    (names : element.symbol? = some symbol) : symbol ∈ heads element := by
  cases element with
  | literal text => cases names
  | symbol name =>
      cases names
      exact List.mem_singleton.2 rfl
  | labelled name label =>
      cases names
      exact List.mem_singleton.2 rfl
  | repeated elements min max => cases names

end Element

/-- A rule is a left corner of another if an alternative of the other that does not start with the
other itself may ask for it first. -/
def Grammar.LeftCorner (grammar : Grammar V) (symbol corner : Symbol) : Prop :=
  grammar.isRule corner ∧
    ∃ rule, grammar.rule? symbol = some rule ∧ ∃ alternative ∈ rule.alternatives,
      alternative.recursive = false ∧ corner ∈ Element.headsAll alternative.elements

structure Input.Guarded (input : Input V) : Prop where
  literals : ∀ rule ∈ input.grammar.rules, ∀ alternative ∈ rule.alternatives,
    Element.allSolid alternative.elements = true
  terminals : ∀ origin landing, input.land origin = .ok landing →
    ∀ terminal ∈ input.grammar.terminals, ∀ leaf candidate,
      LexicalCell.scanTerminal landing terminal = some (leaf, candidate) → leaf.text ≠ []
  acyclic : ∀ symbol, ¬ Relation.TransGen input.grammar.LeftCorner symbol symbol

/-- Left corners that go down a rank are in no cycle. -/
theorem Grammar.acyclic_of_rank {grammar : Grammar V} (rank : Symbol → Nat)
    (descends : ∀ rule ∈ grammar.rules, ∀ alternative ∈ rule.alternatives,
      alternative.recursive = false → ∀ corner ∈ Element.headsAll alternative.elements,
        grammar.isRule corner = true → rank corner < rank rule.symbol) :
    ∀ symbol, ¬ Relation.TransGen grammar.LeftCorner symbol symbol := by
  have below {symbol corner : Symbol} (edge : grammar.LeftCorner symbol corner) :
      rank corner < rank symbol := by
    obtain ⟨isRule, rule, found, alternative, listed, plain, isHead⟩ := edge
    have named := List.find?_some found
    rw [← eq_of_beq named]
    exact descends rule (List.mem_of_find?_eq_some found) alternative listed plain corner isHead
      isRule
  have behind {symbol corner : Symbol} (path : Relation.TransGen grammar.LeftCorner symbol corner) :
      rank corner < rank symbol := by
    induction path with
    | single edge => exact below edge
    | tail _ edge ih => exact Nat.lt_trans (below edge) ih
  exact fun symbol cyclic => Nat.lt_irrefl _ (behind cyclic)

namespace Input.Guarded

variable {input : Input V}

theorem solid (guarded : input.Guarded) {symbol : Symbol} {index : Nat}
    {alternative : Alternative V}
    (found : input.grammar.alternative? symbol index = some alternative) :
    Element.allSolid alternative.elements = true := by
  obtain ⟨rule, isRule, atIndex⟩ := Grammar.rule?_of_alternative? found
  exact guarded.literals rule (List.mem_of_find?_eq_some isRule) alternative
    (List.mem_of_getElem? atIndex)

theorem leaf_text (guarded : input.Guarded) {cell : LexicalCell V} (scanned : cell.Scanned input)
    {symbol : Symbol} {leaf : Leaf V} (found : cell.leaf? symbol = some leaf) :
    leaf.text ≠ [] := by
  have member : leaf ∈ cell.leaves := List.mem_of_find?_eq_some found
  rw [← scanned.scanned] at member
  exact LexicalCell.scan_forall (fun _ _ covers => covers) input.grammar cell.toLanding
    (guarded.terminals cell.origin cell.toLanding scanned.landed) leaf member

end Input.Guarded

theorem Leaf.FitsAt.advances {leaf : Leaf V} {landing : Landing} (fits : leaf.FitsAt landing)
    (covers : leaf.text ≠ []) : landing.position.offset < leaf.stop.offset := by
  have size : Text.byteLength leaf.text ≠ 0 := by
    rw [Ne, Text.byteLength_eq_zero_iff]
    exact covers
  rw [fits.stop, Position.through_offset]
  omega

/-! ### Moving forward -/

def Input.Passes (input : Input V) (cursor stop : Position) : Prop :=
  ∀ ⦃place⦄, input.settle? cursor.offset = some place → place < stop.offset

def Fact.Advances (input : Input V) (chart : Chart V) : Fact V → Prop
  | .matched cell _ token =>
    chart.lexicalAt? cell.position.offset = some cell → cell.position.offset < token.stop.offset
  | .run elements cursor parts stop =>
    Element.allSolid elements = true → (input.rest? cursor.offset).isSome →
      (parts = [] → Element.allIdle elements = true) ∧ (parts ≠ [] → input.Passes cursor stop)
  | .rounds elements min _ count cursor parts stop =>
    Element.allSolid elements = true → (input.rest? cursor.offset).isSome →
      (parts = [] → min ≤ count ∨ Element.allIdle elements = true) ∧
        (parts ≠ [] → input.Passes cursor stop)

theorem Derives.advances {input : Input V} {chart : Chart V} {fact : Fact V}
    (derived : Derives input chart fact) (arena : chart.Arena input) (guarded : input.Guarded) :
    fact.Advances input chart := by
  induction derived with
  | leaf _ found =>
      intro here
      have scanned := (arena.lexical here).1
      exact (scanned.leaf_fits found).advances (guarded.leaf_text scanned found)
  | @seed cell symbol index alternative children first last stop id isAlternative _ _ run isFirst
      isLast ihRun =>
      intro here
      have scanned := (arena.lexical here).1
      have valid : (input.rest? cell.position.offset).isSome := by
        rw [scanned.rest?]
        rfl
      have spans : Spans input chart cell.position children stop := run.sits arena valid
      have some_ : children ≠ [] := by
        rintro rfl
        cases isFirst
      have forward := (ihRun (guarded.solid isAlternative) valid).2 some_ scanned.settled
      change cell.position.offset < last.item.stop.offset
      rw [spans.last isLast]
      exact forward
  | extension _ _ _ _ _ _ _ longer ihBase _ =>
      intro here
      exact Nat.lt_trans (ihBase here) longer
  | done =>
      intro _ _
      exact ⟨fun _ => rfl, fun some_ => absurd rfl some_⟩
  | @literal text rest cursor cell leaf more stop leads found others _ =>
      intro solid valid
      obtain ⟨scanned, settled, -⟩ := Chart.cellFrom?_scanned arena leads
      obtain ⟨fits, -, isText⟩ := LexicalCell.literal?_fits found
      have covers : leaf.text ≠ [] := by
        rw [isText, Ne, String.toList_eq_nil_iff]
        simp only [Element.allSolid, Element.solid, Bool.and_eq_true, bne_iff_ne] at solid
        exact solid.1
      have spans : Spans input chart leaf.stop more stop :=
        others.sits arena (scanned.leaf_stop fits).2
      refine ⟨fun none_ => absurd none_ (List.cons_ne_nil _ _), ?_⟩
      intro _ place isPlace
      cases settled.symm.trans isPlace
      exact Nat.lt_of_lt_of_le (fits.advances covers) spans.forward
  | @reference element symbol rest cursor cell token more stop names leads matched others ihToken
      _ =>
      intro solid valid
      obtain ⟨-, settled, here⟩ := Chart.cellFrom?_scanned arena leads
      have spans : Spans input chart token.stop more stop :=
        others.sits arena (matched.sits arena here).2.2
      refine ⟨fun none_ => absurd none_ (List.cons_ne_nil _ _), ?_⟩
      intro _ place isPlace
      cases settled.symm.trans isPlace
      exact Nat.lt_of_lt_of_le (ihToken here) spans.forward
  | @repeated elements min max rest cursor parts next more stop rounds others ihRounds ihRest =>
      intro solid valid
      simp only [Element.allSolid, Element.solid, Bool.and_eq_true] at solid
      have spans : Spans input chart cursor parts next := rounds.sits arena valid
      have behind : Spans input chart next more stop := others.sits arena spans.valid
      obtain ⟨bareRounds, passRounds⟩ := ihRounds solid.1 valid
      obtain ⟨bareRest, passRest⟩ := ihRest solid.2 spans.valid
      constructor
      · intro none_
        obtain ⟨noParts, noMore⟩ := List.append_eq_nil_iff.1 none_
        rw [Element.allIdle, Element.idle, bareRest noMore]
        rcases bareRounds noParts with reached | allIdle
        · simp [Nat.le_zero.1 reached]
        · simp [allIdle]
      · intro some_ place isPlace
        by_cases noParts : parts = []
        · subst noParts
          rw [spans.bare rfl] at passRest
          exact passRest some_ isPlace
        · exact Nat.lt_of_lt_of_le (passRounds noParts isPlace) behind.forward
  | enough reached =>
      intro _ _
      exact ⟨fun _ => .inl reached, fun some_ => absurd rfl some_⟩
  | @idle elements min max count cursor parts next _ _ same ihRun =>
      intro solid valid
      obtain ⟨bare, passes⟩ := ihRun solid valid
      refine ⟨fun none_ => .inr (bare none_), ?_⟩
      intro some_ place isPlace
      rw [← same]
      exact passes some_ isPlace
  | @onward elements min max count cursor parts next more stop _ run further rounds ihRun _ =>
      intro solid valid
      obtain ⟨-, passes⟩ := ihRun solid valid
      have spans : Spans input chart cursor parts next := run.sits arena valid
      have behind : Spans input chart next more stop := rounds.sits arena spans.valid
      have some_ : parts ≠ [] := by
        intro none_
        rw [spans.bare none_] at further
        exact Nat.lt_irrefl _ further
      refine ⟨fun none_ => absurd (List.append_eq_nil_iff.1 none_).1 some_, ?_⟩
      intro _ place isPlace
      exact Nat.lt_of_lt_of_le (passes some_ isPlace) behind.forward

end Packrat
