import Mathlib.Data.List.Chain
import Packrat.Proofs.Derivation.Basic

/-!
Tokens that tile the text they cover. A node starts with its first part and ends with its last one,
and each part starts where skipping the blank text behind the part before it leads. That is all
there is to say: such a token covers a slice of the text, which is its text (`Token.Tiles.slice`).

Whatever is derived tiles the text (`Derives.tiles`). The rounds of a repetition and the parts of
the elements before and behind it follow each other as if there were no repetition, and a last round
that consumes nothing leaves its parts at the place where it begins.
-/

set_option autoImplicit false
set_option linter.unusedSectionVars false

namespace Packrat

variable {V : Type} [Kinded V]

/-- Whether a part starts behind the blank text that follows another part. -/
def Input.Adjoin (input : Input V) (part next : Child V) : Prop :=
  input.settle? part.item.stop.offset = some next.item.start.offset

inductive Token.Tiles (input : Input V) : Token V → Prop where
  | leaf {lexeme : Lexeme V} :
      Text.slice? input.source lexeme.start.offset lexeme.stop.offset = some lexeme.text →
      Token.Tiles input (.leaf lexeme)
  | node {id symbol alternative first last children} :
      children.head? = some first →
      children.getLast? = some last →
      children.IsChain input.Adjoin →
      (∀ part ∈ children, Token.Tiles input part.item) →
      Token.Tiles input
        (.node id symbol alternative first.item.start last.item.stop children)

structure Tiled (input : Input V) (parts : List (Child V)) : Prop where
  adjoin : parts.IsChain input.Adjoin
  tiles : ∀ part ∈ parts, part.item.Tiles input

/-! ### Slices -/

namespace Input

variable {input : Input V}

theorem slice?_exists {start stop : Nat} (validStart : (input.rest? start).isSome)
    (validStop : (input.rest? stop).isSome) (forward : start ≤ stop) :
    ∃ between, Text.slice? input.source start stop = some between := by
  obtain ⟨rest, found⟩ := Option.isSome_iff_exists.1 validStart
  obtain ⟨after, foundAfter⟩ := Option.isSome_iff_exists.1 validStop
  rw [Input.rest?_eq, Text.dropBytes?_eq_some_iff] at found foundAfter
  rcases found with ⟨before, split, size⟩
  rcases foundAfter with ⟨passed, splitAfter, sizeAfter⟩
  rcases List.append_eq_append_iff.1 (split.symm.trans splitAfter) with
    ⟨between, rfl, -⟩ | ⟨extra, rfl, -⟩
  · refine ⟨between, (Text.slice?_eq_some_iff _ _ _ _).2 ⟨before, after, splitAfter, size, ?_⟩⟩
    rw [← sizeAfter, Text.byteLength_append, size]
  · have none_ : extra = [] := by
      rw [← Text.byteLength_eq_zero_iff]
      rw [Text.byteLength_append] at size
      omega
    subst none_
    refine ⟨[], (Text.slice?_eq_some_iff _ _ _ _).2 ⟨passed, after, ?_, ?_, ?_⟩⟩
    · rw [List.append_nil]
      exact splitAfter
    · rw [← size, List.append_nil]
    · rw [← size, ← sizeAfter, List.append_nil, Text.byteLength_nil, Nat.add_zero]

theorem rest?_of_slice? {start stop : Nat} {between : List Char}
    (sliced : Text.slice? input.source start stop = some between) :
    start ≤ stop ∧ (input.rest? start).isSome ∧ (input.rest? stop).isSome := by
  obtain ⟨before, after, split, size, reached⟩ := (Text.slice?_eq_some_iff _ _ _ _).1 sliced
  have here : input.rest? start = some (between ++ after) := by
    rw [Input.rest?_eq, Text.dropBytes?_eq_some_iff]
    exact ⟨before, by rw [split, List.append_assoc], size⟩
  refine ⟨by omega, by rw [here]; rfl, ?_⟩
  rw [← reached, Input.rest?_append here]
  rfl

end Input

theorem Tiled.forward {input : Input V} {first last : Child V} {rest : List (Child V)}
    (adjoin : (first :: rest).IsChain input.Adjoin)
    (forward : ∀ part ∈ first :: rest, part.item.start.offset ≤ part.item.stop.offset)
    (isLast : (first :: rest).getLast? = some last) :
    first.item.start.offset ≤ last.item.stop.offset := by
  induction rest generalizing first with
  | nil =>
      cases isLast
      exact forward first (List.mem_cons_self ..)
  | cons next others ih =>
      obtain ⟨settles, adjoinRest⟩ := List.isChain_cons_cons.1 adjoin
      rw [List.getLast?_cons_cons] at isLast
      have behind := ih adjoinRest (fun part member => forward part (List.mem_cons_of_mem _ member))
        isLast
      have across := Input.le_of_settle? settles
      have own := forward first (List.mem_cons_self ..)
      omega

theorem Token.Tiles.slice {input : Input V} {token : Token V} (tiles : token.Tiles input) :
    Text.slice? input.source token.start.offset token.stop.offset =
      some (token.text input.source) := by
  induction tiles with
  | leaf sliced => exact sliced
  | @node id symbol alternative first last children isFirst isLast adjoin _ ih =>
      have firstValid :=
        Input.rest?_of_slice? (ih first (List.mem_of_head? isFirst))
      have lastValid :=
        Input.rest?_of_slice? (ih last (List.mem_of_getLast? isLast))
      have forward : first.item.start.offset ≤ last.item.stop.offset := by
        cases children with
        | nil => cases isFirst
        | cons head rest =>
            cases isFirst
            exact Tiled.forward adjoin
              (fun part member => (Input.rest?_of_slice? (ih part member)).1) isLast
      obtain ⟨between, sliced⟩ := Input.slice?_exists firstValid.2.1 lastValid.2.2 forward
      change Text.slice? input.source first.item.start.offset last.item.stop.offset =
        some ((Text.slice? input.source first.item.start.offset last.item.stop.offset).getD [])
      rw [sliced]
      rfl

theorem Token.Tiles.within {input : Input V} {token : Token V} (tiles : token.Tiles input) :
    token.start.offset ≤ token.stop.offset ∧ token.stop.offset ≤ input.length ∧
      (input.rest? token.start.offset).isSome ∧ (input.rest? token.stop.offset).isSome := by
  obtain ⟨forward, validStart, validStop⟩ := Input.rest?_of_slice? tiles.slice
  obtain ⟨rest, found⟩ := Option.isSome_iff_exists.1 validStop
  have size := Input.rest?_size found
  exact ⟨forward, by omega, validStart, validStop⟩

/-! ### Parts -/

namespace Tiled

variable {input : Input V} {chart : Chart V} {cursor next stop : Position}
  {parts more : List (Child V)}

theorem nil : Tiled input ([] : List (Child V)) :=
  ⟨.nil, nofun⟩

theorem append (arena : chart.Arena input) (before : Spans input chart cursor parts next)
    (behind : Spans input chart next more stop) (tiled : Tiled input parts)
    (tiledMore : Tiled input more) : Tiled input (parts ++ more) := by
  refine ⟨List.isChain_append.2 ⟨tiled.adjoin, tiledMore.adjoin, ?_⟩,
    List.forall_mem_append.2 ⟨tiled.tiles, tiledMore.tiles⟩⟩
  intro last isLast first isFirst
  obtain ⟨cell, leads, starts⟩ := behind.first isFirst
  obtain ⟨-, settled, -⟩ := Chart.cellFrom?_scanned arena leads
  unfold Input.Adjoin
  rw [before.last isLast, starts, settled]

theorem cons {label : Option String} {token : Token V} (arena : chart.Arena input)
    (tiles : token.Tiles input) (behind : Spans input chart token.stop more stop)
    (tiledMore : Tiled input more) : Tiled input (⟨label, token⟩ :: more) := by
  refine ⟨List.isChain_cons.2 ⟨?_, tiledMore.adjoin⟩,
    List.forall_mem_cons.2 ⟨tiles, tiledMore.tiles⟩⟩
  intro first isFirst
  obtain ⟨cell, leads, starts⟩ := behind.first isFirst
  obtain ⟨-, settled, -⟩ := Chart.cellFrom?_scanned arena leads
  unfold Input.Adjoin
  rw [starts, settled]

theorem node {id index : Nat} {symbol : Symbol} {first last : Child V}
    (tiled : Tiled input parts) (isFirst : parts.head? = some first)
    (isLast : parts.getLast? = some last) :
    (Token.node id symbol index first.item.start last.item.stop parts).Tiles input :=
  .node isFirst isLast tiled.adjoin tiled.tiles

end Tiled

theorem LexicalCell.Scanned.leaf_tiles {input : Input V} {cell : LexicalCell V} {leaf : Leaf V}
    (scanned : cell.Scanned input) (fits : leaf.FitsAt cell.toLanding) (number : Nat) :
    (Token.leaf ⟨leaf, number⟩).Tiles input := by
  obtain ⟨before, after, split, size⟩ := scanned.leaf_split fits
  refine .leaf ((Text.slice?_eq_some_iff _ _ _ _).2 ⟨before, after, split, ?_, ?_⟩)
  · rw [size, fits.start]
  · rw [fits.start, fits.stop, Position.through_offset]

/-! ### Derived tokens -/

def Fact.Tiled (input : Input V) (chart : Chart V) : Fact V → Prop
  | .matched cell _ token =>
    chart.lexicalAt? cell.position.offset = some cell → token.Tiles input
  | .run _ cursor parts _ => (input.rest? cursor.offset).isSome → Packrat.Tiled input parts
  | .rounds _ _ _ _ cursor parts _ =>
    (input.rest? cursor.offset).isSome → Packrat.Tiled input parts

theorem Derives.tiles {input : Input V} {chart : Chart V} {fact : Fact V}
    (derived : Derives input chart fact) (arena : chart.Arena input) :
    fact.Tiled input chart := by
  induction derived with
  | leaf _ found =>
      intro here
      have scanned := (arena.lexical here).1
      exact scanned.leaf_tiles (scanned.leaf_fits found) _
  | seed _ _ _ _ isFirst isLast ihRun =>
      intro here
      have scanned := (arena.lexical here).1
      exact (ihRun (by rw [scanned.rest?]; rfl)).node isFirst isLast
  | extension _ _ _ _ isBase isRun isLast _ ihBase ihRun =>
      intro here
      have sits := isBase.sits arena here
      have spans := isRun.sits arena sits.2.2
      exact (Tiled.cons arena (ihBase here) spans (ihRun sits.2.2)).node rfl isLast
  | done => exact fun _ => .nil
  | literal leads found isRest ihRest =>
      intro _
      obtain ⟨scanned, -, -⟩ := Chart.cellFrom?_scanned arena leads
      have fits := (LexicalCell.literal?_fits found).1
      have valid := (scanned.leaf_stop fits).2
      exact .cons arena (scanned.leaf_tiles fits _) (isRest.sits arena valid) (ihRest valid)
  | reference _ leads isToken isRest ihToken ihRest =>
      intro _
      obtain ⟨-, -, here⟩ := Chart.cellFrom?_scanned arena leads
      have valid := (isToken.sits arena here).2.2
      exact .cons arena (ihToken here) (isRest.sits arena valid) (ihRest valid)
  | repeated isRounds isRest ihRounds ihRest =>
      intro valid
      have spans : Spans input chart _ _ _ := isRounds.sits arena valid
      exact .append arena spans (isRest.sits arena spans.valid) (ihRounds valid)
        (ihRest spans.valid)
  | enough _ => exact fun _ => .nil
  | idle _ _ _ ihRun => exact ihRun
  | onward _ isRun _ isRounds ihRun ihRounds =>
      intro valid
      have spans : Spans input chart _ _ _ := isRun.sits arena valid
      exact .append arena spans (isRounds.sits arena spans.valid) (ihRun valid)
        (ihRounds spans.valid)

end Packrat
