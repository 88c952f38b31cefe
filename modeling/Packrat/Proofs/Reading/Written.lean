import Packrat.Proofs.Bridge.Spacing
import Packrat.Proofs.History.Origins
import Packrat.Proofs.History.Tiling
import Packrat.Proofs.Reading.Whole
import Packrat.Proofs.Scan.Spelling

/-!
Texts written back from the leaves of a tree, each with the blank text before it. The blank text of
a leaf is what was skipped by the request that made its cell, and this request may have been made
for a part that is not in the tree. So there could be a gap between two leaves, or the same text
twice.

Under a grammar and on a text where no match ends with blank text (`Input.Trimmed`), all requests
come from places with no blank text before them (`Input.Flush`), and there is only one such place
from which skipping blank text leads to a cell. Hence the leaves of a root make up the text that it
covers (`Grammar.parse_written`).
-/

set_option autoImplicit false
set_option linter.unusedSectionVars false

namespace Packrat

variable {V : Type} [Kinded V]

/-! ### Leaves -/

def Leaf.written (leaf : Leaf V) : List Char :=
  leaf.blank ++ leaf.text

namespace Token

mutual

def leaves : Token V → List (Leaf V)
  | .leaf lexeme => [lexeme.toLeaf]
  | .node _ _ _ _ _ children => leavesOf children

def leavesOf : List (Child V) → List (Leaf V)
  | [] => []
  | ⟨_, token⟩ :: rest => leaves token ++ leavesOf rest

end

def written (token : Token V) : List Char :=
  token.leaves.flatMap Leaf.written

def writtenOf (parts : List (Child V)) : List Char :=
  (leavesOf parts).flatMap Leaf.written

theorem written_leaf (lexeme : Lexeme V) :
    (Token.leaf lexeme).written = lexeme.blank ++ lexeme.text := by
  rw [written, leaves, List.flatMap_singleton, Leaf.written]

theorem writtenOf_cons (label : Option String) (token : Token V) (rest : List (Child V)) :
    writtenOf (⟨label, token⟩ :: rest) = token.written ++ writtenOf rest := by
  rw [writtenOf, leavesOf, List.flatMap_append]
  rfl

theorem writtenOf_append (first second : List (Child V)) :
    writtenOf (first ++ second) = writtenOf first ++ writtenOf second := by
  induction first with
  | nil => rfl
  | cons child rest ih =>
      rw [List.cons_append, writtenOf_cons, writtenOf_cons, ih, List.append_assoc]

end Token

/-! ### Places behind matches -/

/-- Whether a text has a last character, which is not blank. -/
structure Text.Trimmed (isBlank : Char → Bool) (text : List Char) : Prop where
  covers : text ≠ []
  ends : text.getLast?.any isBlank = false

theorem Text.Trimmed.of_solid {isBlank : Char → Bool} {text : List Char} (covers : text ≠ [])
    (solid : ∀ c ∈ text, isBlank c = false) : Text.Trimmed isBlank text where
  covers := covers
  ends := by
    cases isLast : text.getLast? with
    | none => rfl
    | some c => exact solid c (List.mem_of_getLast? isLast)

/-- A grammar and a text for which no literal text and no match of a terminal is empty or ends with
blank text. -/
structure Input.Trimmed (input : Input V) : Prop where
  literals : ∀ text ∈ input.grammar.literals, Text.Trimmed input.grammar.isBlank text.toList
  terminals : ∀ origin landing, input.land origin = .ok landing →
    ∀ terminal ∈ input.grammar.terminals, ∀ leaf candidate,
      LexicalCell.scanTerminal landing terminal = some (leaf, candidate) →
        Text.Trimmed input.grammar.isBlank leaf.text

/-- Whether no blank text ends at a place. -/
def Input.Flush (input : Input V) (position : Position) : Prop :=
  ∀ ⦃passed⦄, Text.takeBytes? input.source position.offset = some passed →
    passed.getLast?.any input.grammar.isBlank = false

theorem Text.slice?_append {text first second : List Char} {start between stop : Nat}
    (early : slice? text start between = some first)
    (late : slice? text between stop = some second) :
    slice? text start stop = some (first ++ second) := by
  obtain ⟨before, after, split, size, reached⟩ := (slice?_eq_some_iff _ _ _ _).1 early
  obtain ⟨passed, rest, splitLate, sizeLate, ends⟩ := (slice?_eq_some_iff _ _ _ _).1 late
  have taken : takeBytes? text between = some (before ++ first) :=
    (takeBytes?_eq_some_iff _ _ _).2 ⟨after, split, by rw [byteLength_append, size, reached]⟩
  have takenLate : takeBytes? text between = some passed :=
    (takeBytes?_eq_some_iff _ _ _).2
      ⟨second ++ rest, by rw [splitLate, List.append_assoc], sizeLate⟩
  cases takenLate.symm.trans taken
  refine (slice?_eq_some_iff _ _ _ _).2 ⟨before, rest, ?_, size, ?_⟩
  · rw [splitLate, List.append_assoc before first second]
  · rw [byteLength_append]
    omega

namespace Input.Flush

variable {input : Input V} {origin cursor : Position} {place : Nat}

theorem start (input : Input V) : input.Flush .start := by
  intro passed taken
  rw [Position.start, Text.takeBytes?_zero] at taken
  cases taken
  rfl

theorem of_offset (flush : input.Flush cursor) (same : origin.offset = cursor.offset) :
    input.Flush origin := by
  unfold Input.Flush
  rw [same]
  exact flush

/-- A place with no blank text before it is the first from which skipping blank text leads to the
same offset. -/
theorem first (flush : input.Flush cursor) (settled : input.settle? origin.offset = some place)
    (settledCursor : input.settle? cursor.offset = some place) :
    cursor.offset ≤ origin.offset := by
  obtain ⟨rest, found, size⟩ := Option.map_eq_some_iff.1 settled
  obtain ⟨more, foundCursor, sizeCursor⟩ := Option.map_eq_some_iff.1 settledCursor
  by_contra behind
  have forward : origin.offset < cursor.offset := Nat.lt_of_not_le behind
  obtain ⟨between, sliced⟩ := Input.slice?_exists (by rw [found]; rfl) (by rw [foundCursor]; rfl)
    (Nat.le_of_lt forward)
  obtain ⟨before, after, split, sizeBefore, reached⟩ := (Text.slice?_eq_some_iff _ _ _ _).1 sliced
  have isRest : rest = between ++ after := by
    rw [Input.rest?_eq, split, List.append_assoc, ← sizeBefore, Text.dropBytes?_append] at found
    exact (Option.some.inj found).symm
  have inside : between <+: rest.takeWhile input.grammar.isBlank := by
    apply Text.beginning_of_byteLength_le ⟨after, isRest.symm⟩ (List.takeWhile_prefix _)
    omega
  have taken : Text.takeBytes? input.source cursor.offset = some (before ++ between) :=
    (Text.takeBytes?_eq_some_iff _ _ _).2
      ⟨after, split, by rw [Text.byteLength_append, sizeBefore, reached]⟩
  have covers : between ≠ [] := by
    rintro rfl
    rw [Text.byteLength_nil] at reached
    omega
  obtain ⟨c, isLast⟩ := Option.ne_none_iff_exists'.1 (mt List.getLast?_eq_none_iff.1 covers)
  have solid := flush taken
  rw [List.getLast?_append, isLast, Option.some_or, Option.any_some] at solid
  rw [List.mem_takeWhile_imp (inside.subset (List.mem_of_getLast? isLast))] at solid
  cases solid

theorem unique (flush : input.Flush cursor) (flushOrigin : input.Flush origin)
    (settled : input.settle? origin.offset = some place)
    (settledCursor : input.settle? cursor.offset = some place) :
    origin.offset = cursor.offset :=
  Nat.le_antisymm (flushOrigin.first settledCursor settled) (flush.first settled settledCursor)

end Input.Flush

namespace LexicalCell.Scanned

variable {input : Input V} {cell : LexicalCell V} {leaf : Leaf V}

theorem flush_stop (scanned : cell.Scanned input) (fits : leaf.FitsAt cell.toLanding)
    (trimmed : Text.Trimmed input.grammar.isBlank leaf.text) : input.Flush leaf.stop := by
  intro passed taken
  obtain ⟨before, after, split, size⟩ := scanned.leaf_split fits
  have upTo : Text.takeBytes? input.source leaf.stop.offset = some (before ++ leaf.text) := by
    refine (Text.takeBytes?_eq_some_iff _ _ _).2 ⟨after, split, ?_⟩
    rw [fits.stop, Position.through_offset, Text.byteLength_append, size]
  cases taken.symm.trans upTo
  rw [List.getLast?_append_of_ne_nil _ trimmed.covers]
  exact trimmed.ends

theorem leaf_written (scanned : cell.Scanned input) (fits : leaf.FitsAt cell.toLanding)
    (number : Nat) :
    Text.slice? input.source cell.origin.offset leaf.stop.offset =
      some (Token.leaf ⟨leaf, number⟩).written := by
  have own : Text.slice? input.source leaf.start.offset leaf.stop.offset = some leaf.text :=
    (scanned.leaf_tiles fits number).slice
  rw [fits.start] at own
  rw [Token.written_leaf, fits.blank]
  exact Text.slice?_append scanned.blank_slice own

end LexicalCell.Scanned

theorem Input.Trimmed.carries {input : Input V} (trimmed : input.Trimmed) :
    input.Carries input.Flush where
  start := .start input
  leaf := by
    intro cell symbol leaf scanned _ found
    have member : leaf ∈ cell.leaves := List.mem_of_find?_eq_some found
    rw [← scanned.scanned] at member
    have own := LexicalCell.scan_forall (fun _ _ ends => ends) input.grammar cell.toLanding
      (trimmed.terminals cell.origin cell.toLanding scanned.landed) leaf member
    exact scanned.flush_stop (scanned.leaf_fits found) own
  literal := by
    intro cell text leaf scanned _ listed found
    obtain ⟨fits, -, isText⟩ := LexicalCell.literal?_fits found
    apply scanned.flush_stop fits
    rw [isText]
    exact trimmed.literals text listed

/-! ### Derived tokens -/

/-- Whether some parts, if there are any, make up the text from where the first cell behind a place
was asked for. -/
def Chart.Writes (chart : Chart V) (input : Input V) (cursor : Position) (parts : List (Child V))
    (stop : Position) : Prop :=
  parts ≠ [] → ∃ cell, chart.cellFrom? input cursor.offset = some cell ∧
    Text.slice? input.source cell.origin.offset stop.offset = some (Token.writtenOf parts)

namespace Chart.Writes

variable {input : Input V} {chart : Chart V} {cursor next stop : Position}
  {parts more : List (Child V)}

theorem single {cell : LexicalCell V} {label : Option String} {token : Token V}
    (leads : chart.cellFrom? input cursor.offset = some cell)
    (written : Text.slice? input.source cell.origin.offset token.stop.offset = some token.written) :
    chart.Writes input cursor [⟨label, token⟩] token.stop := by
  intro _
  refine ⟨cell, leads, ?_⟩
  rw [Token.writtenOf_cons]
  exact written.trans (congrArg some (List.append_nil _).symm)

theorem append (arena : chart.Arena input) (stems : chart.Stems input.Flush)
    (before : Spans input chart cursor parts next) (behind : Spans input chart next more stop)
    (flush : ∀ part ∈ parts, input.Flush part.item.stop)
    (writes : chart.Writes input cursor parts next)
    (writesMore : chart.Writes input next more stop) :
    chart.Writes input cursor (parts ++ more) stop := by
  intro _
  by_cases noParts : parts = []
  · subst noParts
    rw [before.bare rfl] at writesMore
    exact writesMore ‹_›
  obtain ⟨cell, leads, written⟩ := writes noParts
  by_cases noMore : more = []
  · subst noMore
    rw [behind.bare rfl, List.append_nil]
    exact ⟨cell, leads, written⟩
  · obtain ⟨other, leadsOther, writtenMore⟩ := writesMore noMore
    obtain ⟨last, isLast⟩ := Option.ne_none_iff_exists'.1 (mt List.getLast?_eq_none_iff.1 noParts)
    have flushNext : input.Flush next :=
      (flush last (List.mem_of_getLast? isLast)).of_offset (before.last isLast).symm
    obtain ⟨scanned, settled, here⟩ := Chart.cellFrom?_scanned arena leadsOther
    have same : other.origin.offset = next.offset :=
      flushNext.unique (stems here) (Input.land_settle? scanned.landed) settled
    rw [same] at writtenMore
    refine ⟨cell, leads, ?_⟩
    rw [Token.writtenOf_append]
    exact Text.slice?_append written writtenMore

end Chart.Writes

def Fact.Written (input : Input V) (chart : Chart V) : Fact V → Prop
  | .matched cell _ token =>
    chart.lexicalAt? cell.position.offset = some cell →
      Text.slice? input.source cell.origin.offset token.stop.offset = some token.written
  | .run elements cursor parts stop =>
    input.grammar.Uses elements → (input.rest? cursor.offset).isSome →
      chart.Writes input cursor parts stop
  | .rounds elements _ _ _ cursor parts stop =>
    input.grammar.Uses elements → (input.rest? cursor.offset).isSome →
      chart.Writes input cursor parts stop

theorem Derives.written {input : Input V} {chart : Chart V} {fact : Fact V}
    (derived : Derives input chart fact) (arena : chart.Arena input) (trimmed : input.Trimmed)
    (stems : chart.Stems input.Flush) : fact.Written input chart := by
  have carries := trimmed.carries
  induction derived with
  | leaf _ found =>
      intro here
      have scanned := (arena.lexical here).1
      exact scanned.leaf_written (scanned.leaf_fits found) _
  | @seed cell symbol index alternative children first last stop id isAlternative _ _ isRun isFirst
      isLast ihRun =>
      intro here
      have scanned := (arena.lexical here).1
      have valid : (input.rest? cell.position.offset).isSome := by rw [scanned.rest?]; rfl
      have parted : children ≠ [] := List.ne_nil_of_mem (List.mem_of_head? isFirst)
      obtain ⟨other, leads, written⟩ :=
        ihRun (Grammar.uses_of_alternative? isAlternative) valid parted
      rw [Chart.cellFrom?, scanned.settled, Option.bind_some, here] at leads
      cases leads
      rw [← (isRun.sits arena valid).last isLast] at written
      exact written
  | @extension cell symbol index alternative head tail base parts last stop id isAlternative _
      starts _ isBase isRun isLast _ ihBase ihRun =>
      intro here
      have scanned := (arena.lexical here).1
      have leads : chart.cellFrom? input cell.position.offset = some cell := by
        rw [Chart.cellFrom?, scanned.settled, Option.bind_some, here]
      have uses := Grammar.uses_of_alternative? isAlternative
      rw [starts] at uses
      obtain ⟨start, forward, valid⟩ := isBase.sits arena here
      have spans : Spans input chart cell.position [⟨head.label?, base⟩] base.stop :=
        .single head.label? base arena leads start forward valid
      have spansMore : Spans input chart base.stop parts stop := isRun.sits arena valid
      have flush : ∀ part ∈ [(⟨head.label?, base⟩ : Child V)], input.Flush part.item.stop :=
        List.forall_mem_singleton.2 (isBase.carried arena carries stems here)
      have whole := Chart.Writes.append arena stems spans spansMore flush
        (.single leads (ihBase here)) (ihRun uses.tail valid)
      obtain ⟨other, leadsOther, written⟩ := whole (List.cons_ne_nil _ _)
      cases leadsOther.symm.trans leads
      rw [← (spans.append spansMore).last isLast] at written
      exact written
  | done => exact fun _ _ parted => absurd rfl parted
  | @literal text rest cursor cell lexeme more stop leads found isRest ihRest =>
      intro uses valid
      obtain ⟨scanned, -, here⟩ := Chart.cellFrom?_scanned arena leads
      have fits := (LexicalCell.literal?_fits found).1
      obtain ⟨forward, validStop⟩ := scanned.leaf_stop fits
      have flush := carries.literal scanned (stems here) uses.head.literal found
      exact Chart.Writes.append arena stems
        (.single none (.leaf lexeme) arena leads fits.start forward validStop)
        (isRest.sits arena validStop) (List.forall_mem_singleton.2 flush)
        (.single leads (scanned.leaf_written fits lexeme.number)) (ihRest uses.tail validStop)
  | @reference element symbol rest cursor cell token more stop _ leads isToken isRest ihToken
      ihRest =>
      intro uses valid
      obtain ⟨-, -, here⟩ := Chart.cellFrom?_scanned arena leads
      obtain ⟨start, forward, validStop⟩ := isToken.sits arena here
      have flush : input.Flush token.stop := isToken.carried arena carries stems here
      exact Chart.Writes.append arena stems
        (.single element.label? token arena leads start forward validStop)
        (isRest.sits arena validStop) (List.forall_mem_singleton.2 flush)
        (.single leads (ihToken here)) (ihRest uses.tail validStop)
  | repeated isRounds isRest ihRounds ihRest =>
      intro uses valid
      have spans : Spans input chart _ _ _ := isRounds.sits arena valid
      have flush := (isRounds.carried arena carries stems uses.head.repeated).2
      exact Chart.Writes.append arena stems spans (isRest.sits arena spans.valid) flush
        (ihRounds uses.head.repeated valid) (ihRest uses.tail spans.valid)
  | enough _ => exact fun _ _ parted => absurd rfl parted
  | idle _ _ same ihRun =>
      intro uses valid parted
      obtain ⟨cell, leads, written⟩ := ihRun uses valid parted
      rw [same] at written
      exact ⟨cell, leads, written⟩
  | onward _ isRun _ isRounds ihRun ihRounds =>
      intro uses valid
      have spans : Spans input chart _ _ _ := isRun.sits arena valid
      have flush := (isRun.carried arena carries stems uses).2
      exact Chart.Writes.append arena stems spans (isRounds.sits arena spans.valid) flush
        (ihRun uses valid) (ihRounds uses spans.valid)

/-! ### Whole parses -/

namespace Grammar

variable {engine : RegexEngine} {declarations : List (Declaration V)} {input : Input V}
  {root : Token V}

theorem parse_root_written (wellFormed : input.grammar.WellFormed) (trimmed : input.Trimmed)
    (isRoot : (input.grammar.parse input.source).root = some root) :
    Text.takeBytes? input.source root.stop.offset = some root.written := by
  obtain ⟨sound, -, derived⟩ := Chart.parse_sound wellFormed
  obtain ⟨cell, leads, isDerived⟩ := derived root isRoot
  have stems := Chart.parse_stems wellFormed trimmed.carries
  obtain ⟨scanned, settled, here⟩ := Chart.cellFrom?_scanned sound.arena leads
  have written : Text.slice? input.source cell.origin.offset root.stop.offset = some root.written :=
    isDerived.written sound.arena trimmed stems here
  have same : cell.origin.offset = Position.start.offset :=
    (Input.Flush.start input).unique (stems here) (Input.land_settle? scanned.landed) settled
  rw [same] at written
  obtain ⟨before, after, split, size, reached⟩ := (Text.slice?_eq_some_iff _ _ _ _).1 written
  obtain rfl := (Text.byteLength_eq_zero_iff before).1 size
  rw [Position.start, Nat.zero_add] at reached
  exact (Text.takeBytes?_eq_some_iff _ _ _).2 ⟨after, split, reached⟩

theorem parse_stop (isRoot : (input.grammar.parse input.source).root = some root) :
    (input.grammar.parse input.source).stop = root.stop := by
  rw [Parse.stop, isRoot]

theorem parse_complete_of_root (wellFormed : input.grammar.WellFormed)
    (isRoot : (input.grammar.parse input.source).root = some root) {rest : List Char}
    (found : input.rest? root.stop.offset = some rest) :
    (input.grammar.parse input.source).isComplete = true ↔
      ∀ c ∈ rest, input.grammar.isBlank c = true := by
  rw [parse_isComplete_iff wellFormed, isRoot, ← List.all_eq_true, ← Input.Awaits.nil_iff found]
  exact ⟨fun ⟨other, same, ahead⟩ => by cases same; exact ahead, fun ahead => ⟨root, rfl, ahead⟩⟩

end Grammar

/-- The cell behind a place is at the end of the text exactly if the text from there is blank. -/
theorem Chart.Arena.atEnd_iff {input : Input V} {chart : Chart V} (arena : chart.Arena input)
    {offset : Nat} {cell : LexicalCell V} {rest : List Char}
    (leads : chart.cellFrom? input offset = some cell) (found : input.rest? offset = some rest) :
    cell.atEnd = true ↔ ∀ c ∈ rest, input.grammar.isBlank c = true := by
  obtain ⟨scanned, settled, -⟩ := cellFrom?_scanned arena leads
  rw [← List.takeWhile_append_dropWhile (p := input.grammar.isBlank) (l := rest)] at found
  have onward := Input.rest?_append found
  rw [Input.settle?, found, Option.map_some, Option.some.injEq,
    List.takeWhile_append_dropWhile] at settled
  rw [settled, scanned.rest?, Option.some.injEq] at onward
  rw [LexicalCell.atEnd, onward, List.isEmpty_iff, List.dropWhile_eq_nil_iff]

namespace Grammar

variable {engine : RegexEngine} {declarations : List (Declaration V)} {input : Input V}
  {root : Token V}

/-- The leaves of a root from left to right, each behind its blank text, make up the text up to the
end of the root. The parse is complete if and only if the rest is blank, that is, if and only if the
cell that follows the root is at the end of the text. -/
theorem parse_written (built : build engine declarations = .ok input.grammar)
    (trimmed : input.Trimmed) (isRoot : (input.grammar.parse input.source).root = some root) :
    Text.takeBytes? input.source (input.grammar.parse input.source).stop.offset =
      some (root.leaves.flatMap fun leaf => leaf.blank ++ leaf.text) ∧
    (∃ rest, input.rest? (input.grammar.parse input.source).stop.offset = some rest ∧
      ((input.grammar.parse input.source).isComplete = true ↔
        ∀ c ∈ rest, input.grammar.isBlank c = true)) ∧
    ∃ cell after,
      (input.grammar.parse input.source).chart.syntaxCell input
        (input.grammar.parse input.source).stop = .ok (cell, after) ∧
      ((input.grammar.parse input.source).isComplete = true ↔ cell.lexical.atEnd = true) := by
  have wellFormed := build_wellFormed built
  obtain ⟨sound, -, derived⟩ := Chart.parse_sound wellFormed
  obtain ⟨first, leads, isDerived⟩ := derived root isRoot
  have here := (Chart.cellFrom?_scanned sound.arena leads).2.2
  have valid := (isDerived.sits sound.arena here).2.2
  obtain ⟨rest, found⟩ := Option.isSome_iff_exists.1 valid
  have complete := parse_complete_of_root wellFormed isRoot found
  rw [parse_stop isRoot]
  obtain ⟨cell, after, asked⟩ :=
    Chart.syntaxCell_exists (input.grammar.parse input.source).chart valid
  obtain ⟨arena, -, -, leadsAfter⟩ := Chart.syntaxCell_spec sound.arena asked
  exact ⟨parse_root_written wellFormed trimmed isRoot, ⟨rest, found, complete⟩, cell, after, asked,
    complete.trans (arena.atEnd_iff leadsAfter found).symm⟩

end Grammar

theorem Sums.trimmed : Sums.input.Trimmed where
  literals := by
    have signs : Sums.grammar.literals.map String.toList = [['+']] := by
      decide +kernel
    intro text listed
    have member : text.toList ∈ Sums.grammar.literals.map String.toList :=
      List.mem_map_of_mem listed
    rw [signs, List.mem_singleton] at member
    rw [member]
    exact .of_solid (List.cons_ne_nil _ _) (List.forall_mem_singleton.2 (by decide))
  terminals := by
    intro origin landing landed terminal listed leaf candidate found
    refine .of_solid (Sums.guarded.terminals origin landing landed terminal listed leaf candidate
      found) (LexicalCell.scanTerminal_solid ?_ ?_ found)
    · cases List.mem_singleton.1 listed
      intro candidate chosen
      cases List.mem_singleton.1 chosen
      exact Scanner.words_wordwise (Grammar.solid_of_all (by decide +kernel))
    · obtain ⟨rest, -, rfl⟩ := (Input.land_eq_ok_iff _ _ _).1 landed
      exact Text.head?_dropWhile rest

/-- The leaves of a sum make up its text, and nothing follows it. -/
theorem sums_root_written :
    ∃ root, (Sums.input.grammar.parse Sums.input.source).root = some root ∧
      root.leaves.map Leaf.written = [['1'], [' ', '+'], ['1']] ∧
      Text.takeBytes? Sums.input.source (Sums.input.grammar.parse Sums.input.source).stop.offset =
        some (root.leaves.flatMap fun leaf => leaf.blank ++ leaf.text) := by
  have reads : (Sums.input.grammar.parse Sums.input.source).root.map
      (fun root => root.leaves.map Leaf.written) = some [['1'], [' ', '+'], ['1']] := by
    decide +kernel
  obtain ⟨root, isRoot, leaves⟩ := Option.map_eq_some_iff.1 reads
  exact ⟨root, isRoot, leaves, (Grammar.parse_written Sums.build_eq Sums.trimmed isRoot).1⟩

end Packrat
