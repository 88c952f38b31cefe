import Mathlib.Data.List.DropRight
import Packrat.Proofs.Chart.Lookup
import Packrat.Proofs.Derivation.Counted
import Packrat.Proofs.Evaluation.Inside
import Packrat.Proofs.History.Origins

/-!
Positions that a session shows. `Chart.Session` follows a session together with the tokens that its
caller holds, and `Chart.Exposes` says which positions the caller can have: the start of the text,
positions that are counted on the text, and those of cells, leaves and tokens. As long as all
requests come from such positions, the line and the column of each of them are those of its offset
(`Chart.Session.positions_counted`), although positions are compared by their offsets alone.
-/

set_option autoImplicit false
set_option linter.unusedSectionVars false

namespace Packrat

variable {V : Type} [Kinded V]

/-! ### Lines and columns -/

namespace Position

theorem line_through (position : Position) (piece : List Char) :
    (position.through piece).line = position.line + piece.count '\n' := by
  induction piece generalizing position with
  | nil => rfl
  | cons c rest ih =>
      rw [through_cons, ih, List.count_cons, step]
      by_cases ends : c = '\n'
      · rw [if_pos ends, if_pos (beq_iff_eq.2 ends)]
        change position.line + 1 + _ = _
        omega
      · rw [if_neg ends, if_neg (by simpa using ends)]
        rfl

/-- Columns count the characters behind the last line feed. -/
theorem column_start_through (passed : List Char) :
    (start.through passed).column = 1 + (passed.rtakeWhile (· != '\n')).length := by
  induction passed using List.reverseRecOn with
  | nil => rfl
  | append_singleton passed c ih =>
      rw [through_append, through_cons, through_nil, step]
      by_cases ends : c = '\n'
      · rw [if_pos ends, List.rtakeWhile_concat_neg _ _ _ (by simp [ends])]
        rfl
      · rw [if_neg ends, List.rtakeWhile_concat_pos _ _ _ (by simpa using ends),
          List.length_append, ← Nat.add_assoc, ← ih]
        rfl

end Position

theorem Input.Counts.line_column {input : Input V} {position : Position}
    (counts : input.Counts position) :
    ∃ passed, Text.takeBytes? input.source position.offset = some passed ∧
      position.line = 1 + passed.count '\n' ∧
      position.column = 1 + (passed.rtakeWhile (· != '\n')).length := by
  obtain ⟨passed, rest, split, rfl⟩ := Input.counts_iff.1 counts
  refine ⟨passed, (Text.takeBytes?_eq_some_iff _ _ _).2 ⟨rest, split, ?_⟩,
    Position.line_through .start passed, Position.column_start_through passed⟩
  rw [Position.through_offset, Position.start, Nat.zero_add]

example : Position.at? ['é', '\n', 'x'] 3 = .ok ⟨3, 2, 1⟩ := by
  decide

/-! ### Counted tokens -/

/-- Whether a token and all tokens inside of it start and end at places with a property. -/
def Token.Everywhere (holds : Position → Prop) (token : Token V) : Prop :=
  ∀ inner, token.Includes inner → holds inner.start ∧ holds inner.stop

namespace Token

variable {holds : Position → Prop}

theorem everywhere_leaf {lexeme : Lexeme V} (start : holds lexeme.start)
    (stop : holds lexeme.stop) : (Token.leaf lexeme).Everywhere holds := by
  intro inner includes
  cases Relation.ReflTransGen.cases_head includes with
  | inl same =>
      subst same
      exact ⟨start, stop⟩
  | inr inside =>
      obtain ⟨part, ⟨child, member, -⟩, -⟩ := inside
      cases member

theorem everywhere_node {id index : Nat} {symbol : Symbol} {first last : Child V}
    {children : List (Child V)} (isFirst : children.head? = some first)
    (isLast : children.getLast? = some last)
    (everywhere : ∀ child ∈ children, child.item.Everywhere holds) :
    (Token.node id symbol index first.item.start last.item.stop children).Everywhere holds := by
  intro inner includes
  cases Relation.ReflTransGen.cases_head includes with
  | inl same =>
      subst same
      exact ⟨(everywhere first (List.mem_of_head? isFirst) _ .refl).1,
        (everywhere last (List.mem_of_getLast? isLast) _ .refl).2⟩
  | inr inside =>
      obtain ⟨part, ⟨child, member, rfl⟩, within⟩ := inside
      exact everywhere child member inner within

end Token

namespace Input

/-- Matches carry on that positions are counted. -/
theorem counts_carries (input : Input V) : input.Carries input.Counts where
  start := input.counts_start
  leaf scanned counts found :=
    scanned.counts_stop (counts.land scanned.landed) (scanned.leaf_fits found)
  literal scanned counts _ found :=
    scanned.counts_stop (counts.land scanned.landed) (LexicalCell.literal?_fits found).1

end Input

theorem Chart.Stems.counted {input : Input V} {chart : Chart V} (stems : chart.Stems input.Counts)
    (arena : chart.Arena input) : chart.Counted input :=
  fun _ _ here => (stems here).land (arena.lexical here).1.landed

def Fact.Surveyed (input : Input V) (chart : Chart V) : Fact V → Prop
  | .matched cell _ token =>
    chart.lexicalAt? cell.position.offset = some cell → token.Everywhere input.Counts
  | .run _ _ parts _ => ∀ part ∈ parts, part.item.Everywhere input.Counts
  | .rounds _ _ _ _ _ parts _ => ∀ part ∈ parts, part.item.Everywhere input.Counts

theorem LexicalCell.Scanned.everywhere {input : Input V} {cell : LexicalCell V} {leaf : Leaf V}
    (scanned : cell.Scanned input) (counts : input.Counts cell.position)
    (fits : leaf.FitsAt cell.toLanding) (number : Nat) :
    (Token.leaf ⟨leaf, number⟩).Everywhere input.Counts := by
  apply Token.everywhere_leaf
  · rw [fits.start]
    exact counts
  · exact scanned.counts_stop counts fits

theorem Derives.surveyed {input : Input V} {chart : Chart V} {fact : Fact V}
    (derived : Derives input chart fact) (arena : chart.Arena input)
    (counted : chart.Counted input) : fact.Surveyed input chart := by
  induction derived with
  | leaf _ found =>
      intro here
      have scanned := (arena.lexical here).1
      exact scanned.everywhere (counted here) (scanned.leaf_fits found) _
  | seed _ _ _ _ isFirst isLast ihRun =>
      intro _
      exact Token.everywhere_node isFirst isLast ihRun
  | extension _ _ _ _ _ _ isLast _ ihBase ihRun =>
      intro here
      exact Token.everywhere_node rfl isLast (List.forall_mem_cons.2 ⟨ihBase here, ihRun⟩)
  | done => exact nofun
  | literal leads found _ ihRest =>
      obtain ⟨scanned, -, here⟩ := Chart.cellFrom?_scanned arena leads
      exact List.forall_mem_cons.2
        ⟨scanned.everywhere (counted here) (LexicalCell.literal?_fits found).1 _, ihRest⟩
  | reference _ leads _ _ ihToken ihRest =>
      obtain ⟨-, -, here⟩ := Chart.cellFrom?_scanned arena leads
      exact List.forall_mem_cons.2 ⟨ihToken here, ihRest⟩
  | repeated _ _ ihRounds ihRest => exact List.forall_mem_append.2 ⟨ihRounds, ihRest⟩
  | enough _ => exact nofun
  | idle _ _ _ ihRun => exact ihRun
  | onward _ _ _ _ ihRun ihRounds => exact List.forall_mem_append.2 ⟨ihRun, ihRounds⟩

/-! ### Sessions -/

/-- Whether a cell shows a leaf: a match of a terminal or an alias, or of any literal text. -/
def LexicalCell.Shows (cell : LexicalCell V) (leaf : Leaf V) : Prop :=
  leaf ∈ cell.leaves ∨ ∃ text, cell.literal? text = some leaf

namespace Chart

/-- The positions that the caller of a session can have, who holds some tokens. -/
inductive Exposes (input : Input V) (chart : Chart V) (held : List (Token V)) :
    Position → Prop where
  | start : Exposes input chart held .start
  | counted {offset position} :
      Position.at? input.source offset = .ok position → Exposes input chart held position
  | parsed : Exposes input chart held (input.grammar.parse input.source).stop
  | origin {offset cell} :
      chart.lexicalAt? offset = some cell → Exposes input chart held cell.origin
  | lexical {offset cell} :
      chart.lexicalAt? offset = some cell → Exposes input chart held cell.position
  | syntactic {offset cell} :
      chart.syntacticAt? offset = some cell → Exposes input chart held cell.lexical.position
  | leafStart {offset cell leaf} :
      chart.lexicalAt? offset = some cell → cell.Shows leaf → Exposes input chart held leaf.start
  | leafStop {offset cell leaf} :
      chart.lexicalAt? offset = some cell → cell.Shows leaf → Exposes input chart held leaf.stop
  | tokenStart {token inner} :
      token ∈ held → token.Includes inner → Exposes input chart held inner.start
  | tokenStop {token inner} :
      token ∈ held → token.Includes inner → Exposes input chart held inner.stop

/-- A session whose requests come from positions that the caller has, with the tokens that have been
found so far. -/
inductive Session (input : Input V) : Chart V → List (Token V) → Prop where
  | opened : Session input {} []
  | parsed :
      Session input (input.grammar.parse input.source).chart
        (input.grammar.parse input.source).root.toList
  | lexicalCell {chart after held origin cell} :
      Session input chart held → Exposes input chart held origin →
      chart.lexicalCell input origin = .ok (cell, after) → Session input after held
  | syntaxCell {chart after held origin cell} :
      Session input chart held → Exposes input chart held origin →
      chart.syntaxCell input origin = .ok (cell, after) → Session input after held
  | literal {chart after held offset cell text found} :
      Session input chart held → chart.lexicalAt? offset = some cell →
      chart.literal cell text = (found, after) →
      Session input after ((found.map Token.leaf).toList ++ held)
  | token {chart after held offset cell symbol found} :
      Session input chart held → chart.syntacticAt? offset = some cell →
      chart.token input cell symbol = (found, after) → Session input after (found.toList ++ held)
  | value {chart after held token found} :
      Session input chart held → chart.value input token = (found, after) →
      Session input after held

variable {engine : RegexEngine} {declarations : List (Declaration V)} {input : Input V}
  {chart : Chart V} {held : List (Token V)} {position : Position}

theorem parse_everywhere (wellFormed : input.grammar.WellFormed) :
    ∀ root, (input.grammar.parse input.source).root = some root →
      root.Everywhere input.Counts := by
  intro root isRoot
  obtain ⟨sound, -, derived⟩ := parse_sound wellFormed
  obtain ⟨cell, leads, isDerived⟩ := derived root isRoot
  have stems := parse_stems wellFormed input.counts_carries
  exact isDerived.surveyed sound.arena (stems.counted sound.arena)
    (cellFrom?_scanned sound.arena leads).2.2

theorem Exposes.counts (exposed : Exposes input chart held position)
    (wellFormed : input.grammar.WellFormed) (sound : chart.Sound input)
    (stems : chart.Stems input.Counts)
    (everywhere : ∀ token ∈ held, token.Everywhere input.Counts) : input.Counts position := by
  have counted := stems.counted sound.arena
  have leaves {offset : Nat} {cell : LexicalCell V} {leaf : Leaf V}
      (here : chart.lexicalAt? offset = some cell) (shows_ : cell.Shows leaf) :
      input.Counts leaf.start ∧ input.Counts leaf.stop := by
    have scanned := (sound.arena.lexical here).1
    have fits : leaf.FitsAt cell.toLanding := by
      rcases shows_ with member | ⟨text, found⟩
      · exact scanned.fits_of_mem member
      · exact (LexicalCell.literal?_fits found).1
    exact ⟨by rw [fits.start]; exact counted here, scanned.counts_stop (counted here) fits⟩
  cases exposed with
  | start => exact input.counts_start
  | counted same =>
      obtain ⟨-, between, -, -, -, reached, rfl⟩ := (Position.advance_eq_ok_iff _ _ _ _).1 same
      rw [Input.Counts, Position.through_offset, reached]
      exact same
  | parsed =>
      unfold Parse.stop
      cases isRoot : (input.grammar.parse input.source).root with
      | none => exact input.counts_start
      | some root => exact (parse_everywhere wellFormed root isRoot root .refl).2
  | origin here => exact stems here
  | lexical here => exact counted here
  | syntactic here => exact counted (sound.arena.syntactic here)
  | leafStart here shows_ => exact (leaves here shows_).1
  | leafStop here shows_ => exact (leaves here shows_).2
  | tokenStart member includes => exact (everywhere _ member _ includes).1
  | tokenStop member includes => exact (everywhere _ member _ includes).2

theorem Session.reachable (session : Session input chart held)
    (wellFormed : input.grammar.WellFormed) :
    chart.Reachable input input.Counts ∧ ∀ token ∈ held, token.Everywhere input.Counts := by
  have exposed_counts {chart : Chart V} {held : List (Token V)} {origin : Position}
      (reachable : chart.Reachable input input.Counts)
      (everywhere : ∀ token ∈ held, token.Everywhere input.Counts)
      (exposed : Exposes input chart held origin) : input.Counts origin :=
    exposed.counts wellFormed (reachable.sound wellFormed)
      (reachable.stems wellFormed input.counts_carries) everywhere
  induction session with
  | opened => exact ⟨.opened, nofun⟩
  | parsed =>
      refine ⟨.parsed, ?_⟩
      intro token member
      exact parse_everywhere wellFormed token (Option.mem_toList.1 member)
  | lexicalCell _ exposed asked ih =>
      rcases ih with ⟨reachable, everywhere⟩
      exact ⟨.lexicalCell reachable (exposed_counts reachable everywhere exposed) asked, everywhere⟩
  | syntaxCell _ exposed asked ih =>
      rcases ih with ⟨reachable, everywhere⟩
      exact ⟨.syntaxCell reachable (exposed_counts reachable everywhere exposed) asked, everywhere⟩
  | literal _ here done ih =>
      rcases ih with ⟨reachable, everywhere⟩
      have sound := reachable.sound wellFormed
      have counted := (reachable.stems wellFormed input.counts_carries).counted sound.arena
      refine ⟨.literal reachable here done, List.forall_mem_append.2 ⟨?_, everywhere⟩⟩
      intro token member
      obtain ⟨lexeme, isFound, rfl⟩ := Option.map_eq_some_iff.1 (Option.mem_toList.1 member)
      obtain ⟨-, -, same, -⟩ := literal_sound sound here done
      rw [isFound] at same
      exact (sound.arena.lexical here).1.everywhere (counted here)
        (LexicalCell.literal?_fits same.symm).1 lexeme.number
  | token _ here done ih =>
      rcases ih with ⟨reachable, everywhere⟩
      have after := Reachable.token reachable here done
      refine ⟨after, List.forall_mem_append.2 ⟨?_, everywhere⟩⟩
      intro token member
      obtain ⟨sound, grown, derived⟩ :=
        token_sound wellFormed (reachable.sound wellFormed) here done
      have counted := (after.stems wellFormed input.counts_carries).counted sound.arena
      have held := ((reachable.sound wellFormed).arena.holds here).mono grown
      exact (derived token (Option.mem_toList.1 member)).surveyed sound.arena counted
        (held.lexicalAt? sound.arena)
  | value _ done ih => exact ⟨.value ih.1 done, ih.2⟩

/-- Every position that a session shows is the one that is counted at its offset: its line is one
more than the line feeds before it, and its column is one more than the characters behind the last
of them. -/
theorem Session.positions_counted (built : Grammar.build engine declarations = .ok input.grammar)
    (session : Session input chart held) (exposed : Exposes input chart held position) :
    Position.at? input.source position.offset = .ok position ∧
      ∃ passed, Text.takeBytes? input.source position.offset = some passed ∧
        position.line = 1 + passed.count '\n' ∧
        position.column = 1 + (passed.rtakeWhile (· != '\n')).length := by
  have wellFormed := Grammar.build_wellFormed built
  obtain ⟨reachable, everywhere⟩ := session.reachable wellFormed
  have counts : input.Counts position :=
    exposed.counts wellFormed (reachable.sound wellFormed)
      (reachable.stems wellFormed input.counts_carries) everywhere
  exact ⟨counts, counts.line_column⟩

/-- The sum of two digits ends in the fifth column of the first line. -/
theorem sums_stop_counted :
    ∃ root, (Sums.input.grammar.parse Sums.input.source).root = some root ∧
      root.stop = ⟨4, 1, 5⟩ ∧ Position.at? Sums.input.source 4 = .ok root.stop := by
  have ends : (Sums.input.grammar.parse Sums.input.source).root.map (·.stop) =
      some ⟨4, 1, 5⟩ := by
    decide +kernel
  obtain ⟨root, isRoot, stop⟩ := Option.map_eq_some_iff.1 ends
  have held : root ∈ (Sums.input.grammar.parse Sums.input.source).root.toList :=
    Option.mem_toList.2 isRoot
  have counted := (Session.positions_counted Sums.build_eq .parsed (.tokenStop held .refl)).1
  refine ⟨root, isRoot, stop, ?_⟩
  rw [stop] at counted ⊢
  exact counted

end Chart

end Packrat
