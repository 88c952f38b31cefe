import Packrat.Proofs.Bridge.Moved
import Packrat.Proofs.Chart.Lookup
import Packrat.Proofs.Reading.Lexemes

/-!
What stands before a place does not matter for what is found there. A symbol that is resolved at the
place behind a first text finds what it finds at the start of the second text alone, and every
position counts on from that place (`Grammar.resolve_behind`).
-/

set_option autoImplicit false
set_option linter.unusedSectionVars false

namespace Packrat

variable {V : Type} [Kinded V]

/-! ### Positions counted on -/

namespace Position

def countedFrom (origin position : Position) : Position where
  offset := origin.offset + position.offset
  line := origin.line + (position.line - 1)
  column := if position.line = 1 then origin.column + (position.column - 1) else position.column

@[simp] theorem countedFrom_start (origin : Position) : origin.countedFrom start = origin := rfl

variable {position : Position} {c : Char}

theorem line_step (counts : 1 ≤ position.line) : 1 ≤ (position.step c).line := by
  unfold step
  split
  · exact Nat.le_add_left 1 _
  · exact counts

theorem column_step : 1 ≤ (position.step c).column := by
  unfold step
  split
  · exact Nat.le_refl 1
  · exact Nat.le_add_left 1 _

theorem countedFrom_step (origin : Position) (lines : 1 ≤ position.line)
    (columns : 1 ≤ position.column) :
    origin.countedFrom (position.step c) = (origin.countedFrom position).step c := by
  rcases position with ⟨offset, line, column⟩
  have next : line + 1 ≠ 1 := by
    change 1 ≤ line at lines
    omega
  unfold step
  by_cases ends : c = '\n'
  · simp only [if_pos ends, countedFrom, if_neg next, mk.injEq, Nat.add_assoc, true_and, and_true]
    change 1 ≤ line at lines
    omega
  · by_cases first : line = 1
    · simp only [if_neg ends, countedFrom, if_pos first, mk.injEq, Nat.add_assoc, true_and]
      change 1 ≤ column at columns
      omega
    · simp only [if_neg ends, countedFrom, if_neg first, Nat.add_assoc]

theorem countedFrom_through (origin : Position) (passed : List Char) (lines : 1 ≤ position.line)
    (columns : 1 ≤ position.column) :
    origin.countedFrom (position.through passed) =
      (origin.countedFrom position).through passed := by
  induction passed generalizing position with
  | nil => rfl
  | cons c rest ih =>
      rw [through_cons, through_cons, ih (line_step lines) column_step,
        countedFrom_step origin lines columns]

theorem countedFrom_start_through (origin : Position) (passed : List Char) :
    origin.countedFrom (start.through passed) = origin.through passed := by
  rw [countedFrom_through origin passed (Nat.le_refl 1) (Nat.le_refl 1), countedFrom_start]

def Shared (before text rest : List Char) (here there : Position) : Prop :=
  ∃ passed, text = passed ++ rest ∧ here = start.through passed ∧
    there = start.through (before ++ passed)

section Shared

variable {before text rest : List Char} {here there : Position}

theorem Shared.begin (before text : List Char) :
    Shared before text text start (start.through before) :=
  ⟨[], rfl, rfl, by rw [List.append_nil]⟩

theorem Shared.through {piece more : List Char} (shared : Shared before text rest here there)
    (split : rest = piece ++ more) :
    Shared before text more (here.through piece) (there.through piece) := by
  rcases shared with ⟨passed, whole, rfl, rfl⟩
  refine ⟨passed ++ piece, ?_, ?_, ?_⟩
  · rw [whole, split, List.append_assoc]
  · rw [through_append]
  · rw [← through_append, List.append_assoc]

theorem Shared.offset (shared : Shared before text rest here there) :
    there.offset = Text.byteLength before + here.offset := by
  rcases shared with ⟨passed, -, rfl, rfl⟩
  rw [through_offset, through_offset, Text.byteLength_append]
  omega

theorem Shared.countedFrom (shared : Shared before text rest here there) :
    (start.through before).countedFrom here = there := by
  rcases shared with ⟨passed, -, rfl, rfl⟩
  rw [countedFrom_start_through, through_append]

end Shared

end Position

/-! ### The same text behind another -/

namespace Grammar

variable {grammar : Grammar V} {before text rest : List Char} {here there : Position}

theorem on_rest? (passed : List Char) (split : text = passed ++ rest) :
    (grammar.on text).rest? (Text.byteLength passed) = some rest := by
  rw [Input.rest?_eq]
  change Text.dropBytes? text _ = _
  rw [split, Text.dropBytes?_append]

theorem shared_rest? (grammar : Grammar V) (shared : Position.Shared before text rest here there) :
    (grammar.on text).rest? here.offset = some rest ∧
      (grammar.on (before ++ text)).rest? there.offset = some rest := by
  rcases shared with ⟨passed, split, rfl, rfl⟩
  have none_ : Position.start.offset = 0 := rfl
  rw [Position.through_offset, Position.through_offset, none_, Nat.zero_add, Nat.zero_add]
  constructor
  · exact on_rest? passed split
  · apply on_rest? (before ++ passed)
    rw [split, List.append_assoc]

theorem shared_aligned {here there : Landing}
    (shared : Position.Shared before text here.rest here.position there.position)
    (blank : here.blank = there.blank) (same : here.rest = there.rest) :
    here.Aligned grammar (fun place place' => ∃ rest, Position.Shared before text rest place place')
      Eq there where
  position := ⟨_, shared⟩
  blank := blank
  terminals := fun terminal _ => LexicalCell.scanTerminal_moveTo same terminal
  terminalStops := by
    intro terminal _ leaf candidate found
    have fits := LexicalCell.scanTerminal_fits found
    obtain ⟨more, split⟩ := fits.text
    rw [fits.stop]
    exact ⟨more, shared.through split.symm⟩
  literals := fun literal _ => by rw [same]
  literalStops := by
    intro literal _ begins
    obtain ⟨more, split⟩ := begins
    exact ⟨more, shared.through split.symm⟩

variable (grammar)

def behind (before text : List Char) : Bridge (grammar.on text) (grammar.on (before ++ text)) where
  Meets place place' := ∃ rest, Position.Shared before text rest place place'
  Skips := Eq
  grammar_eq := rfl
  lt_iff := by
    rintro place place' other other' ⟨rest, shared⟩ ⟨rest', shared'⟩
    rw [shared.offset, shared'.offset]
    omega
  lands := by
    rintro place place' ⟨rest, shared⟩
    obtain ⟨found, found'⟩ := shared_rest? grammar shared
    refine ⟨_, _, ((grammar.on text).land_eq_ok_iff place _).2 ⟨rest, found, rfl⟩,
      ((grammar.on (before ++ text)).land_eq_ok_iff place' _).2 ⟨rest, found', rfl⟩, ?_⟩
    apply shared_aligned
    · exact shared.through List.takeWhile_append_dropWhile.symm
    · rfl
    · rfl

/-! ### Lookups behind another text -/

variable {grammar}

theorem slice?_behind (before text : List Char) (start stop : Nat) :
    Text.slice? (before ++ text) (Text.byteLength before + start) (Text.byteLength before + stop) =
      Text.slice? text start stop := by
  have ordered : Text.byteLength before + start ≤ Text.byteLength before + stop ↔ start ≤ stop := by
    omega
  have between : Text.byteLength before + stop - (Text.byteLength before + start) =
      stop - start := by
    omega
  unfold Text.slice?
  simp only [ordered, between, Text.dropBytes?_behind]

theorem text_moved {origin : Position} (far : origin.offset = Text.byteLength before)
    (token : Token V) :
    (token.moved origin.countedFrom id).text (before ++ text) = token.text text := by
  cases token with
  | leaf lexeme => rfl
  | node id_ symbol alternative begin_ end_ children =>
      unfold Token.moved Token.text
      change (Text.slice? _ (origin.offset + begin_.offset) (origin.offset + end_.offset)).getD [] =
        _
      rw [far, slice?_behind]

variable {engine : RegexEngine} {declarations : List (Declaration V)}

/-- A symbol at the place behind `before` is resolved as at the start of a text: there is a match
at the one place exactly if there is one at the other, and the matches differ in nothing but the
places, which are counted on. -/
theorem resolve_behind (built : Grammar.build engine declarations = .ok grammar)
    (before text : List Char) (symbol : Symbol) :
    ∃ origin found after after',
      Position.at? (before ++ text) (Text.byteLength before) = .ok origin ∧
      ({} : Chart V).resolveAtStart (grammar.on text) symbol = (found, after) ∧
      ({} : Chart V).tokenAt (grammar.on (before ++ text)) origin symbol =
        .ok (found.map (Token.moved origin.countedFrom id), after') ∧
      (∀ position, (origin.countedFrom position).offset =
        Text.byteLength before + position.offset) ∧
      ∀ token : Token V, (token.moved origin.countedFrom id).shape = token.shape ∧
        (token.moved origin.countedFrom id).text (before ++ text) = token.text text := by
  have wellFormed : (grammar.on text).grammar.WellFormed := build_wellFormed built
  have none_ : Position.start.offset = 0 := rfl
  have far : (Position.start.through before).offset = Text.byteLength before := by
    rw [Position.through_offset, none_, Nat.zero_add]
  cases done : ({} : Chart V).resolveAtStart (grammar.on text) symbol with
  | mk found after =>
      have lands : (grammar.behind before text).Lands .start (Position.start.through before) :=
        (grammar.behind before text).lands ⟨_, .begin before text⟩
      obtain ⟨found', after', done', both, -⟩ := Bridge.tokenAt wellFormed .empty Chart.empty_sound
        Chart.empty_sound lands (Chart.resolveAtStart_eq_iff.1 done)
      have same : found'.map (Token.moved id id) =
          found.map (Token.moved (Position.start.through before).countedFrom id) := by
        refine Bridge.moved_eq_of_rel ?_ ?_ both
        · rintro here there ⟨rest, shared⟩
          exact shared.countedFrom.symm
        · rintro skipped _ rfl
          rfl
      have unmoved : Token.moved id id = (id : Token V → Token V) := funext Token.moved_id
      rw [unmoved, Option.map_id] at same
      refine ⟨Position.start.through before, found, after, after', ?_, rfl, ?_, ?_, ?_⟩
      · exact (Position.advance_eq_ok_iff _ _ _ _).2
          ⟨[], before, text, rfl, rfl, Nat.zero_add _, rfl⟩
      · rw [← same]
        exact done'
      · intro position
        rw [← far]
        rfl
      · intro token
        exact ⟨token.shape_moved _ _, text_moved far token⟩

/-- A sum on the second line of a text ends where counting on from the start of that line leads. -/
theorem sums_resolve_behind :
    Grammar.build Regex.engine Sums.declarations = .ok Sums.grammar ∧
      ∃ (origin : Position) (sum : Token Scalar) (after' : Chart Scalar),
        Position.at? ['0', '\n', ' ', '1', '+', '0'] 2 = .ok origin ∧
        ({} : Chart Scalar).tokenAt (Sums.grammar.on ['0', '\n', ' ', '1', '+', '0']) origin
          Sums.sumSymbol = .ok (some (sum.moved origin.countedFrom id), after') ∧
        sum.stop = ⟨4, 1, 5⟩ ∧ origin.countedFrom sum.stop = ⟨6, 2, 5⟩ := by
  have ends : (({} : Chart Scalar).resolveAtStart (Sums.grammar.on [' ', '1', '+', '0'])
      Sums.sumSymbol).1.map Token.stop = some ⟨4, 1, 5⟩ := by
    decide +kernel
  obtain ⟨origin, found, after, after', isPlace, done, done', -⟩ :=
    resolve_behind Sums.build_eq ['0', '\n'] [' ', '1', '+', '0'] Sums.sumSymbol
  rw [done] at ends
  obtain ⟨sum, rfl, stops⟩ := Option.map_eq_some_iff.1 ends
  have isOrigin : Position.at? ['0', '\n', ' ', '1', '+', '0'] 2 = .ok ⟨2, 2, 1⟩ := by decide
  cases isOrigin.symm.trans isPlace
  refine ⟨Sums.build_eq, _, sum, after', isPlace, done', stops, ?_⟩
  rw [stops]
  rfl

end Grammar

end Packrat
