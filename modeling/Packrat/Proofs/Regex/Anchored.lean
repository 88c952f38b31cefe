import Mathlib.Data.List.Forall2
import Packrat.Proofs.Regex.Enclosed
import Packrat.Proofs.Regex.Ways
import Packrat.Proofs.Scan.Lengths

/-!
Patterns of terminals. A pattern is tied to the place where scanning starts by writing it into a
group behind the start of the text. What an engine makes of that is said by what its patterns match
(`RegexEngine.Semantics`). If the pattern is well formed by itself, then what it contributes is a
match of its own that starts where the text starts (`Scanner.patterns_anchored`).

Whether it is well formed by itself is not checked. A pattern that closes the group and opens
another one is accepted, and can match further behind (`Scanner.unbalanced_not_anchored`).
-/

set_option autoImplicit false

namespace Packrat

/-- What the patterns of an engine match in a text, from one byte offset to another. -/
structure RegexEngine.Semantics (engine : RegexEngine) where
  Matches : (pattern text : List Char) → (start stop : Nat) → Prop
  /-- What is found is matched. -/
  found : ∀ {pattern text : List Char} {ready : Pattern} {start stop : Nat},
    engine.read? pattern = some ready → ready.find? text = some (start, stop) →
      Matches pattern text start stop
  /-- A caret matches the start of the text and consumes nothing. -/
  caret : ∀ {text : List Char} {start stop : Nat},
    Matches ['^'] text start stop → start = 0 ∧ stop = 0
  /-- What stands behind a caret matches behind it. -/
  sequence : ∀ {pattern text : List Char} {start stop : Nat},
    (engine.read? pattern).isSome → (engine.read? (anchored pattern)).isSome →
      Matches (anchored pattern) text start stop →
        ∃ middle, Matches ['^'] text start middle ∧ Matches (grouped pattern) text middle stop
  /-- A group matches what is in it. -/
  group : ∀ {pattern text : List Char} {start stop : Nat},
    (engine.read? pattern).isSome → (engine.read? (anchored pattern)).isSome →
      Matches (grouped pattern) text start stop → Matches pattern text start stop

theorem RegexEngine.Semantics.anchored_start {engine : RegexEngine} (semantics : engine.Semantics)
    {pattern text : List Char} {ready : Pattern} {start stop : Nat}
    (own : (engine.read? pattern).isSome) (read : engine.read? (anchored pattern) = some ready)
    (found : ready.find? text = some (start, stop)) :
    start = 0 ∧ semantics.Matches pattern text 0 stop := by
  have accepted : (engine.read? (anchored pattern)).isSome := by rw [read]; rfl
  obtain ⟨middle, atCaret, behind⟩ := semantics.sequence own accepted (semantics.found read found)
  obtain ⟨rfl, rfl⟩ := semantics.caret atCaret
  exact ⟨rfl, semantics.group own accepted behind⟩

/-! ### The semantics of programs -/

namespace Regex

def Matches (pattern text : List Char) (start stop : Nat) : Prop :=
  ∃ regex first last, read? pattern = some regex ∧ Spot.Within text first ∧
    Accepts regex.program 0 first last ∧ first.offset = start ∧ last.offset = stop

section

variable {pattern text : List Char} {start stop : Nat}

theorem read?_isSome (accepted : (engine.read? pattern).isSome) :
    ∃ regex, read? pattern = some regex := by
  obtain ⟨ready, isReady⟩ := Option.isSome_iff_exists.1 accepted
  obtain ⟨searcher, isSearcher, -⟩ := Option.map_eq_some_iff.1 isReady
  obtain ⟨regex, isRegex, -⟩ := Option.bind_eq_some_iff.1 isSearcher
  exact ⟨regex, isRegex⟩

theorem matches_of_found {ready : Pattern} (read : engine.read? pattern = some ready)
    (found : ready.find? text = some (start, stop)) : Matches pattern text start stop := by
  obtain ⟨searcher, isSearcher, rfl⟩ := Option.map_eq_some_iff.1 read
  obtain ⟨regex, isRegex, limited⟩ := Option.bind_eq_some_iff.1 isSearcher
  obtain ⟨⟨first, last⟩, isFound, same⟩ := Option.map_eq_some_iff.1 found
  cases same
  split at limited
  · cases limited
    obtain ⟨within, accepts⟩ := Searcher.find?_accepts isFound
    exact ⟨regex, first, last, isRegex, within, accepts, rfl, rfl⟩
  · cases limited

theorem read?_caret : read? ['^'] = some (.assertion .textStart) :=
  rfl

theorem start_of_check {steps : Array Step} {first last : Spot} (within : first.Within text)
    (isCheck : steps[0]? = some (.check .textStart)) (accepts : Accepts steps 0 first last) :
    first = .first text ∧ Accepts steps 1 first last := by
  cases accepts with
  | passed isStep meets behind =>
      cases isCheck.symm.trans isStep
      exact ⟨within.eq_first (Option.isNone_iff_eq_none.1 meets), behind⟩
  | accepted isStep | consumed isStep | forked isStep | jumped isStep =>
      cases isCheck.symm.trans isStep

theorem caret_matches (matched : Matches ['^'] text start stop) : start = 0 ∧ stop = 0 := by
  obtain ⟨regex, first, last, isRegex, within, accepts, rfl, rfl⟩ := matched
  cases read?_caret.symm.trans isRegex
  obtain ⟨rfl, behind⟩ := start_of_check within rfl accepts
  cases behind with
  | accepted _ => exact ⟨rfl, rfl⟩
  | consumed isStep | passed isStep | forked isStep | jumped isStep => cases isStep

theorem matches_caret (text : List Char) : Matches ['^'] text 0 0 :=
  ⟨_, .first text, .first text, read?_caret, .first text, .passed rfl rfl (.accepted rfl), rfl, rfl⟩

theorem anchored_matches {regex : Regex} (own : read? pattern = some regex)
    (matched : Matches (anchored pattern) text start stop) :
    start = 0 ∧ Matches (grouped pattern) text 0 stop := by
  obtain ⟨enclosed, first, last, isEnclosed, within, accepts, rfl, rfl⟩ := matched
  obtain ⟨body, isBody, rfl⟩ := read?_anchored own isEnclosed
  rw [program_sequence fun _ => rfl] at accepts
  have isCheck : (Step.behind #[.check .textStart] body.program)[0]? =
      some (.check .textStart) := by
    rw [Step.behind, Array.getElem?_append_left (by decide)]
    rfl
  obtain ⟨rfl, behind⟩ := start_of_check within isCheck accepts
  exact ⟨rfl, body, .first text, last, isBody, .first text, .of_behind behind, rfl, rfl⟩

theorem grouped_matches {regex : Regex} (own : read? pattern = some regex)
    (matched : Matches (grouped pattern) text start stop) : Matches pattern text start stop := by
  obtain ⟨body, first, last, isBody, within, accepts, rfl, rfl⟩ := matched
  have same : body.program = regex.program := by
    rw [program, program, emit_grouped own isBody]
  rw [same] at accepts
  exact ⟨regex, first, last, own, within, accepts, rfl, rfl⟩

end

def semantics : engine.Semantics where
  Matches := Matches
  found := matches_of_found
  caret := caret_matches
  sequence own _ matched := by
    obtain ⟨regex, isRegex⟩ := read?_isSome own
    obtain ⟨rfl, behind⟩ := anchored_matches isRegex matched
    exact ⟨0, matches_caret _, behind⟩
  group own _ matched := by
    obtain ⟨regex, isRegex⟩ := read?_isSome own
    exact grouped_matches isRegex matched

end Regex

/-! ### What patterns of terminals contribute -/

namespace Scanner

/-- Whether a pattern that is ready to scan only contributes matches of a pattern that start where
the scanned text starts. -/
structure Anchors {engine : RegexEngine} (semantics : engine.Semantics) (pattern : List Char)
    (ready : Pattern) (text : List Char) : Prop where
  starts : ∀ start stop, ready.find? text = some (start, stop) → start = 0
  contributed : ∀ length, scanPattern ready text = some length →
    ready.find? text = some (0, length) ∧ semantics.Matches pattern text 0 length ∧
      ∃ piece rest, text = piece ++ rest ∧ Text.byteLength piece = length

theorem anchors_of_own {engine : RegexEngine} (semantics : engine.Semantics) {pattern : String}
    {ready : Pattern} (accepted : anchoredPattern? engine pattern = some ready)
    (own : (engine.read? pattern.toList).isSome) (text : List Char) :
    Anchors semantics pattern.toList ready text := by
  constructor
  · exact fun start stop found => (semantics.anchored_start own accepted found).1
  · intro length scanned
    have cut := scanPattern_cuts scanned
    obtain ⟨⟨start, stop⟩, isFound, rfl⟩ := Option.map_eq_some_iff.1 scanned
    obtain ⟨rfl, matched⟩ := semantics.anchored_start own accepted isFound
    exact ⟨isFound, matched, cut⟩

/-- Of the patterns of a terminal, each that is well formed by itself only contributes matches of
its own that start where the scanned text starts. -/
theorem patterns_anchored {engine : RegexEngine} (semantics : engine.Semantics)
    {patterns : List String} {scanner : Scanner}
    (compiled : compile engine (.patterns patterns) = .ok scanner) :
    ∃ readies, scanner = .patterns readies ∧
      List.Forall₂ (fun pattern ready => (engine.read? pattern.toList).isSome →
        ∀ text, Anchors semantics pattern.toList ready text) patterns readies := by
  obtain ⟨readies, done, rfl⟩ := compile_patterns compiled
  have same : List.Forall₂ Eq (patterns.map (anchoredPattern? engine)) (readies.map some) :=
    List.forall₂_eq_eq_eq ▸ readPatterns_map done
  have accepted := List.forall₂_map_right_iff.1 (List.forall₂_map_left_iff.1 same)
  exact ⟨readies, rfl,
    accepted.imp fun _ _ isReady own text => anchors_of_own semantics isReady own text⟩

/-- A choice at the top of a pattern is tied as a whole. -/
theorem choice_anchored :
    ∃ ready, compile Regex.engine (.patterns ["b|ab"]) = .ok (.patterns [ready]) ∧
      ready.find? ['a', 'b', 'b'] = some (0, 2) ∧
      Regex.Matches "b|ab".toList ['a', 'b', 'b'] 0 2 ∧
      ready.find? ['x', 'b'] = none := by
  have finds : (anchoredPattern? Regex.engine "b|ab").map
      (fun ready => (ready.find? ['a', 'b', 'b'], ready.find? ['x', 'b'])) =
        some (some (0, 2), none) := by
    decide +kernel
  obtain ⟨ready, accepted, isFound⟩ := Option.map_eq_some_iff.1 finds
  obtain ⟨found, notFound⟩ := Prod.mk.inj isFound
  have compiled : compile Regex.engine (.patterns ["b|ab"]) = .ok (.patterns [ready]) := by
    simp only [compile, readPatterns, accepted]
    rfl
  have own : (Regex.engine.read? "b|ab".toList).isSome := by decide +kernel
  have scanned : scanPattern ready ['a', 'b', 'b'] = some 2 := congrArg (Option.map Prod.snd) found
  obtain ⟨readies, same, anchored⟩ := patterns_anchored Regex.semantics compiled
  cases same
  cases anchored with
  | cons anchors _ =>
      obtain ⟨-, matched, -⟩ := (anchors own ['a', 'b', 'b']).contributed 2 scanned
      exact ⟨ready, compiled, found, matched, notFound⟩

def unbalanced : String :=
  "a)|(?:b"

/-- A pattern that is not well formed by itself can be accepted, and then match behind the place
where scanning starts, so that more is scanned than its match. -/
theorem unbalanced_not_anchored :
    Regex.engine.read? unbalanced.toList = none ∧
    ∃ ready, compile Regex.engine (.patterns [unbalanced]) = .ok (.patterns [ready]) ∧
      ready.find? ['x', 'b'] = some (1, 2) ∧ scan (.patterns [ready]) ['x', 'b'] = some 2 := by
  have refused : (Regex.engine.read? unbalanced.toList).isNone := by decide +kernel
  have finds : (anchoredPattern? Regex.engine unbalanced).map (·.find? ['x', 'b']) =
      some (some (1, 2)) := by
    decide +kernel
  obtain ⟨ready, accepted, isFound⟩ := Option.map_eq_some_iff.1 finds
  refine ⟨Option.isNone_iff_eq_none.1 refused, ready, ?_, isFound, ?_⟩
  · simp only [compile, readPatterns, accepted]
    rfl
  · simp only [scan, List.map_cons, List.map_nil, scanPattern, isFound]
    rfl

end Scanner

end Packrat
