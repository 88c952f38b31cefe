import Packrat.Regex.Reader
import Packrat.Regex.Search
import Packrat.Regex.Size
import Packrat.Scanner

/-!
An engine for regular patterns: the reader, the limit on the size of a pattern, and the search. A
search only moves from one character to the next, so a match ends between two characters
(`searchFrom_ends`).
-/

set_option autoImplicit false

namespace Packrat

theorem better_ends {steps : Array Step} {spot : Spot} {waiting : List Thread}
    {best : Option Found} {found : Found} (chosen : better steps spot waiting best = some found) :
    best = some found ∨ found.2 = spot := by
  unfold better at chosen
  split at chosen
  · cases chosen
    exact .inr rfl
  · exact .inl chosen

theorem searchFrom_ends {steps : Array Step} {anchored : Bool} {best : Option Found}
    {threads : List Thread} {offset : Nat} {before : Option Char} {text : List Char}
    {found : Found}
    (searched : searchFrom steps anchored best threads offset before text = some found) :
    best = some found ∨
      ∃ piece after, text = piece ++ after ∧ found.2.offset = offset + Text.byteLength piece := by
  induction text generalizing best threads offset before with
  | nil =>
      rcases better_ends searched with old | new
      · exact .inl old
      · exact .inr ⟨[], [], rfl, by rw [new]; rfl⟩
  | cons c rest ih =>
      rw [searchFrom] at searched
      split at searched
      · rcases better_ends searched with old | new
        · exact .inl old
        · exact .inr ⟨[], c :: rest, rfl, by rw [new]; rfl⟩
      · rcases ih searched with here | ⟨piece, after, rfl, ends⟩
        · rcases better_ends here with old | new
          · exact .inl old
          · exact .inr ⟨[], c :: rest, rfl, by rw [new]; rfl⟩
        · refine .inr ⟨c :: piece, after, rfl, ?_⟩
          rw [ends, Text.byteLength_cons, Nat.add_assoc]

def Searcher.pattern (searcher : Searcher) : Pattern where
  find? text := (searcher.find? text).map fun found => (found.1.offset, found.2.offset)
  ends := by
    intro text start stop found
    obtain ⟨match_, isFound, same⟩ := Option.map_eq_some_iff.1 found
    cases same
    rcases searchFrom_ends isFound with impossible | ⟨piece, after, rfl, ends⟩
    · cases impossible
    · exact ⟨piece, after, rfl, by rw [ends, Nat.zero_add]⟩

theorem Searcher.pattern_find? (searcher : Searcher) (text : List Char) :
    searcher.pattern.find? text =
      (searcher.find? text).map fun found => (found.1.offset, found.2.offset) :=
  rfl

namespace Regex

/-- What to search with for a pattern that is well formed and small enough. -/
def searcher? (pattern : List Char) : Option Searcher := do
  let regex ← read? pattern
  if regex.isWithinLimit then some (.ofRegex regex) else none

def engine : RegexEngine where
  read? pattern := (searcher? pattern).map Searcher.pattern

theorem anchoredPattern?_eq {pattern : String} {searcher : Searcher}
    (read : searcher? (anchored pattern.toList) = some searcher) :
    anchoredPattern? engine pattern = some searcher.pattern :=
  congrArg (Option.map Searcher.pattern) read

theorem compile_pattern {pattern : String} {searcher : Searcher}
    (read : searcher? (anchored pattern.toList) = some searcher) :
    Scanner.compile engine (.pattern pattern) = .ok (.patterns [searcher.pattern]) := by
  simp only [Matcher.pattern, Scanner.compile, readPatterns, anchoredPattern?_eq read]
  rfl

end Regex

end Packrat
