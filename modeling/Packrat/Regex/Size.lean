import Packrat.Automaton.OfSet
import Packrat.Automaton.OfWords
import Packrat.Regex.Basic
import Packrat.Text.Bytes

/-!
The size of a pattern. A pattern is too large if the automaton that recognises it byte by byte,
read from the front or from the back, takes too much room. A repetition with bounds takes the room
of its body once for each pass. `Regex.isWithinLimit` decides.
-/

set_option autoImplicit false

namespace Packrat.Regex

open Automaton (Growth grow times)

/-! ### Alternatives -/

def literalBytes? : Regex → Option (List UInt8)
  | .literal chars => some (chars.flatMap String.utf8EncodeChar)
  | _ => none

def words? (backward : Bool) (regex : Regex) : Option (List (List UInt8)) := do
  let words ← regex.branches.mapM literalBytes?
  return if backward then words.map List.reverse else words

/-- Joins a branch to the branches of the same alternative that come before it. The second branch
makes it necessary to have a fork and a common end. -/
def joinBranch : (earlier : Nat) → Growth
  | 0 => some
  | 1 => grow 2 8
  | _ + 2 => grow 0 4

/-! ### Patterns -/

/-- The automaton of a pattern that may be a branch of an alternative, of which some branches come
earlier. Groups are states only when read from the front. -/
def layOut (backward : Bool) : Regex → (earlier : Nat) → Growth
  | .empty, earlier => grow 1 0 >=> joinBranch earlier
  | .literal chars, earlier => grow (Text.byteLength chars) 0 >=> joinBranch earlier
  | .one set, earlier => Automaton.ofSet backward set >=> joinBranch earlier
  | .assertion _, earlier => grow 1 0 >=> joinBranch earlier
  | .capture _ body, earlier =>
    let border := if backward then 0 else 1
    grow border 0 >=> layOut backward body 0 >=> grow border 0 >=> joinBranch earlier
  | .seq first rest, earlier =>
    (if backward then layOut backward rest 0 >=> layOut backward first 0
      else layOut backward first 0 >=> layOut backward rest 0) >=> joinBranch earlier
  | .alt first rest, earlier =>
    match earlier, words? backward (.alt first rest) with
    | 0, some words => Automaton.ofWords words
    | _, _ =>
      layOut backward first 0 >=> joinBranch earlier >=> layOut backward rest (earlier + 1)
  | .rep body min max _, earlier =>
    let pass := layOut backward body 0
    let all : Growth := match max, min with
      | none, 0 => if body.consumes then grow 1 8 >=> pass else pass >=> grow 3 16
      | none, min + 1 => times (min + 1) pass >=> grow 1 8
      | some 1, 0 => grow 1 8 >=> pass >=> grow 1 0
      | some max, min =>
        if min = max then times min pass
        else (if min = 0 then grow 1 0 else times min pass) >=> grow 1 0 >=>
          times (max - min) (grow 1 8 >=> pass)
    all >=> joinBranch earlier

/-- The automaton of a pattern with what belongs to every automaton: a state for the start, or a
loop that skips text if matches can start anywhere, a state for the end, and read from the front a
group around it all. -/
def automaton (backward : Bool) (regex : Regex) : Growth :=
  let border := if backward then 0 else 1
  (if regex.isTied backward then grow 1 0 else grow 3 16) >=>
    grow border 0 >=> regex.layOut backward 0 >=> grow (border + 1) 0

/-! ### The limit -/

/-- Bytes that suffice for a pattern in both directions. They are counted part by part, as if
nothing were shared: a range of characters is encoded by 65 byte ranges at most, each of which
takes a state with a transition, and a byte of a literal takes a state, a fork and its branches. -/
def ampleBytes : Regex → Nat
  | .empty | .assertion _ => 32
  | .literal chars => 80 * Text.byteLength chars
  | .one set => 64 + 65 * 40 * set.ranges.length
  | .capture _ body => body.ampleBytes + 64
  | .seq first rest => first.ampleBytes + rest.ampleBytes
  | .alt first rest => first.ampleBytes + rest.ampleBytes + 72
  | .rep body min none _ => (min + 1) * body.ampleBytes + 112
  | .rep body _ (some max) _ => max * (body.ampleBytes + 40) + 64

/-- Whether a pattern is small enough, in both directions. Only a pattern that may be too large has
to be laid out. -/
def isWithinLimit (regex : Regex) : Bool :=
  regex.ampleBytes + 256 ≤ Automaton.maxBytes ||
    ((regex.automaton false {}).isSome && (regex.automaton true {}).isSome)

end Packrat.Regex
