import Packrat.Regex.Program
import Packrat.Text.Bytes
import Packrat.Text.Word

/-!
Searching a text with a program. The search passes over the text once and keeps a list of threads,
each with the address of a step that waits for a character, most preferred first. At each place
`reach` follows all steps that consume nothing and comes to each address once at most: of the ways
to an address the most preferred one counts, and a repetition cannot go round without consuming.
The match that ends at the current place, if there is one, discards the threads after it; those
before it may still lead to a match that is preferred to it.

A thread is started at every place until there is a match, so the leftmost match is found; if the
pattern can only match at the start of the text, a thread is started only there.
-/

set_option autoImplicit false

namespace Packrat

/-- A place in the searched text: its byte offset, the character before it and the text after. -/
structure Spot where
  offset : Nat
  before : Option Char
  after : List Char
deriving DecidableEq, Repr

namespace Spot

def first (text : List Char) : Spot := ⟨0, none, text⟩

def isWordAt (neighbour : Option Char) : Bool :=
  neighbour.any Text.isWord

def meets (spot : Spot) : Assertion → Bool
  | .textStart => spot.before.isNone
  | .textEnd => spot.after.isEmpty
  | .lineStart => spot.before.all (· == '\n')
  | .lineEnd => spot.after.head?.all (· == '\n')
  | .wordBoundary => isWordAt spot.before != isWordAt spot.after.head?
  | .insideOrOutside => isWordAt spot.before == isWordAt spot.after.head?
  | .wordStart => !isWordAt spot.before && isWordAt spot.after.head?
  | .wordEnd => isWordAt spot.before && !isWordAt spot.after.head?

end Spot

/-- A way through a program that has come to a step, and the place where it started. -/
structure Thread where
  address : Nat
  start : Spot
deriving DecidableEq, Repr

namespace Thread

def goTo (thread : Thread) (address : Nat) : Thread :=
  ⟨address, thread.start⟩

/-- Where a thread goes on without consuming anything, in order of preference, or nothing if it
waits at its step. -/
def onward? (spot : Spot) (thread : Thread) : Step → Option (List Thread)
  | .one _ | .accept => none
  | .check condition =>
    some (if spot.meets condition then [thread.goTo (thread.address + 1)] else [])
  | .fork preferred other => some [thread.goTo preferred, thread.goTo other]
  | .jump address => some [thread.goTo address]

def hasAccepted (steps : Array Step) (thread : Thread) : Bool :=
  steps[thread.address]? == some .accept

def consume? (steps : Array Step) (c : Char) (thread : Thread) : Option Thread :=
  match steps[thread.address]? with
  | some (.one set) => if set.mem c then some (thread.goTo (thread.address + 1)) else none
  | _ => none

end Thread

/-! ### Reaching -/

/-- Follows threads to where they wait. An address that has been come to before is not gone to
again. The budget bounds the number of threads that are looked at. -/
def followAll (steps : Array Step) (spot : Spot) :
    (budget : Nat) → (visited : Array Bool) → (pending waiting : List Thread) → List Thread
  | 0, _, _, waiting => waiting.reverse
  | _ + 1, _, [], waiting => waiting.reverse
  | budget + 1, visited, thread :: pending, waiting =>
    if visited[thread.address]? = some false then
      let visited := visited.setIfInBounds thread.address true
      match steps[thread.address]? with
      | none => followAll steps spot budget visited pending waiting
      | some step =>
        match thread.onward? spot step with
        | none => followAll steps spot budget visited pending (thread :: waiting)
        | some onward => followAll steps spot budget visited (onward ++ pending) waiting
    else followAll steps spot budget visited pending waiting

/-- The threads that wait at a place, most preferred first, if some threads come to it. Each of
them is looked at once, and so are at most two more for every address. -/
def reach (steps : Array Step) (spot : Spot) (threads : List Thread) : List Thread :=
  followAll steps spot (threads.length + 2 * steps.size + 1) (Array.replicate steps.size false)
    threads []

/-! ### Passing over the text -/

abbrev Found : Type := Spot × Spot

def startsIn (anchored : Bool) (best : Option Found) (spot : Spot) (threads : List Thread) :
    List Thread :=
  if best.isSome || (anchored && spot.before.isSome) then threads
  else threads ++ [⟨0, spot⟩]

/-- The best match once the threads that wait at a place are known: one that ends there is
preferred to an earlier one. -/
def better (steps : Array Step) (spot : Spot) (waiting : List Thread) (best : Option Found) :
    Option Found :=
  match waiting.find? (Thread.hasAccepted steps) with
  | some thread => some (thread.start, spot)
  | none => best

/-- Passes over the rest of a text, with the best match so far and the threads that come to its
beginning. -/
def searchFrom (steps : Array Step) (anchored : Bool) :
    (best : Option Found) → (threads : List Thread) → (offset : Nat) → (before : Option Char) →
      List Char → Option Found
  | best, threads, offset, before, [] =>
    let spot : Spot := ⟨offset, before, []⟩
    better steps spot (reach steps spot (startsIn anchored best spot threads)) best
  | best, threads, offset, before, c :: rest =>
    let spot : Spot := ⟨offset, before, c :: rest⟩
    let waiting := reach steps spot (startsIn anchored best spot threads)
    let best := better steps spot waiting best
    let threads := (waiting.takeWhile (!Thread.hasAccepted steps ·)).filterMap
      (Thread.consume? steps c)
    if threads.isEmpty && (anchored || best.isSome) then best
    else searchFrom steps anchored best threads (offset + c.utf8Size) (some c) rest

/-- A program with what is known of its matches. -/
structure Searcher where
  steps : Array Step
  /-- Whether matches can only start at the start of the text. -/
  anchored : Bool
deriving DecidableEq, Repr

namespace Searcher

def ofRegex (regex : Regex) : Searcher :=
  ⟨regex.program, regex.isTied false⟩

/-- The first match in a text: the most preferred among those that start leftmost. -/
def find? (searcher : Searcher) (text : List Char) : Option Found :=
  searchFrom searcher.steps searcher.anchored none [] 0 none text

end Searcher

end Packrat
