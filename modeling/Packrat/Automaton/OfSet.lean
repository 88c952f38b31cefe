import Packrat.Automaton.Extent
import Packrat.CharSet.Bytes
import Packrat.SlotTable

/-!
Automata for one character of a set. If all characters are ASCII, a single state has a transition
for each range. Otherwise the automaton follows the sequences of byte ranges that encode the
characters, and states are shared where the table of states still knows them.

Read from the front, states with the same transitions are shared, so that sequences share their
ends and, because they come in order, their beginnings. Read from the back, each sequence is a
branch of its own, and sequences share only the states of their first bytes, which come last.
-/

set_option autoImplicit false

namespace Packrat.Automaton

structure Shared where
  table : SlotTable
  extent : Extent

/-- Makes a state unless the table knows one with this key, and gives its number. -/
def Shared.state (shared : Shared) (key : List Nat) (extra : Nat) : Option (Nat × Shared) :=
  match shared.table.find? key with
  | some state => some (state, shared)
  | none => do
    let state := shared.extent.states
    let extent ← grow 1 extra shared.extent
    return (state, ⟨shared.table.insert key state, extent⟩)

/-! ### From the front -/

abbrev Transitions : Type := List Nat

/-- Makes the states that read some sequences, which are so many ranges long at most, and gives the
number of the first. Sequences that have been read to their ends lead to `target`. -/
def readAll (target : Nat) :
    (length : Nat) → List (List ByteRange) → Shared → Option (Nat × Shared)
  | 0, _, shared => some (target, shared)
  | length + 1, sequences, shared =>
    if sequences.all List.isEmpty then some (target, shared)
    else do
      let groups := sequences.splitBy fun first second => first.head? == second.head?
      let (transitions, shared) ← groups.foldlM
        (fun (transitions, shared) group => do
          let (next, shared) ← readAll target length (group.map List.tail) shared
          match group.head?.bind List.head? with
          | some (low, high) => return (transitions ++ [low.toNat, high.toNat, next], shared)
          | none => return (transitions, shared))
        (([] : Transitions), shared)
      shared.state transitions (8 * groups.length)

def setForward (set : CharSet) : Growth := fun extent => do
  let target := extent.states
  let extent ← grow 1 0 extent
  return (← readAll target 4 set.byteRanges ⟨⟨10000, {}⟩, extent⟩).2.extent

/-! ### From the back -/

def readBack (next : Nat) : List ByteRange → Shared → Option Shared
  | [], shared => some shared
  | (low, high) :: rest, shared => do
    let (state, shared) ← shared.state [next, low.toNat, high.toNat] 0
    readBack state rest shared

def setBackward (set : CharSet) : Growth := fun extent => do
  let last := extent.states + 1
  let extent ← grow 2 0 extent
  let shared ← set.byteRanges.foldlM
    (fun shared sequence => do
      let shared ← readBack last sequence shared
      return { shared with extent := ← grow 0 4 shared.extent })
    (⟨⟨1000, {}⟩, extent⟩ : Shared)
  return shared.extent

def ofSet (backward : Bool) (set : CharSet) : Growth :=
  if set.ranges.all fun range => range.2 < 128 then grow 2 (8 * set.ranges.length)
  else if backward then setBackward set
  else setForward set

end Packrat.Automaton
