/-!
How large an automaton is. Automata here read a text byte by byte and are not built; it is only
reckoned, in the order in which their states would be made, how much room they take. A state takes
32 bytes, each transition of a state with several of them 8 and each branch of a fork 4. Growing
fails as soon as an automaton takes more than ten mebibytes.
-/

set_option autoImplicit false

namespace Packrat.Automaton

/-- The extent of an automaton: the number of its states, and the bytes beside them. The next state
is numbered with the number of states so far. -/
structure Extent where
  states : Nat := 0
  extra : Nat := 0
deriving DecidableEq, Repr

def Extent.bytes (extent : Extent) : Nat :=
  32 * extent.states + extent.extra

def Extent.add (first second : Extent) : Extent :=
  ⟨first.states + second.states, first.extra + second.extra⟩

def maxBytes : Nat := 10 * 1024 * 1024

/-- A part of an automaton, as what it makes of the extent so far; nothing if it becomes too
large. -/
abbrev Growth : Type := Extent → Option Extent

def grow (states extra : Nat) : Growth := fun extent =>
  let grown := extent.add ⟨states, extra⟩
  if grown.bytes ≤ maxBytes then some grown else none

def times : Nat → Growth → Growth
  | 0, _, extent => some extent
  | count + 1, part, extent =>
    match part extent with
    | none => none
    | some extent => times count part extent

end Packrat.Automaton
