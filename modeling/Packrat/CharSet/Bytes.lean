import Packrat.CharSet

/-!
Sets of characters as sets of encoded characters. The UTF-8 forms of the characters of a set are
described by sequences of byte ranges: a character belongs to the set if its bytes lie one by one
in the ranges of one of the sequences.
-/

set_option autoImplicit false

namespace Packrat

abbrev ByteRange : Type := UInt8 × UInt8

namespace CharSet

/-- Pieces of a range of code points in which the last bytes of the encoded characters vary freely.
The unit is the number of code points that agree in all but these bytes, and there are at most
`levels` such bytes further to the front. -/
def pieces : (levels unit low high : Nat) → List (Nat × Nat)
  | 0, _, low, high => [(low, high)]
  | levels + 1, unit, low, high =>
    let start := (low + unit - 1) / unit * unit
    let stop := (high + 1) / unit * unit
    if low / unit = high / unit then [(low, high)]
    else
      (if low < start then [(low, start - 1)] else []) ++
      (if start < stop then pieces levels (unit * 64) start (stop - 1) else []) ++
      (if stop ≤ high then [(stop, high)] else [])

/-- The parts of a range whose characters take the same number of bytes, with this number. Code
points that are no characters are left out. -/
def byLength (range : Nat × Nat) : List (Nat × Nat × Nat) :=
  [(1, 0, 0x7f), (2, 0x80, 0x7ff), (3, 0x800, 0xd7ff), (3, 0xe000, 0xffff),
    (4, 0x10000, maxCode)].flatMap fun (length, low, high) =>
      (overlap range (low, high)).map fun (low, high) => (length, low, high)

def byteRanges (set : CharSet) : List (List ByteRange) :=
  let encode (code : Nat) : List UInt8 := String.utf8EncodeChar (Char.ofNat code)
  (set.ranges.flatMap byLength).flatMap fun (length, low, high) =>
    (pieces (length - 1) 64 low high).map fun (low, high) => (encode low).zip (encode high)

end CharSet

end Packrat
