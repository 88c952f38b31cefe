/-!
Sets of characters. A set is kept as its ranges of code points, in ascending order and with gaps
between them, so that equal sets have equal ranges; the tables of character properties have the
same form. `CharSet.mem` decides membership and looks no further than the first range that ends
at or behind the character.
-/

set_option autoImplicit false

namespace Packrat

structure CharSet where
  /-- The first and the last code point of each range. -/
  ranges : List (Nat × Nat)
deriving DecidableEq, Repr

namespace CharSet

/-! ### Membership -/

def holds : List (Nat × Nat) → Nat → Bool
  | [], _ => false
  | (low, high) :: rest, code => low ≤ code && (code ≤ high || holds rest code)

def mem (set : CharSet) (c : Char) : Bool :=
  holds set.ranges c.toNat

def none : CharSet :=
  ⟨[]⟩

def range (low high : Char) : CharSet :=
  ⟨[(low.toNat, high.toNat)]⟩

def one (c : Char) : CharSet :=
  range c c

@[simp] theorem mem_range (low high c : Char) :
    (range low high).mem c = (low ≤ c && c ≤ high) := by
  simp only [range, mem, holds, Bool.or_false]
  rfl

@[simp] theorem mem_one (c d : Char) : (one c).mem d = (d == c) := by
  rw [Bool.eq_iff_iff]
  simp only [one, mem_range, Bool.and_eq_true, decide_eq_true_eq, beq_iff_eq]
  constructor
  · intro both
    exact Char.le_antisymm both.2 both.1
  · rintro rfl
    exact ⟨Char.le_refl d, Char.le_refl d⟩

/-! ### Union -/

/-- Some ranges and one more, which absorbs every range that it touches. -/
def insertRange (low high : Nat) : List (Nat × Nat) → List (Nat × Nat)
  | [] => [(low, high)]
  | (first, last) :: rest =>
    if high + 1 < first then (low, high) :: (first, last) :: rest
    else if last + 1 < low then (first, last) :: insertRange low high rest
    else insertRange (min first low) (max last high) rest

def union (first second : CharSet) : CharSet :=
  ⟨second.ranges.foldl (fun ranges range => insertRange range.1 range.2 ranges) first.ranges⟩

/-! ### Complement and the rest -/

def maxCode : Nat := 0x10ffff

/-- The code point of the next character; those between 0xd7ff and 0xe000 belong to none. -/
def codeAfter (code : Nat) : Nat :=
  if code = 0xd7ff then 0xe000 else code + 1

def codeBefore (code : Nat) : Nat :=
  if code = 0xe000 then 0xd7ff else code - 1

def gaps (start : Nat) : List (Nat × Nat) → List (Nat × Nat)
  | [] => if start ≤ maxCode then [(start, maxCode)] else []
  | (low, high) :: rest =>
    if start < low then (start, codeBefore low) :: gaps (codeAfter high) rest
    else gaps (codeAfter high) rest

def complement (set : CharSet) : CharSet :=
  ⟨gaps 0 set.ranges⟩

def overlap (first second : Nat × Nat) : List (Nat × Nat) :=
  let low := max first.1 second.1
  let high := min first.2 second.2
  if low ≤ high then [(low, high)] else []

def inter (first second : CharSet) : CharSet :=
  ⟨first.ranges.flatMap fun range => second.ranges.flatMap (overlap range)⟩

def diff (first second : CharSet) : CharSet :=
  first.inter second.complement

def symmDiff (first second : CharSet) : CharSet :=
  (first.union second).diff (first.inter second)

end CharSet

end Packrat
