import Std.Data.TreeMap.Lemmas

/-!
Tables of bounded size. A table has a fixed number of slots, and every key, which is a row of
numbers, belongs to one of them by its hash. A slot holds one entry, and a new entry takes the
place of the one before. So a table may forget, but what it finds under a key is what was stored
under this key last; `find?_insert` says so.
-/

set_option autoImplicit false

namespace Packrat

/-- A table of bounded size. -/
structure SlotTable where
  slots : Nat
  entries : Std.TreeMap Nat (List Nat × Nat) := {}

namespace SlotTable

def hash (key : List Nat) : UInt64 :=
  key.foldl (fun hash number => (hash ^^^ UInt64.ofNat number) * 1099511628211)
    14695981039346656037

def slotOf (table : SlotTable) (key : List Nat) : Nat :=
  (hash key).toNat % table.slots

/-- What was stored under a key last, unless its slot has been taken since. -/
def find? (table : SlotTable) (key : List Nat) : Option Nat :=
  match table.entries[table.slotOf key]? with
  | some (other, value) => if other = key then some value else none
  | none => none

def insert (table : SlotTable) (key : List Nat) (value : Nat) : SlotTable :=
  { table with entries := table.entries.insert (table.slotOf key) (key, value) }

theorem slotOf_insert (table : SlotTable) (key other : List Nat) (value : Nat) :
    (table.insert key value).slotOf other = table.slotOf other := rfl

/-- After a value has been stored it is found under its key, nothing is found under the other keys
of its slot, and all else stays. -/
theorem find?_insert (table : SlotTable) (key other : List Nat) (value : Nat) :
    (table.insert key value).find? other =
      if table.slotOf key = table.slotOf other then
        if key = other then some value else none
      else table.find? other := by
  rw [find?, slotOf_insert, insert, Std.TreeMap.getElem?_insert]
  by_cases same : table.slotOf key = table.slotOf other
  · simp [same]
  · simp [same, find?]

end SlotTable

end Packrat
