/-!
Texts are lists of characters, and places in them are counted in bytes of the UTF-8 form. This
module measures a text, and cuts it at byte offsets: a cut is refused where the offset lies past
the end or inside a character. `dropBytes?_eq_some_iff` and `slice?_eq_some_iff` say exactly which
cuts succeed, in terms of the texts on both sides of them.
-/

set_option autoImplicit false

namespace Packrat.Text

def byteLength : List Char → Nat
  | [] => 0
  | c :: rest => c.utf8Size + byteLength rest

def dropBytes? : List Char → Nat → Option (List Char)
  | text, 0 => some text
  | [], _ + 1 => none
  | c :: rest, n + 1 => if c.utf8Size ≤ n + 1 then dropBytes? rest (n + 1 - c.utf8Size) else none

def takeBytes? : List Char → Nat → Option (List Char)
  | _, 0 => some []
  | [], _ + 1 => none
  | c :: rest, n + 1 =>
    if c.utf8Size ≤ n + 1 then (takeBytes? rest (n + 1 - c.utf8Size)).map (c :: ·) else none

def slice? (text : List Char) (start stop : Nat) : Option (List Char) :=
  if start ≤ stop then (dropBytes? text start).bind (takeBytes? · (stop - start)) else none

/-! ### Laws of measuring and cutting -/

@[simp] theorem byteLength_nil : byteLength [] = 0 := rfl

@[simp] theorem byteLength_cons (c : Char) (rest : List Char) :
    byteLength (c :: rest) = c.utf8Size + byteLength rest := rfl

@[simp] theorem byteLength_append (before after : List Char) :
    byteLength (before ++ after) = byteLength before + byteLength after := by
  induction before with
  | nil => simp
  | cons c rest ih => simp [ih, Nat.add_assoc]

theorem byteLength_eq_zero_iff (text : List Char) : byteLength text = 0 ↔ text = [] := by
  cases text with
  | nil => simp
  | cons c rest =>
      have positive := c.utf8Size_pos
      simp only [byteLength_cons, reduceCtorEq, iff_false]
      omega

@[simp] theorem dropBytes?_zero (text : List Char) : dropBytes? text 0 = some text := by
  cases text <;> rfl

@[simp] theorem takeBytes?_zero (text : List Char) : takeBytes? text 0 = some [] := by
  cases text <;> rfl

/-- Dropping the bytes of a beginning leaves the rest. -/
@[simp] theorem dropBytes?_append (before after : List Char) :
    dropBytes? (before ++ after) (byteLength before) = some after := by
  induction before with
  | nil => simp
  | cons c rest ih =>
      obtain ⟨n, hn⟩ : ∃ n, c.utf8Size + byteLength rest = n + 1 :=
        ⟨c.utf8Size + byteLength rest - 1, by have := c.utf8Size_pos; omega⟩
      simp only [List.cons_append, byteLength_cons, hn, dropBytes?]
      have within : c.utf8Size ≤ n + 1 := by omega
      have same : n + 1 - c.utf8Size = byteLength rest := by omega
      rw [if_pos within, same, ih]

/-- A cut behind a beginning is a cut of what follows it. -/
theorem dropBytes?_behind (before text : List Char) (offset : Nat) :
    dropBytes? (before ++ text) (byteLength before + offset) = dropBytes? text offset := by
  induction before with
  | nil => rw [byteLength_nil, Nat.zero_add, List.nil_append]
  | cons c rest ih =>
      have positive := c.utf8Size_pos
      obtain ⟨n, size⟩ : ∃ n, byteLength (c :: rest) + offset = n + 1 :=
        ⟨byteLength (c :: rest) + offset - 1, by rw [byteLength_cons]; omega⟩
      rw [byteLength_cons] at size
      rw [List.cons_append, byteLength_cons, size, dropBytes?, if_pos (by omega), ← ih]
      congr 1
      omega

/-- Taking the bytes of a beginning gives the beginning. -/
@[simp] theorem takeBytes?_append (before after : List Char) :
    takeBytes? (before ++ after) (byteLength before) = some before := by
  induction before with
  | nil => simp
  | cons c rest ih =>
      obtain ⟨n, hn⟩ : ∃ n, c.utf8Size + byteLength rest = n + 1 :=
        ⟨c.utf8Size + byteLength rest - 1, by have := c.utf8Size_pos; omega⟩
      simp only [List.cons_append, byteLength_cons, hn, takeBytes?]
      have within : c.utf8Size ≤ n + 1 := by omega
      have same : n + 1 - c.utf8Size = byteLength rest := by omega
      rw [if_pos within, same, ih]
      rfl

/-- A text can be cut at an offset exactly if a beginning of it has that many bytes; the cut then
leaves what follows this beginning. -/
theorem dropBytes?_eq_some_iff (text : List Char) (offset : Nat) (after : List Char) :
    dropBytes? text offset = some after ↔
      ∃ before, text = before ++ after ∧ byteLength before = offset := by
  constructor
  · intro found
    induction text generalizing offset with
    | nil =>
        cases offset with
        | zero => exact ⟨[], by simpa using found, rfl⟩
        | succ n => simp [dropBytes?] at found
    | cons c rest ih =>
        cases offset with
        | zero => exact ⟨[], by simpa using found, rfl⟩
        | succ n =>
            simp only [dropBytes?] at found
            split at found
            · next within =>
                obtain ⟨before, rfl, size⟩ := ih _ found
                exact ⟨c :: before, rfl, by simp [size]; omega⟩
            · exact absurd found (by simp)
  · rintro ⟨before, rfl, rfl⟩
    exact dropBytes?_append before after

/-- The bytes before an offset are a beginning of the text that has exactly that many. -/
theorem takeBytes?_eq_some_iff (text : List Char) (offset : Nat) (before : List Char) :
    takeBytes? text offset = some before ↔
      ∃ after, text = before ++ after ∧ byteLength before = offset := by
  constructor
  · intro found
    induction text generalizing offset before with
    | nil =>
        cases offset with
        | zero =>
            simp only [takeBytes?_zero, Option.some.injEq] at found
            exact ⟨[], by simp [← found], by simp [← found]⟩
        | succ n => simp [takeBytes?] at found
    | cons c rest ih =>
        cases offset with
        | zero =>
            simp only [takeBytes?_zero, Option.some.injEq] at found
            exact ⟨c :: rest, by simp [← found], by simp [← found]⟩
        | succ n =>
            simp only [takeBytes?] at found
            split at found
            · next within =>
                obtain ⟨inner, taken, rfl⟩ := Option.map_eq_some_iff.1 found
                obtain ⟨after, rfl, size⟩ := ih _ _ taken
                exact ⟨after, rfl, by simp [size]; omega⟩
            · exact absurd found (by simp)
  · rintro ⟨after, rfl, rfl⟩
    exact takeBytes?_append before after

/-- A slice exists exactly if the text has a cut at both offsets, the first not after the second;
it is what stands between the cuts. -/
theorem slice?_eq_some_iff (text : List Char) (start stop : Nat) (between : List Char) :
    slice? text start stop = some between ↔
      ∃ before after, text = before ++ between ++ after ∧ byteLength before = start ∧
        start + byteLength between = stop := by
  constructor
  · intro found
    simp only [slice?] at found
    split at found
    · next ordered =>
        obtain ⟨rest, dropped, taken⟩ := Option.bind_eq_some_iff.1 found
        obtain ⟨before, rfl, size⟩ := (dropBytes?_eq_some_iff _ _ _).1 dropped
        obtain ⟨after, rfl, inner⟩ := (takeBytes?_eq_some_iff _ _ _).1 taken
        exact ⟨before, after, by simp, size, by omega⟩
    · exact absurd found (by simp)
  · rintro ⟨before, after, rfl, rfl, rfl⟩
    simp only [slice?, List.append_assoc, Nat.le_add_right, if_true, dropBytes?_append,
      Option.bind_some, Nat.add_sub_cancel_left, takeBytes?_append]

end Packrat.Text
