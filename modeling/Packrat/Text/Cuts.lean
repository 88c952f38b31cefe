import Packrat.Text.Bytes

/-!
All cuts of a text at once. `Text.cuts` holds what follows each byte offset of a text, so that a
place far inside the text is reached without passing over what comes before it.
`cuts_getElem?_join` says that this is what `Text.dropBytes?` finds. `HasCut` says that some
beginning of a text has a number of bytes.
-/

set_option autoImplicit false

namespace Packrat.Text

/-- A row of cuts followed by a cut at a character; offsets inside the character have no cut. -/
def pushCut (found : Array (Option (List Char))) (c : Char) (rest : List Char) :
    Array (Option (List Char)) :=
  (c.utf8Size - 1).repeat (·.push none) (found.push (some (c :: rest)))

def pushCuts : List Char → Array (Option (List Char)) → Array (Option (List Char))
  | [], found => found.push (some [])
  | c :: rest, found => pushCuts rest (pushCut found c rest)

def cuts (text : List Char) : Array (Option (List Char)) :=
  pushCuts text #[]

/-! ### Laws of the row of cuts -/

private theorem size_pushNone (count : Nat) (found : Array (Option (List Char))) :
    (count.repeat (·.push none) found).size = found.size + count := by
  induction count with
  | zero => rfl
  | succ count ih => rw [Nat.repeat, Array.size_push, ih, Nat.add_assoc]

private theorem getElem?_pushNone (count : Nat) (found : Array (Option (List Char)))
    (offset : Nat) :
    (count.repeat (·.push none) found)[offset]?.join = found[offset]?.join := by
  induction count with
  | zero => rfl
  | succ count ih =>
      rw [Nat.repeat, Array.getElem?_push, size_pushNone]
      split
      · next at_end =>
          rw [Array.getElem?_eq_none (by omega)]
          rfl
      · exact ih

private theorem size_pushCut (found : Array (Option (List Char))) (c : Char) (rest : List Char) :
    (pushCut found c rest).size = found.size + c.utf8Size := by
  have positive := c.utf8Size_pos
  rw [pushCut, size_pushNone, Array.size_push]
  omega

private theorem getElem?_pushCuts_of_lt (text : List Char) (found : Array (Option (List Char)))
    (offset : Nat) (before : offset < found.size) :
    (pushCuts text found)[offset]?.join = found[offset]?.join := by
  induction text generalizing found with
  | nil => rw [pushCuts, Array.getElem?_push_lt before, Array.getElem?_eq_getElem before]
  | cons c rest ih =>
      rw [pushCuts, ih _ (by rw [size_pushCut]; omega), pushCut, getElem?_pushNone,
        Array.getElem?_push_lt before, Array.getElem?_eq_getElem before]

private theorem getElem?_pushCuts (text : List Char) (found : Array (Option (List Char)))
    (offset : Nat) :
    (pushCuts text found)[found.size + offset]?.join = dropBytes? text offset := by
  induction text generalizing found offset with
  | nil =>
      rw [pushCuts, Array.getElem?_push]
      cases offset with
      | zero => simp
      | succ n => rw [if_neg (by omega), Array.getElem?_eq_none (by omega)]; rfl
  | cons c rest ih =>
      have positive := c.utf8Size_pos
      rw [pushCuts]
      by_cases inside : offset < c.utf8Size
      · rw [getElem?_pushCuts_of_lt _ _ _ (by rw [size_pushCut]; omega), pushCut,
          getElem?_pushNone, Array.getElem?_push]
        cases offset with
        | zero => simp
        | succ n =>
            rw [if_neg (by omega), Array.getElem?_eq_none (by omega), dropBytes?,
              if_neg (by omega)]
            rfl
      · obtain ⟨n, rfl⟩ : ∃ n, offset = n + 1 := ⟨offset - 1, by omega⟩
        have onward := ih (pushCut found c rest) (n + 1 - c.utf8Size)
        rw [size_pushCut] at onward
        rw [dropBytes?, if_pos (by omega), ← onward]
        congr 2
        omega

/-- The row of cuts holds what dropping the bytes before an offset leaves. -/
theorem cuts_getElem?_join (text : List Char) (offset : Nat) :
    (cuts text)[offset]?.join = dropBytes? text offset := by
  simpa [cuts] using getElem?_pushCuts text #[] offset

/-! ### Beginnings of a text -/

/-- Some beginning of a text has that many bytes. -/
def HasCut (text : List Char) (length : Nat) : Prop :=
  ∃ piece after, text = piece ++ after ∧ byteLength piece = length

theorem HasCut.zero (text : List Char) : HasCut text 0 :=
  ⟨[], text, rfl, rfl⟩

theorem HasCut.of_beginning {word text : List Char} (begins : word <+: text) :
    HasCut text (byteLength word) := by
  obtain ⟨after, rfl⟩ := begins
  exact ⟨word, after, rfl, rfl⟩

theorem HasCut.behind {text rest : List Char} {first length : Nat}
    (dropped : dropBytes? text first = some rest) (cut : HasCut rest length) :
    HasCut text (first + length) := by
  obtain ⟨before, rfl, size⟩ := (dropBytes?_eq_some_iff _ _ _).1 dropped
  obtain ⟨piece, after, rfl, sizePiece⟩ := cut
  refine ⟨before ++ piece, after, by rw [List.append_assoc], ?_⟩
  rw [byteLength_append, size, sizePiece]

end Packrat.Text
