import Mathlib.Data.List.Basic
import Mathlib.Data.List.TakeWhile
import Packrat.Proofs.Chart.Cells

/-!
Texts up to what their blank runs consist of. `Text.gapped` keeps the other characters of a text,
and one gap for each run of blank characters. Two texts with the same gapped form have the same
words and the same gaps between them.

A place that is not inside a blank run cuts the gapped form in two (`Text.Stands.gapped`), so such
places are in the same order in the text and in its gapped form (`Text.Stop.lt_iff`).
-/

set_option autoImplicit false

namespace Packrat.Text

/-- The characters of a text, with one gap for each run of blank characters. -/
def gapped (isBlank : Char → Bool) : List Char → List (Option Char)
  | [] => []
  | c :: rest =>
    if isBlank c then
      if rest.head?.any isBlank then gapped isBlank rest else none :: gapped isBlank rest
    else some c :: gapped isBlank rest

def word (isBlank : Char → Bool) (text : List Char) : List Char :=
  text.takeWhile fun c => !isBlank c

def pastWord (isBlank : Char → Bool) (text : List Char) : List Char :=
  text.dropWhile fun c => !isBlank c

/-- Whether no blank run goes on from one text to the next. -/
def Stands (isBlank : Char → Bool) (passed rest : List Char) : Prop :=
  passed.getLast?.any isBlank = true → rest.head?.any isBlank = false

variable {isBlank : Char → Bool} {c : Char} {passed rest text : List Char}

/-! ### The gapped form of a text -/

theorem gapped_solid (solid : isBlank c = false) :
    gapped isBlank (c :: rest) = some c :: gapped isBlank rest := by
  rw [gapped, if_neg (by rw [solid]; exact Bool.false_ne_true)]

theorem gapped_inside (blank : isBlank c = true) (inside : rest.head?.any isBlank = true) :
    gapped isBlank (c :: rest) = gapped isBlank rest := by
  rw [gapped, if_pos blank, if_pos inside]

theorem gapped_last (blank : isBlank c = true) (ends : rest.head?.any isBlank = false) :
    gapped isBlank (c :: rest) = none :: gapped isBlank rest := by
  rw [gapped, if_pos blank, if_neg (by rw [ends]; exact Bool.false_ne_true)]

theorem gapped_of_blank (blank : text.head?.any isBlank = true) :
    ∃ tail, gapped isBlank text = none :: tail := by
  induction text with
  | nil => cases blank
  | cons c rest ih =>
      have isBlank_c : isBlank c = true := blank
      by_cases inside : rest.head?.any isBlank = true
      · rw [gapped_inside isBlank_c inside]
        exact ih inside
      · rw [gapped_last isBlank_c (Bool.eq_false_iff.2 inside)]
        exact ⟨_, rfl⟩

theorem gapped_eq_nil_iff (isBlank : Char → Bool) (text : List Char) :
    gapped isBlank text = [] ↔ text = [] := by
  cases text with
  | nil => simp [gapped]
  | cons c rest =>
      by_cases blank : isBlank c = true
      · have starts : (c :: rest).head?.any isBlank = true := blank
        obtain ⟨tail, isGap⟩ := gapped_of_blank starts
        simp [isGap]
      · simp [gapped_solid (Bool.eq_false_iff.2 blank)]

theorem gapped_append (stands : Stands isBlank passed rest) :
    gapped isBlank (passed ++ rest) = gapped isBlank passed ++ gapped isBlank rest := by
  induction passed with
  | nil => rfl
  | cons c tail ih =>
      have sameEnd : isBlank c = true →
          (tail ++ rest).head?.any isBlank = tail.head?.any isBlank := by
        intro blank
        cases tail with
        | nil => exact stands blank
        | cons d more => rfl
      have onward : Stands isBlank tail rest := by
        intro ends
        cases tail with
        | nil => cases ends
        | cons d more => exact stands ends
      rw [List.cons_append]
      by_cases blank : isBlank c = true
      · by_cases inside : tail.head?.any isBlank = true
        · rw [gapped_inside blank inside, gapped_inside blank ((sameEnd blank).trans inside),
            ih onward]
        · rw [gapped_last blank (Bool.eq_false_iff.2 inside),
            gapped_last blank ((sameEnd blank).trans (Bool.eq_false_iff.2 inside)), ih onward,
            List.cons_append]
      · rw [gapped_solid (Bool.eq_false_iff.2 blank), gapped_solid (Bool.eq_false_iff.2 blank),
          ih onward, List.cons_append]

theorem gapped_dropWhile (text : List Char) :
    gapped isBlank (text.dropWhile isBlank) = (gapped isBlank text).dropWhile Option.isNone := by
  induction text with
  | nil => rfl
  | cons c rest ih =>
      by_cases blank : isBlank c = true
      · rw [List.dropWhile_cons_of_pos blank, ih]
        by_cases inside : rest.head?.any isBlank = true
        · rw [gapped_inside blank inside]
        · rw [gapped_last blank (Bool.eq_false_iff.2 inside), List.dropWhile_cons_of_pos rfl]
      · rw [List.dropWhile_cons_of_neg blank, gapped_solid (Bool.eq_false_iff.2 blank),
          List.dropWhile_cons_of_neg Bool.false_ne_true]

theorem map_word (text : List Char) :
    (word isBlank text).map some = (gapped isBlank text).takeWhile Option.isSome := by
  induction text with
  | nil => rfl
  | cons c rest ih =>
      unfold word at ih ⊢
      by_cases blank : isBlank c = true
      · have starts : (c :: rest).head?.any isBlank = true := blank
        obtain ⟨tail, isGap⟩ := gapped_of_blank starts
        rw [isGap, List.takeWhile_cons_of_neg (by simp [blank]),
          List.takeWhile_cons_of_neg Bool.false_ne_true, List.map_nil]
      · rw [gapped_solid (Bool.eq_false_iff.2 blank), List.takeWhile_cons_of_pos (by simp [blank]),
          List.takeWhile_cons_of_pos rfl, List.map_cons, ih]

theorem gapped_pastWord (text : List Char) :
    gapped isBlank (pastWord isBlank text) =
      (gapped isBlank text).dropWhile Option.isSome := by
  induction text with
  | nil => rfl
  | cons c rest ih =>
      unfold pastWord at ih ⊢
      by_cases blank : isBlank c = true
      · have starts : (c :: rest).head?.any isBlank = true := blank
        obtain ⟨tail, isGap⟩ := gapped_of_blank starts
        rw [List.dropWhile_cons_of_neg (by simp [blank]), isGap,
          List.dropWhile_cons_of_neg Bool.false_ne_true]
      · rw [gapped_solid (Bool.eq_false_iff.2 blank), List.dropWhile_cons_of_pos (by simp [blank]),
          List.dropWhile_cons_of_pos rfl, ih]

section Same

variable {other : List Char} (same : gapped isBlank text = gapped isBlank other)

include same

theorem word_eq : word isBlank text = word isBlank other := by
  apply List.map_injective_iff.2 (fun _ _ => Option.some.inj)
  rw [map_word, map_word, same]

theorem pastWord_eq_nil_iff : pastWord isBlank text = [] ↔ pastWord isBlank other = [] := by
  rw [← gapped_eq_nil_iff isBlank, ← gapped_eq_nil_iff isBlank,
    gapped_pastWord, gapped_pastWord, same]

theorem all_blank_iff : text.all isBlank = true ↔ other.all isBlank = true := by
  rw [List.all_eq_true, List.all_eq_true, ← List.dropWhile_eq_nil_iff,
    ← List.dropWhile_eq_nil_iff, ← gapped_eq_nil_iff isBlank,
    ← gapped_eq_nil_iff isBlank, gapped_dropWhile, gapped_dropWhile, same]

end Same

/-! ### Places that are not inside a blank run -/

theorem Stands.of_append {between : List Char} (stands : Stands isBlank (passed ++ between) rest) :
    Stands isBlank between rest := by
  intro ends
  apply stands
  rw [List.getLast?_append]
  cases last : between.getLast? with
  | none => simp [last] at ends
  | some c =>
      rw [last] at ends
      exact ends

def Stop (isBlank : Char → Bool) (body rest : List Char) : Prop :=
  ∃ passed, body = passed ++ rest ∧ Stands isBlank passed rest

namespace Stop

variable {body other piece : List Char}

theorem begin (isBlank : Char → Bool) (body : List Char) : Stop isBlank body body :=
  ⟨[], rfl, nofun⟩

theorem skip (stop : Stop isBlank body rest) : Stop isBlank body (rest.dropWhile isBlank) := by
  rcases stop with ⟨passed, split, -⟩
  refine ⟨passed ++ rest.takeWhile isBlank, ?_, fun _ => head?_dropWhile rest⟩
  rw [List.append_assoc, List.takeWhile_append_dropWhile]
  exact split

theorem pass (solid : ∀ c ∈ piece, isBlank c = false)
    (stop : Stop isBlank body (piece ++ rest)) : Stop isBlank body rest := by
  rcases stop with ⟨passed, split, stands⟩
  refine ⟨passed ++ piece, by rw [split, List.append_assoc], ?_⟩
  intro ends
  rw [List.getLast?_append] at ends
  cases last : piece.getLast? with
  | none =>
      rw [last] at ends
      rw [List.getLast?_eq_none_iff.1 last] at stands
      exact stands ends
  | some c => simp [last, solid c (List.mem_of_getLast? last)] at ends

/-- Of two places the one further on has less of the gapped form ahead of it. -/
theorem lt_iff (stop : Stop isBlank body rest) (stop' : Stop isBlank body other) :
    byteLength other < byteLength rest ↔
      (gapped isBlank other).length < (gapped isBlank rest).length := by
  rcases stop with ⟨passed, split, stands⟩
  rcases stop' with ⟨passed', split', stands'⟩
  rcases List.append_eq_append_iff.1 (split.symm.trans split') with
    ⟨between, rfl, rfl⟩ | ⟨between, rfl, rfl⟩
  · have nothing : byteLength between = 0 ↔ (gapped isBlank between).length = 0 := by
      rw [byteLength_eq_zero_iff, List.length_eq_zero_iff, gapped_eq_nil_iff]
    rw [gapped_append stands'.of_append, byteLength_append, List.length_append]
    omega
  · rw [gapped_append stands.of_append, byteLength_append, List.length_append]
    omega

end Stop

theorem gapped_behind {piece other : List Char} (solid : ∀ c ∈ piece, isBlank c = false)
    (same : gapped isBlank (piece ++ rest) = gapped isBlank (piece ++ other)) :
    gapped isBlank rest = gapped isBlank other := by
  have stands (behind : List Char) : Stands isBlank piece behind := by
    intro ends
    cases last : piece.getLast? with
    | none => simp [last] at ends
    | some c => simp [last, solid c (List.mem_of_getLast? last)] at ends
  rw [gapped_append (stands rest), gapped_append (stands other)] at same
  exact List.append_cancel_left same

end Packrat.Text
