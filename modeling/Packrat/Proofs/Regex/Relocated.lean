import Packrat.Regex.Program

/-!
Programs behind other steps. The steps of a sequence are those of its parts one after the other
(`emit_sequence`), and behind other steps a pattern has the steps that it has alone, with other
addresses (`emit_behind`).
-/

set_option autoImplicit false

namespace Packrat

/-! ### Programs of sequences -/

namespace Regex

def emitAll (regexes : List Regex) (steps : Array Step) : Array Step :=
  regexes.foldl (fun steps regex => regex.emit steps) steps

theorem emitAll_append (first rest : List Regex) (steps : Array Step) :
    emitAll (first ++ rest) steps = emitAll rest (emitAll first steps) :=
  List.foldl_append

theorem emitAll_parts (regex : Regex) (steps : Array Step) :
    emitAll regex.parts steps = regex.emit steps := by
  induction regex generalizing steps with
  | seq first rest _ ih => exact ih _
  | _ => rfl

theorem emitAll_joinFront (regex : Regex) (rest : List Regex) (steps : Array Step) :
    emitAll (joinFront regex rest) steps = emitAll rest (regex.emit steps) := by
  unfold joinFront
  split
  · simp only [emitAll, List.foldl_cons, emit, List.foldl_append]
  · rfl

theorem emit_ofParts (regexes : List Regex) (steps : Array Step) :
    (ofParts regexes).emit steps = emitAll regexes steps := by
  induction regexes generalizing steps with
  | nil => rfl
  | cons regex rest ih =>
      cases rest with
      | nil => rfl
      | cons second others => exact ih _

theorem emit_sequence (regexes : List Regex) (steps : Array Step) :
    (sequence regexes).emit steps = emitAll regexes steps := by
  have joined (parts : List Regex) (steps : Array Step) :
      emitAll (parts.foldr joinFront []) steps = emitAll parts steps := by
    induction parts generalizing steps with
    | nil => rfl
    | cons part rest ih =>
        rw [List.foldr_cons, emitAll_joinFront, ih]
        rfl
  rw [sequence, emit_ofParts, joined]
  induction regexes generalizing steps with
  | nil => rfl
  | cons regex rest ih =>
      rw [List.flatMap_cons, emitAll_append, emitAll_parts, ih]
      rfl

end Regex

/-! ### Programs behind other steps -/

def Step.shift (count : Nat) : Step → Step
  | .fork preferred other => .fork (count + preferred) (count + other)
  | .jump address => .jump (count + address)
  | step => step

theorem Step.shift_choose (count : Nat) (greedy : Bool) (pass stop : Nat) :
    (Step.choose greedy pass stop).shift count = .choose greedy (count + pass) (count + stop) := by
  cases greedy <;> rfl

def Step.behind (front steps : Array Step) : Array Step :=
  front ++ steps.map (.shift front.size)

section Behind

variable {front : Array Step}

theorem getElem?_behind {steps : Array Step} (address : Nat) :
    (Step.behind front steps)[front.size + address]? = steps[address]?.map (.shift front.size) := by
  rw [Step.behind, Array.getElem?_append_right (Nat.le_add_right _ _), Nat.add_sub_cancel_left,
    Array.getElem?_map]

theorem size_behind (steps : Array Step) :
    (Step.behind front steps).size = front.size + steps.size := by
  rw [Step.behind, Array.size_append, Array.size_map]

theorem behind_push (steps : Array Step) (step : Step) :
    Step.behind front (steps.push step) =
      (Step.behind front steps).push (step.shift front.size) := by
  rw [Step.behind, Step.behind, Array.map_push, Array.append_push]

theorem behind_repeat {grow growBehind : Array Step → Array Step}
    (grows : ∀ steps, growBehind (Step.behind front steps) = Step.behind front (grow steps))
    (count : Nat) (steps : Array Step) :
    count.repeat growBehind (Step.behind front steps) =
      Step.behind front (count.repeat grow steps) := by
  induction count with
  | zero => rfl
  | succ count ih => rw [Nat.repeat, Nat.repeat, ih, grows]

end Behind

namespace Regex

/-- Behind other steps, a pattern has the same steps. -/
theorem emit_behind (regex : Regex) (front steps : Array Step) :
    regex.emit (Step.behind front steps) = Step.behind front (regex.emit steps) := by
  induction regex generalizing steps with
  | empty => rfl
  | literal chars =>
      induction chars generalizing steps with
      | nil => rfl
      | cons c rest ih =>
          change (Regex.literal rest).emit ((Step.behind front steps).push (.one (.one c))) = _
          exact (congrArg _ (behind_push steps (.one (.one c))).symm).trans (ih _)
  | one set => exact (behind_push steps (.one set)).symm
  | assertion condition => exact (behind_push steps (.check condition)).symm
  | capture index body ih => exact ih steps
  | seq first rest ihFirst ihRest => rw [emit, emit, ihFirst, ihRest]
  | alt first rest ihFirst ihRest =>
      simp only [emit]
      rw [← ihRest, behind_push, ← ihFirst, behind_push, size_behind]
      simp only [Step.shift, Nat.add_assoc]
  | rep body min max greedy ih =>
      cases max with
      | none =>
          cases min with
          | zero =>
              simp only [emit]
              rw [behind_push, ← ih, behind_push, size_behind, Step.shift_choose]
              split
              · simp only [Step.shift, Nat.add_assoc]
              · simp only [Step.shift_choose, Nat.add_assoc]
          | succ min =>
              simp only [emit]
              rw [behind_repeat ih, behind_push, ← ih, size_behind, Step.shift_choose]
              simp only [Nat.add_assoc]
      | some max =>
          simp only [emit]
          rw [behind_repeat ih, size_behind]
          refine behind_repeat (fun steps => ?_) _ _
          rw [← ih, behind_push, size_behind, Step.shift_choose]
          simp only [Nat.add_assoc]

/-- A pattern that is tied to the start of the text has the steps of the pattern behind a check. -/
theorem program_sequence {body regex : Regex} (same : ∀ steps, body.emit steps = regex.emit steps) :
    (sequence [.assertion .textStart, body]).program =
      Step.behind #[.check .textStart] regex.program := by
  have emitted : (sequence [.assertion .textStart, body]).emit #[] =
      Step.behind #[.check .textStart] (regex.emit #[]) := by
    have begun : Step.behind #[.check .textStart] #[] = #[.check .textStart] := by
      rw [Step.behind, Array.map_empty, Array.append_empty]
    rw [emit_sequence, ← emit_behind, begun]
    exact same #[.check .textStart]
  rw [program, program, emitted, behind_push]
  rfl

end Regex

end Packrat
