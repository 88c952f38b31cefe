import Packrat.Regex.Basic

/-!
Programs that carry out patterns. A program is a row of steps, and each step has an address. A
step consumes a character, checks a condition, or says where to go on; a fork goes on at two
addresses and prefers the first. The steps of a pattern stand in one piece: they begin at its
first step, and what comes after the pattern begins right behind its last one.

A repetition without bounds leads back to the beginning of its body. If the body always consumes
something, then the same fork decides at the beginning and after every pass. Otherwise a fork of
its own decides after a pass, so that a pass that consumes nothing still reaches what comes after
the repetition. Bounded passes are written out one after the other. `size_emit` says how many
steps a pattern has.
-/

set_option autoImplicit false

namespace Packrat

/-- A step of a program. All but `fork` and `jump` go on at the next address. -/
inductive Step where
  | one (set : CharSet)
  /-- Goes on only where a condition holds. -/
  | check (condition : Assertion)
  /-- Goes on at both addresses and prefers the first. -/
  | fork (preferred other : Nat)
  | jump (address : Nat)
  | accept
deriving DecidableEq, Repr

/-- The choice between one more pass of a repetition and the end of it. -/
def Step.choose (greedy : Bool) (pass stop : Nat) : Step :=
  if greedy then .fork pass stop else .fork stop pass

namespace Regex

def stepCount : Regex → Nat
  | .empty => 0
  | .literal chars => chars.length
  | .one _ | .assertion _ => 1
  | .capture _ body => body.stepCount
  | .seq first rest => first.stepCount + rest.stepCount
  | .alt first rest => first.stepCount + rest.stepCount + 2
  | .rep body min max _ =>
    match max, min with
    | none, 0 => body.stepCount + 2
    | none, min + 1 => min * body.stepCount + body.stepCount + 1
    | some max, min => min * body.stepCount + (max - min) * (body.stepCount + 1)

def emit : Regex → Array Step → Array Step
  | .empty, steps => steps
  | .literal chars, steps => chars.foldl (fun steps c => steps.push (.one (.one c))) steps
  | .one set, steps => steps.push (.one set)
  | .assertion condition, steps => steps.push (.check condition)
  | .capture _ body, steps => body.emit steps
  | .seq first rest, steps => rest.emit (first.emit steps)
  | .alt first rest, steps =>
    let other := steps.size + first.stepCount + 2
    let steps := first.emit (steps.push (.fork (steps.size + 1) other))
    rest.emit (steps.push (.jump (other + rest.stepCount)))
  | .rep body min max greedy, steps =>
    match max, min with
    | none, 0 =>
      let start := steps.size
      let decision := Step.choose greedy (start + 1) (start + body.stepCount + 2)
      (body.emit (steps.push decision)).push (if body.consumes then .jump start else decision)
    | none, min + 1 =>
      let steps := min.repeat body.emit steps
      let start := steps.size
      (body.emit steps).push (Step.choose greedy start (start + body.stepCount + 1))
    | some max, min =>
      let steps := min.repeat body.emit steps
      let stop := steps.size + (max - min) * (body.stepCount + 1)
      (max - min).repeat
        (fun steps => body.emit (steps.push (Step.choose greedy (steps.size + 1) stop))) steps

def program (regex : Regex) : Array Step :=
  (regex.emit #[]).push .accept

/-! ### The number of steps -/

private theorem size_repeat (grow : Array Step → Array Step) (growth : Nat)
    (grows : ∀ steps, (grow steps).size = steps.size + growth) (count : Nat) (steps : Array Step) :
    (count.repeat grow steps).size = steps.size + count * growth := by
  induction count with
  | zero => simp [Nat.repeat]
  | succ count ih => rw [Nat.repeat, grows, ih, Nat.succ_mul, Nat.add_assoc]

private theorem size_pushAll (chars : List Char) (steps : Array Step) :
    (chars.foldl (fun steps c => steps.push (.one (.one c))) steps).size =
      steps.size + chars.length := by
  induction chars generalizing steps with
  | nil => rfl
  | cons c rest ih => rw [List.foldl_cons, ih, Array.size_push, List.length_cons]; omega

theorem size_emit (regex : Regex) (steps : Array Step) :
    (regex.emit steps).size = steps.size + regex.stepCount := by
  induction regex generalizing steps with
  | empty => rfl
  | literal chars => exact size_pushAll chars steps
  | one set => exact Array.size_push ..
  | assertion condition => exact Array.size_push ..
  | capture index body ih => exact ih steps
  | seq first rest ihFirst ihRest =>
      rw [emit, ihRest, ihFirst, stepCount, Nat.add_assoc]
  | alt first rest ihFirst ihRest =>
      simp only [emit, stepCount, ihRest, ihFirst, Array.size_push]
      omega
  | rep body min max greedy ih =>
      match max, min with
      | none, 0 =>
          simp only [emit, stepCount, ih, Array.size_push]
          omega
      | none, min + 1 =>
          simp only [emit, stepCount, ih, Array.size_push, size_repeat body.emit _ ih]
          omega
      | some max, min =>
          simp only [emit, stepCount]
          rw [size_repeat _ (body.stepCount + 1) (fun steps => by rw [ih, Array.size_push]; omega),
            size_repeat body.emit _ ih, Nat.add_assoc]

end Regex

end Packrat
