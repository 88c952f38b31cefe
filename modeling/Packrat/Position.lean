import Packrat.Text.Bytes

/-!
Places in a text. A position is a byte offset together with the line and the column that a reader
counts there: lines end after a line feed, and columns count characters. The offset alone decides
which of two positions comes first; line and column follow from it and the text.

New positions are made by moving an older one forward over the text between them. A move that
goes back, past the end, or into the middle of a character is refused.
-/

set_option autoImplicit false

namespace Packrat

/-- A place in a text: byte offset from 0, line and column from 1. -/
structure Position where
  offset : Nat
  line : Nat
  column : Nat
deriving DecidableEq, Repr

inductive PositionError where
  /-- The target lies before the place the move starts from. -/
  | behind (target start : Nat)
  /-- The target lies outside the text or inside a character. -/
  | notBoundary (target length : Nat)
  /-- The place to continue from lies outside the text or inside a character. -/
  | outside (offset length : Nat)
deriving DecidableEq, Repr

def PositionError.message : PositionError → String
  | .behind target start =>
    s!"Position offset {target} is behind the scanning start offset {start}."
  | .notBoundary target length =>
    s!"Position offset {target} is out of the text bounds 0..{length} or is not a char boundary."
  | .outside offset length =>
    s!"Position offset {offset} is out of the text bounds 0..{length}."

namespace Position

def start : Position := ⟨0, 1, 1⟩

def step (position : Position) (c : Char) : Position :=
  if c = '\n' then ⟨position.offset + c.utf8Size, position.line + 1, 1⟩
  else ⟨position.offset + c.utf8Size, position.line, position.column + 1⟩

def through (position : Position) (piece : List Char) : Position :=
  piece.foldl step position

/-- The place at byte offset `target` of `text`, counted on from `position`. -/
def advance (position : Position) (text : List Char) (target : Nat) :
    Except PositionError Position :=
  if target < position.offset then .error (.behind target position.offset)
  else match Text.slice? text position.offset target with
    | none => .error (.notBoundary target (Text.byteLength text))
    | some between => .ok (position.through between)

def at? (text : List Char) (target : Nat) : Except PositionError Position :=
  start.advance text target

def compare (first second : Position) : Ordering :=
  Ord.compare first.offset second.offset

def render (position : Position) : String :=
  s!"{position.line}:{position.column}"

def describe (position : Position) : String :=
  s!"Position \x7b offset: {position.offset}, line: {position.line}, column: {position.column} \x7d"

/-! ### Moving over text -/

@[simp] theorem step_offset (position : Position) (c : Char) :
    (position.step c).offset = position.offset + c.utf8Size := by
  unfold step; split <;> rfl

@[simp] theorem through_nil (position : Position) : position.through [] = position := rfl

@[simp] theorem through_cons (position : Position) (c : Char) (rest : List Char) :
    position.through (c :: rest) = (position.step c).through rest := rfl

theorem through_append (position : Position) (first second : List Char) :
    position.through (first ++ second) = (position.through first).through second := by
  simp [through, List.foldl_append]

/-- Moving over a piece of text adds its bytes to the offset. -/
@[simp] theorem through_offset (position : Position) (piece : List Char) :
    (position.through piece).offset = position.offset + Text.byteLength piece := by
  induction piece generalizing position with
  | nil => rfl
  | cons c rest ih => simp [ih, Nat.add_assoc]

/-- A move succeeds exactly if the text has cuts at both offsets, the first not after the second;
it then leads through what stands between them. -/
theorem advance_eq_ok_iff (position : Position) (text : List Char) (target : Nat)
    (result : Position) :
    position.advance text target = .ok result ↔
      ∃ before between after, text = before ++ between ++ after ∧
        Text.byteLength before = position.offset ∧
        position.offset + Text.byteLength between = target ∧
        result = position.through between := by
  unfold advance
  by_cases back : target < position.offset
  · simp only [back, if_true, reduceCtorEq, false_iff]
    rintro ⟨before, between, after, -, -, reached, -⟩
    omega
  · simp only [back, if_false]
    cases found : Text.slice? text position.offset target with
    | none =>
        simp only [reduceCtorEq, false_iff]
        rintro ⟨before, between, after, split, size, reached, -⟩
        have := (Text.slice?_eq_some_iff text position.offset target between).2
          ⟨before, after, split, size, reached⟩
        simp [found] at this
    | some between =>
        obtain ⟨before, after, split, size, reached⟩ :=
          (Text.slice?_eq_some_iff text position.offset target between).1 found
        constructor
        · intro same
          cases same
          exact ⟨before, between, after, split, size, reached, rfl⟩
        · rintro ⟨before', between', after', split', size', reached', rfl⟩
          have other := (Text.slice?_eq_some_iff text position.offset target between').2
            ⟨before', after', split', size', reached'⟩
          rw [found, Option.some.injEq] at other
          rw [other]

end Position

end Packrat
