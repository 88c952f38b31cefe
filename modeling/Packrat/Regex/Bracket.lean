import Packrat.Regex.Escape
import Packrat.Regex.LetterCase

/-!
Bracketed character classes. A class lists characters, ranges, named classes and nested classes;
two doubled operators intersect and subtract what stands on their sides, a third keeps what is on
one side only, and all three bind to the left. A caret after the opening bracket takes the
complement, after letter case has been widened.

The reader also counts how deep a class is nested: brackets, a list of several members and an
operator are one level each.
-/

set_option autoImplicit false

namespace Packrat.Regex

inductive SetOperator where
  | inter
  | diff
  | symmDiff
deriving DecidableEq, Repr

def SetOperator.apply : SetOperator → CharSet → CharSet → CharSet
  | .inter => .inter
  | .diff => .diff
  | .symmDiff => .symmDiff

/-- A set of characters as it stands in a class, with the number of levels it is nested. -/
structure Listed where
  set : CharSet
  height : Nat
deriving Repr

structure Bracket where
  negated : Bool
  /-- The left side of an operator that waits for its right side. -/
  pending : Option (SetOperator × Listed)
  members : CharSet
  /-- The number of members listed since then. -/
  count : Nat
  height : Nat
deriving Repr

namespace Bracket

def add (bracket : Bracket) (member : Listed) : Bracket :=
  { bracket with
    members := bracket.members.union member.set
    count := bracket.count + 1
    height := max bracket.height member.height }

def listed (bracket : Bracket) : Listed :=
  ⟨bracket.members, if bracket.count < 2 then bracket.height else bracket.height + 1⟩

/-- The set read so far, with a waiting operator applied. -/
def total (ignoreCase : Bool) (bracket : Bracket) : Listed :=
  let right := bracket.listed
  match bracket.pending with
  | none => right
  | some (operator, left) =>
    ⟨operator.apply (left.set.widen ignoreCase) (right.set.widen ignoreCase),
      max left.height right.height + 1⟩

def operate (ignoreCase : Bool) (bracket : Bracket) (operator : SetOperator) : Bracket :=
  ⟨bracket.negated, some (operator, bracket.total ignoreCase), .none, 0, 0⟩

def close (ignoreCase : Bool) (bracket : Bracket) : Listed :=
  let total := bracket.total ignoreCase
  let set := total.set.widen ignoreCase
  ⟨if bracket.negated then set.complement else set, total.height + 1⟩

/-- The beginning of a class behind its opening bracket: a caret, then hyphens that stand for
themselves, or else one closing bracket that does. -/
def open? (cs : List Char) : Option (Bracket × List Char) :=
  let (negated, cs) := match cs with
    | '^' :: rest => (true, rest)
    | _ => (false, cs)
  let hyphens := cs.takeWhile (· == '-')
  let bracket : Bracket := hyphens.foldl (fun bracket c => bracket.add ⟨.one c, 0⟩)
    ⟨negated, none, .none, 0, 0⟩
  match hyphens, cs.dropWhile (· == '-') with
  | _, [] => none
  | [], ']' :: rest => if rest.isEmpty then none else some (bracket.add ⟨.one ']', 0⟩, rest)
  | _, rest => some (bracket, rest)

def readMember? : List Char → Option (Atom × List Char)
  | [] => none
  | '\\' :: rest => readEscape? rest
  | c :: rest => some (.literal c, rest)

def memberSet? : Atom → Option CharSet
  | .literal c => some (.one c)
  | .set set => some set
  | .assertion _ => none

def readRange? (cs : List Char) : Option (CharSet × List Char) := do
  let (low, rest) ← readMember? cs
  match rest with
  | [] => none
  | '-' :: after =>
    if after.head? = some ']' ∨ after.head? = some '-' then
      return (← memberSet? low, rest)
    else
      let (high, rest) ← readMember? after
      match low, high with
      | .literal low, .literal high =>
        if low ≤ high then some (.range low high, rest) else none
      | _, _ => none
  | _ => return (← memberSet? low, rest)

/-- Reads on inside the innermost of some open classes until the outermost is closed. The budget
bounds the number of members. -/
def readOn? (ignoreCase : Bool) :
    Nat → Bracket → List Bracket → List Char → Option (Listed × List Char)
  | 0, _, _, _ => none
  | budget + 1, bracket, outer, cs =>
    match cs with
    | [] => none
    | '[' :: rest => do
      let (inner, rest) ← open? rest
      readOn? ignoreCase budget inner (bracket :: outer) rest
    | ']' :: rest =>
      let closed := bracket.close ignoreCase
      match outer with
      | [] => some (closed, rest)
      | parent :: outer => readOn? ignoreCase budget (parent.add closed) outer rest
    | '&' :: '&' :: rest => readOn? ignoreCase budget (bracket.operate ignoreCase .inter) outer rest
    | '-' :: '-' :: rest => readOn? ignoreCase budget (bracket.operate ignoreCase .diff) outer rest
    | '~' :: '~' :: rest =>
      readOn? ignoreCase budget (bracket.operate ignoreCase .symmDiff) outer rest
    | cs => do
      let (set, rest) ← readRange? cs
      readOn? ignoreCase budget (bracket.add ⟨set, 0⟩) outer rest

def read? (ignoreCase : Bool) (cs : List Char) : Option (Listed × List Char) := do
  let (bracket, rest) ← open? cs
  readOn? ignoreCase (cs.length + 1) bracket [] rest

end Bracket

end Packrat.Regex
