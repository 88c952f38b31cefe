import Packrat.CharSet

/-!
Regular patterns with preferences. A pattern describes not only which pieces of text it matches,
but also which of several matches from one place comes first: the earlier branch of an
alternative, and more repetitions before fewer, or fewer before more where the repetition is
lazy.

Patterns are built by `Regex.sequence`, `Regex.choice` and `Regex.repeated`, which keep them in a
normal form: sequences and alternatives nest to the right only and hold no empty parts,
neighbouring literals are one literal, a set of a single character is a literal, and branches that
begin with the same parts share them.
-/

set_option autoImplicit false

namespace Packrat

inductive Assertion where
  | textStart
  | textEnd
  | lineStart
  | lineEnd
  /-- Exactly one of the two neighbours is a word character. -/
  | wordBoundary
  /-- Both or none of the two neighbours are word characters. -/
  | insideOrOutside
  | wordStart
  | wordEnd
deriving DecidableEq, Repr

/-- A regular pattern with preferences. -/
inductive Regex where
  | empty
  /-- Characters one after the other, at least one. -/
  | literal (chars : List Char)
  | one (set : CharSet)
  | assertion (condition : Assertion)
  /-- A numbered group. It matches what its body matches, and no two groups of a pattern are the
  same. -/
  | capture (index : Nat) (body : Regex)
  | seq (first rest : Regex)
  /-- The first branch is preferred. -/
  | alt (first rest : Regex)
  /-- A repetition; a greedy one prefers more repetitions. -/
  | rep (body : Regex) (min : Nat) (max : Option Nat) (greedy : Bool)
deriving DecidableEq, Repr

namespace Regex

/-! ### Width -/

/-- Whether a pattern is certain by its form to match nothing but the empty text. -/
def isWeightless : Regex → Bool
  | .empty | .assertion _ => true
  | .literal _ | .one _ => false
  | .capture _ body => body.isWeightless
  | .seq first rest | .alt first rest => first.isWeightless && rest.isWeightless
  | .rep body _ _ _ => body.isWeightless

/-- The number of characters of the shortest matches that the form of a pattern allows for, or
nothing if a part of the pattern fits no character. -/
def leastWidth? : Regex → Option Nat
  | .empty | .assertion _ => some 0
  | .literal chars => some chars.length
  | .one set => if set = .none then none else some 1
  | .capture _ body => body.leastWidth?
  | .seq first rest => do return (← first.leastWidth?) + (← rest.leastWidth?)
  | .alt first rest => do return min (← first.leastWidth?) (← rest.leastWidth?)
  | .rep body min _ _ => do return min * (← body.leastWidth?)

def consumes (regex : Regex) : Bool :=
  regex.leastWidth?.any (0 < ·)

/-- Whether every match of a pattern is certain by its form to start where the text starts or, from
the other side, to end where it ends. -/
def isTied (backward : Bool) : Regex → Bool
  | .assertion condition => condition == if backward then .textEnd else .textStart
  | .seq first rest =>
    if backward then rest.isTied true || (rest.isWeightless && first.isTied true)
    else first.isTied false || (first.isWeightless && rest.isTied false)
  | .capture _ body => body.isTied backward
  | .alt first rest => first.isTied backward && rest.isTied backward
  | .rep body min _ _ => min != 0 && body.isTied backward
  | _ => false

/-! ### Sets -/

def ofSet (set : CharSet) : Regex :=
  match set.ranges with
  | [(low, high)] => if low = high then .literal [Char.ofNat low] else .one set
  | _ => .one set

def char? : Regex → Option Char
  | .literal [c] => some c
  | _ => none

def set? : Regex → Option CharSet
  | .one set => some set
  | _ => none

/-! ### Sequences -/

def parts : Regex → List Regex
  | .empty => []
  | .seq first rest => first :: rest.parts
  | regex => [regex]

/-- A part in front of others, joined with the next one if both are literals. -/
def joinFront : Regex → List Regex → List Regex
  | .literal first, .literal second :: rest => .literal (first ++ second) :: rest
  | regex, rest => regex :: rest

def ofParts : List Regex → Regex
  | [] => .empty
  | [regex] => regex
  | regex :: rest => .seq regex (ofParts rest)

def sequence (regexes : List Regex) : Regex :=
  ofParts ((regexes.flatMap parts).foldr joinFront [])

/-! ### Alternatives -/

def branches : Regex → List Regex
  | .alt first rest => first :: rest.branches
  | regex => [regex]

def ofBranches : List Regex → Regex
  | [] => .one .none
  | [regex] => regex
  | regex :: rest => .alt regex (ofBranches rest)

/-- The set that some branches amount to, if all are single characters or all are sets. -/
def unionOf? (regexes : List Regex) : Option CharSet :=
  match regexes.mapM char? with
  | some chars => some (chars.foldl (fun set c => set.union (.one c)) .none)
  | none => do return (← regexes.mapM set?).foldl .union .none

def plainChoice (regexes : List Regex) : Regex :=
  match regexes.flatMap branches with
  | [regex] => regex
  | regexes =>
    match unionOf? regexes with
    | some set => ofSet set
    | none => ofBranches regexes

def sharedParts : List Regex → List Regex → List Regex
  | first :: firsts, second :: seconds =>
    if first = second then first :: sharedParts firsts seconds else []
  | _, _ => []

/-- The parts with which all of some branches begin, if there are several branches and all are
sequences. -/
def sharedBeginning : List Regex → List Regex
  | .seq first rest :: second :: others =>
    (second :: others).foldl
      (fun shared regex => sharedParts shared (if regex.parts.length < 2 then [] else regex.parts))
      (Regex.seq first rest).parts
  | _ => []

/-- Branches in order of preference. A beginning that all branches share comes before the
choice. -/
def choice (regexes : List Regex) : Regex :=
  let regexes := regexes.flatMap branches
  match unionOf? regexes, sharedBeginning regexes with
  | none, first :: rest =>
    let remaining := regexes.map fun regex => sequence (regex.parts.drop (rest.length + 1))
    sequence (first :: rest ++ [plainChoice remaining])
  | _, _ => plainChoice regexes

/-! ### Repetitions -/

/-- A repetition. What matches nothing but the empty text is not repeated more than once, no
passes are nothing, and a single pass is the body. -/
def repeated (body : Regex) (min : Nat) (max : Option Nat) (greedy : Bool) : Regex :=
  let min := if body.isWeightless then Nat.min min 1 else min
  let max := if body.isWeightless then some (Nat.min (max.getD 1) 1) else max
  if max = some 0 then .empty
  else if min = 1 ∧ max = some 1 then body
  else .rep body min max greedy

end Regex

end Packrat
