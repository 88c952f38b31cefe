import Packrat.Matcher
import Packrat.Pattern

/-!
Scanners: matchers that have been checked and made ready to run. A scanner reports how many bytes
of a text it matches at its beginning. Where a scanner has several ways to match it takes the
longest; parts of a sequence and passes of a repetition commit to their own answer one after the
other.
-/

set_option autoImplicit false

namespace Packrat

inductive Scanner where
  | words (list : List (List Char))
  | patterns (list : List Pattern)
  | fixed (count : Nat)
  | join (parts : List Scanner)
  | any (choices : List Scanner)
  | repeated (inner : Scanner) (min : Nat) (max : Option Nat)

inductive MatcherError where
  /-- A set or a sequence lists nothing. -/
  | emptyPattern
  /-- A regular pattern is not well formed or too large. -/
  | invalidRegex (pattern : String)
  /-- The upper bound of a repetition is zero or below the lower one. -/
  | invalidRepetition (min max : Nat)
deriving DecidableEq, Repr

/-- Whether the bounds of a repetition allow at least one pass and contradict each other in no
way. -/
def validBounds (min : Nat) : Option Nat → Bool
  | none => true
  | some max => max != 0 && min ≤ max

def grouped (pattern : List Char) : List Char :=
  ['(', '?', ':'] ++ pattern ++ [')']

/-- A pattern behind the start of the text. -/
def anchored (pattern : List Char) : List Char :=
  '^' :: grouped pattern

/-- The regular pattern of a terminal, tied to the place where scanning starts. -/
def anchoredPattern? (engine : RegexEngine) (pattern : String) : Option Pattern :=
  engine.read? (anchored pattern.toList)

def readPatterns (engine : RegexEngine) : List String → Except MatcherError (List Pattern)
  | [] => .ok []
  | pattern :: rest => do
    match anchoredPattern? engine pattern with
    | none => .error (.invalidRegex pattern)
    | some ready => return ready :: (← readPatterns engine rest)

namespace Scanner

mutual

/-- Checks a matcher and makes it ready. Bounds are checked before what they apply to, and of
several faults the first in reading order counts. -/
def compile (engine : RegexEngine) : Matcher → Except MatcherError Scanner
  | .words list =>
    if list.isEmpty then .error .emptyPattern else .ok (.words (list.map String.toList))
  | .patterns list =>
    if list.isEmpty then .error .emptyPattern else return .patterns (← readPatterns engine list)
  | .fixed count => .ok (.fixed count)
  | .join parts =>
    if parts.isEmpty then .error .emptyPattern else return .join (← compileAll engine parts)
  | .any choices =>
    if choices.isEmpty then .error .emptyPattern else return .any (← compileAll engine choices)
  | .repeated inner min max =>
    if validBounds min max then return .repeated (← compile engine inner) min max
    else .error (.invalidRepetition min (max.getD 0))

def compileAll (engine : RegexEngine) : List Matcher → Except MatcherError (List Scanner)
  | [] => .ok []
  | matcher :: rest => do
    let scanner ← compile engine matcher
    return scanner :: (← compileAll engine rest)

end

/-! ### Scanning -/

/-- The greater of two answers, where no match is less than any. -/
def longer : Option Nat → Option Nat → Option Nat
  | none, second => second
  | first, none => first
  | some first, some second => some (max first second)

def longest (lengths : List (Option Nat)) : Option Nat :=
  lengths.foldl longer none

def scanWord (word text : List Char) : Option Nat :=
  if word.isPrefixOf text then some (Text.byteLength word) else none

def scanPattern (pattern : Pattern) (text : List Char) : Option Nat :=
  (pattern.find? text).map Prod.snd

def scanFixed (count : Nat) (text : List Char) : Option Nat :=
  let piece := text.take count
  if piece.length = count then some (Text.byteLength piece) else none

/-- Passes of a repetition from a place on, after `count` passes of `length` bytes. A pass that
matches nothing ends the repetition and satisfies its lower bound. The budget bounds the number of
further passes. -/
def scanPasses (scan : List Char → Option Nat) (min : Nat) (max : Option Nat) :
    Nat → (count length : Nat) → List Char → Option Nat
  | budget, count, length, text =>
    let stop (count : Nat) : Option Nat := if min ≤ count then some length else none
    if max.any (· ≤ count) then stop count
    else match scan text with
      | none => stop count
      | some 0 => stop (Nat.max count min)
      | some (bytes + 1) =>
        match budget, Text.dropBytes? text (bytes + 1) with
        | budget + 1, some rest => scanPasses scan min max budget (count + 1)
            (length + (bytes + 1)) rest
        | _, _ => none

mutual

/-- The number of bytes that a scanner matches at the beginning of a text. -/
def scan : Scanner → List Char → Option Nat
  | .words list, text => longest (list.map (scanWord · text))
  | .patterns list, text => longest (list.map (scanPattern · text))
  | .fixed count, text => scanFixed count text
  | .join parts, text => scanJoin parts text
  | .any choices, text => longest (scanEach choices text)
  | .repeated inner min max, text => scanPasses inner.scan min max text.length 0 0 text

def scanJoin : List Scanner → List Char → Option Nat
  | [], _ => some 0
  | scanner :: rest, text => do
    let length ← scanner.scan text
    let remaining ← Text.dropBytes? text length
    return length + (← scanJoin rest remaining)

def scanEach : List Scanner → List Char → List (Option Nat)
  | [], _ => []
  | scanner :: rest, text => scanner.scan text :: scanEach rest text

end

end Scanner

end Packrat
