import Packrat.Regex.Basic
import Packrat.Text.Blank
import Packrat.Text.Digit
import Packrat.Text.Word

/-!
What can follow a backslash in a pattern: a named class, a condition, a control, a code point in
hexadecimal, or a punctuation character that stands for itself.
-/

set_option autoImplicit false

namespace Packrat.Regex

inductive Atom where
  | literal (c : Char)
  | set (set : CharSet)
  | assertion (condition : Assertion)
deriving DecidableEq, Repr

def hexDigit? (c : Char) : Option Nat :=
  if '0' ≤ c ∧ c ≤ '9' then some (c.toNat - '0'.toNat)
  else if 'a' ≤ c ∧ c ≤ 'f' then some (c.toNat - 'a'.toNat + 10)
  else if 'A' ≤ c ∧ c ≤ 'F' then some (c.toNat - 'A'.toNat + 10)
  else none

def hexNumber? (digits : List Char) : Option Nat :=
  digits.foldlM (fun value c => (hexDigit? c).map (value * 16 + ·)) 0

def charOfCode? (code : Nat) : Option Char :=
  if code.isValidChar then some (Char.ofNat code) else none

def readCode? (width : Nat) : List Char → Option (Atom × List Char)
  | '\x7b' :: rest =>
    let digits := rest.takeWhile (· != '\x7d')
    match rest.dropWhile (· != '\x7d') with
    | _ :: after =>
      if digits.isEmpty then none
      else (hexNumber? digits).bind charOfCode? |>.map fun c => (.literal c, after)
    | [] => none
  | cs =>
    let digits := cs.take width
    if digits.length = width then
      (hexNumber? digits).bind charOfCode? |>.map fun c => (.literal c, cs.drop width)
    else none

/-- Whether a character may be escaped to stand for itself: ASCII punctuation, blanks and controls,
apart from the angle brackets. -/
def isEscapable (c : Char) : Bool :=
  c.toNat < 128 && !c.isAlphanum && c != '<' && c != '>'

def readEscape? : List Char → Option (Atom × List Char)
  | [] => none
  | 'x' :: rest => readCode? 2 rest
  | 'u' :: rest => readCode? 4 rest
  | 'U' :: rest => readCode? 8 rest
  | 'd' :: rest => some (.set Text.digits, rest)
  | 'D' :: rest => some (.set Text.digits.complement, rest)
  | 's' :: rest => some (.set Text.blanks, rest)
  | 'S' :: rest => some (.set Text.blanks.complement, rest)
  | 'w' :: rest => some (.set Text.wordChars, rest)
  | 'W' :: rest => some (.set Text.wordChars.complement, rest)
  | 'a' :: rest => some (.literal '\x07', rest)
  | 'f' :: rest => some (.literal '\x0c', rest)
  | 't' :: rest => some (.literal '\t', rest)
  | 'n' :: rest => some (.literal '\n', rest)
  | 'r' :: rest => some (.literal '\r', rest)
  | 'v' :: rest => some (.literal '\x0b', rest)
  | 'A' :: rest => some (.assertion .textStart, rest)
  | 'z' :: rest => some (.assertion .textEnd, rest)
  | 'b' :: rest => some (.assertion .wordBoundary, rest)
  | 'B' :: rest => some (.assertion .insideOrOutside, rest)
  | '<' :: rest => some (.assertion .wordStart, rest)
  | '>' :: rest => some (.assertion .wordEnd, rest)
  | c :: rest => if isEscapable c then some (.literal c, rest) else none

end Packrat.Regex
