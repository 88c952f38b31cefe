import Packrat.CharSet

/-!
Letter case in patterns. Ignoring case makes an ASCII letter count as the same letter in the other
case, and it puts the Kelvin sign with k and the long s with s.
-/

set_option autoImplicit false

namespace Packrat

namespace Regex

/-- The other characters that count as the same letter when case is ignored. -/
def caseVariants (c : Char) : List Char :=
  if c = 'k' then ['K', '\u212a']
  else if c = 'K' then ['k', '\u212a']
  else if c = '\u212a' then ['k', 'K']
  else if c = 's' then ['S', '\u017f']
  else if c = 'S' then ['s', '\u017f']
  else if c = '\u017f' then ['s', 'S']
  else if c.isLower then [c.toUpper]
  else if c.isUpper then [c.toLower]
  else []

def casedChars : List Char :=
  "ABCDEFGHIJKLMNOPQRSTUVWXYZabcdefghijklmnopqrstuvwxyz".toList ++ ['\u017f', '\u212a']

end Regex

namespace CharSet

def anyCase (set : CharSet) : CharSet :=
  (Regex.casedChars.filter set.mem).foldl
    (fun widened c => (Regex.caseVariants c).foldl (fun widened d => widened.union (one d)) widened)
    set

/-- A set, with letter case ignored if asked for. -/
def widen (ignoreCase : Bool) (set : CharSet) : CharSet :=
  if ignoreCase then set.anyCase else set

end CharSet

end Packrat
