import Packrat.Text.Hidden

/-!
Quoted texts and characters, as they stand in messages and in outlines of values. The quote mark
in use and the backslash are escaped, four controls have short escapes, and every other hidden
character is written by its hexadecimal code point.
-/

set_option autoImplicit false

namespace Packrat.Text

def hexDigits (n : Nat) : List Char :=
  Nat.toDigits 16 n

def quotedChar (mark c : Char) : List Char :=
  if c = '\x00' then ['\\', '0']
  else if c = '\t' then ['\\', 't']
  else if c = '\r' then ['\\', 'r']
  else if c = '\n' then ['\\', 'n']
  else if c = '\\' || c = mark then ['\\', c]
  else if isHidden c then ['\\', 'u', '\x7b'] ++ hexDigits c.toNat ++ ['\x7d']
  else [c]

def quoted (text : List Char) : String :=
  String.ofList (['"'] ++ text.flatMap (quotedChar '"') ++ ['"'])

def quotedOne (c : Char) : String :=
  String.ofList (['\''] ++ quotedChar '\'' c ++ ['\''])

def bracketed (entries : List String) : String :=
  "[" ++ String.intercalate ", " entries ++ "]"

end Packrat.Text
