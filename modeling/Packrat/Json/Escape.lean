import Packrat.Decimal.Reader

/-!
Escapes in JSON strings. A backslash and a letter stand for one character; the letter u takes up to
four characters that have to be a hexadecimal number. A code point that is no character stands for
the replacement character.
-/

set_option autoImplicit false

namespace Packrat.Json

def shortEscape? : Char → Option Char
  | '"' => some '"'
  | '\\' => some '\\'
  | '/' => some '/'
  | 'b' => some '\x08'
  | 'f' => some '\x0c'
  | 'n' => some '\n'
  | 'r' => some '\r'
  | 't' => some '\t'
  | _ => none

/-- The character of a code point, or the replacement character. -/
def charOfCode (code : Nat) : Char :=
  if code.isValidChar then Char.ofNat code else '\ufffd'

/-- The character that up to four hexadecimal digits stand for. -/
def codeEscape? (digits : List Char) : Option Char :=
  (Decimal.readNatural? 16 (Nat.pow 2 32) digits).map charOfCode

/-- The text between quotes with its escapes replaced. The budget bounds the number of characters
and escapes. -/
def unescapeWithin : Nat → List Char → Option (List Char)
  | _, [] => some []
  | 0, _ :: _ => none
  | budget + 1, c :: rest =>
    if c != '\\' then (unescapeWithin budget rest).map (c :: ·)
    else match rest with
      | [] => none
      | 'u' :: rest => do
        let c ← codeEscape? (rest.take 4)
        return c :: (← unescapeWithin budget (rest.drop 4))
      | letter :: rest => do
        let c ← shortEscape? letter
        return c :: (← unescapeWithin budget rest)

def unescape? (inner : List Char) : Option (List Char) :=
  unescapeWithin inner.length inner

def unquote? : List Char → Option (List Char)
  | '"' :: rest =>
    match rest.getLast? with
    | some '"' => some rest.dropLast
    | _ => none
  | _ => none

def decode? (literal : List Char) : Option (List Char) :=
  (unquote? literal).bind unescape?

end Packrat.Json
