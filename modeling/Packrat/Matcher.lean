import Packrat.Text.Quoted

/-!
How a terminal is described: by words, by regular patterns, by a number of characters, or by
descriptions put together. A description is only a plan; it is checked and made ready for scanning
in `Packrat.Scanner`.
-/

set_option autoImplicit false

namespace Packrat

/-- A description of the texts of a terminal. -/
inductive Matcher where
  | words (list : List String)
  | patterns (list : List String)
  | fixed (count : Nat)
  | join (parts : List Matcher)
  | any (choices : List Matcher)
  /-- At least `min` times and at most `max` times if there is such a limit. -/
  | repeated (inner : Matcher) (min : Nat) (max : Option Nat)
deriving Repr

namespace Matcher

def word (text : String) : Matcher := .words [text]

def pattern (text : String) : Matcher := .patterns [text]

def limitText : Option Nat → String
  | some max => s!"Some({max})"
  | none => "None"

def quotedList (list : List String) : String :=
  Text.bracketed (list.map fun text => Text.quoted text.toList)

mutual

def render : Matcher → String
  | .words list => s!"Words({quotedList list})"
  | .patterns list => s!"Regex({quotedList list})"
  | .fixed count => s!"Fixed({count})"
  | .join parts => s!"Join({Text.bracketed (renderAll parts)})"
  | .any choices => s!"Any({Text.bracketed (renderAll choices)})"
  | .repeated inner min max =>
    "Repeat \x7b matcher: " ++ render inner ++ s!", min: {min}, max: {limitText max} \x7d"

def renderAll : List Matcher → List String
  | [] => []
  | matcher :: rest => render matcher :: renderAll rest

end

end Matcher

end Packrat
