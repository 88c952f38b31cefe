import Packrat.Position
import Packrat.Symbol

/-!
What happens while a grammar is built, a text is parsed and values are computed, in the order in
which it happens. Some events are told to an observer as messages; others say which declared
function was called on what.
-/

set_option autoImplicit false

namespace Packrat

inductive Level where
  | debug
  | trace
deriving DecidableEq, Repr

def Level.name : Level → String
  | .debug => "DEBUG"
  | .trace => "TRACE"

inductive Event where
  | built (terminals aliases rules : Nat) (root : Symbol)
  | parsing (bytes : Nat) (root : Symbol)
  /-- The root matched a span; so many cells of both layers exist. -/
  | parsed (symbol : Symbol) (start stop lexical syntactic : Nat)
  | unmatched (lexical syntactic : Nat)
  | scanned (position : Position) (found : Nat)
  | extended (symbol : Symbol) (position oldStop newStop : Position)
  | remark (level : Level) (text : String)
  | transformed (symbol : Symbol) (text : List Char)
  | entered (node : Nat) (symbol : Symbol) (start stop : Nat) (byCases : Bool)
  | finished (node : Nat)
  | caseTaken (index : Nat)
deriving DecidableEq, Repr

/-- What a value function can note down while it works. -/
inductive Note where
  | remark (level : Level) (text : String)
  /-- The case with this index decides the value. -/
  | caseTaken (index : Nat)
deriving DecidableEq, Repr

def Note.event : Note → Event
  | .remark level text => .remark level text
  | .caseTaken index => .caseTaken index

def Event.message? : Event → Option (Level × String)
  | .built terminals aliases rules root =>
    some (.debug, s!"Grammar built: {terminals} terminals, {aliases} aliases, {rules} rules, " ++
      s!"{root.render} root.")
  | .parsing bytes root =>
    some (.debug, s!"Parsing {bytes} bytes from {root.render} root symbol.")
  | .parsed symbol start stop lexical syntactic =>
    some (.debug, s!"Parsing finished: {symbol.render} matched {start}..{stop}, " ++
      s!"{lexical} lexis and {syntactic} syntax contexts.")
  | .unmatched lexical syntactic =>
    some (.debug, s!"Parsing finished: no match, {lexical} lexis and {syntactic} syntax contexts.")
  | .scanned position found =>
    some (.trace, s!"Lexis context at {position.render} ({position.offset} offset): " ++
      s!"{found} matches.")
  | .extended symbol position oldStop newStop =>
    some (.trace, s!"{symbol.render} at {position.render} extended from {oldStop.render} " ++
      s!"to {newStop.render}.")
  | .remark level text => some (level, text)
  | .transformed _ _ => none
  | .entered _ _ _ _ _ => none
  | .finished _ => none
  | .caseTaken _ => none

end Packrat
