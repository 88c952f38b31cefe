import Packrat.Regex.Bracket
import Packrat.Text.Alphabetic

/-!
Reading patterns. The reader walks over the pattern once and keeps the groups that are still open.
Settings in a group, such as ignoring letter case, hold from where they stand to the end of the
group, across its branches. `Regex.read?` answers nothing for a pattern that is not well formed or
that is nested too deeply: a group, a repetition, a class, a sequence of several items and an
alternative of several branches are one level each.
-/

set_option autoImplicit false

namespace Packrat.Regex

/-- Settings that change what parts of a pattern mean. -/
structure Settings where
  ignoreCase : Bool := false
  dotMatchesLineFeed : Bool := false
  everyLine : Bool := false
  lazyFirst : Bool := false
deriving DecidableEq, Repr

def Settings.set? (settings : Settings) (letter : Char) (value : Bool) : Option Settings :=
  match letter with
  | 'i' => some { settings with ignoreCase := value }
  | 's' => some { settings with dotMatchesLineFeed := value }
  | 'm' => some { settings with everyLine := value }
  | 'U' => some { settings with lazyFirst := value }
  | _ => none

/-- A part of a pattern that has been read, with the number of levels it is nested. -/
structure Item where
  regex : Regex
  height : Nat
deriving Repr

namespace Item

/-- The height of something that consists of several items. -/
def heightAbove (items : List Item) : Nat :=
  (items.map Item.height).foldl max 0 + 1

def inSequence : List Item → Item
  | [] => ⟨.empty, 0⟩
  | [item] => item
  | items => ⟨sequence (items.map Item.regex), heightAbove items⟩

def inChoice : List Item → Item
  | [item] => item
  | items => ⟨choice (items.map Item.regex), heightAbove items⟩

end Item

/-- What has been read of a group: its finished branches and the items of the last one, both in
reverse order. -/
structure Group where
  /-- The number of the group, if it has one. -/
  index : Option Nat
  branches : List Item
  items : List Item
  repeatable : Bool
deriving Repr

namespace Group

def fresh (index : Option Nat) : Group :=
  ⟨index, [], [], false⟩

def push (group : Group) (item : Item) : Group :=
  { group with items := item :: group.items, repeatable := true }

def pushSettings (group : Group) : Group :=
  { group with items := ⟨.empty, 0⟩ :: group.items, repeatable := false }

def branch (group : Group) : Group :=
  ⟨group.index, Item.inSequence group.items.reverse :: group.branches, [], false⟩

def content (group : Group) : Item :=
  Item.inChoice group.branch.branches.reverse

def finish (group : Group) : Item :=
  let content := group.content
  let regex := match group.index with
    | some index => .capture index content.regex
    | none => content.regex
  ⟨regex, content.height + 1⟩

end Group

structure Reader where
  settings : Settings
  group : Group
  /-- The open groups around the current one, with the settings outside of it. -/
  outer : List (Settings × Group)
  names : List (List Char)
  captures : Nat
deriving Repr

namespace Reader

def literalRegex (settings : Settings) (c : Char) : Regex :=
  ofSet ((CharSet.one c).widen settings.ignoreCase)

def dotRegex (settings : Settings) : Regex :=
  .one (if settings.dotMatchesLineFeed then CharSet.none.complement
    else (CharSet.one '\n').complement)

def atomRegex (settings : Settings) : Atom → Regex
  | .literal c => literalRegex settings c
  | .set set => ofSet set
  | .assertion condition => .assertion condition

def push (reader : Reader) (regex : Regex) : Reader :=
  { reader with group := reader.group.push ⟨regex, 0⟩ }

def openGroup (reader : Reader) (settings : Settings) : Reader :=
  { reader with
    settings := settings
    group := .fresh none
    outer := (reader.settings, reader.group) :: reader.outer }

def openCapture (reader : Reader) : Reader :=
  { reader with
    group := .fresh (some (reader.captures + 1))
    outer := (reader.settings, reader.group) :: reader.outer
    captures := reader.captures + 1 }

def closeGroup? (reader : Reader) : Option Reader :=
  match reader.outer with
  | [] => none
  | (settings, parent) :: outer =>
    some { reader with
      settings := settings
      group := parent.push reader.group.finish
      outer := outer }

/-! ### Repetitions -/

def repeatLast? (reader : Reader) (min : Nat) (max : Option Nat) (cs : List Char) :
    Option (Reader × List Char) :=
  let (isLazy, rest) := match cs with
    | '?' :: rest => (true, rest)
    | _ => (false, cs)
  match reader.group.items, reader.group.repeatable with
  | item :: items, true =>
    let greedy := isLazy == reader.settings.lazyFirst
    let repeated : Item := ⟨item.regex.repeated min max greedy, item.height + 1⟩
    some ({ reader with group := { reader.group with items := repeated :: items } }, rest)
  | _, _ => none

/-- A decimal number below 2^32, with blanks allowed around it. -/
def readCount? (cs : List Char) : Option Nat × List Char :=
  let cs := cs.dropWhile Text.isBlank
  let digits := cs.takeWhile Char.isDigit
  let value := digits.foldl (fun value c => value * 10 + (c.toNat - '0'.toNat)) 0
  let rest := (cs.dropWhile Char.isDigit).dropWhile Text.isBlank
  (if digits.isEmpty || Nat.pow 2 32 ≤ value then none else some value, rest)

def readBounds? (cs : List Char) : Option ((Nat × Option Nat) × List Char) :=
  match readCount? cs with
  | (some min, '\x7d' :: rest) => some ((min, some min), rest)
  | (some min, ',' :: '\x7d' :: rest) => some ((min, none), rest)
  | (some min, ',' :: rest) =>
    match readCount? rest with
    | (some max, '\x7d' :: rest) => if min ≤ max then some ((min, some max), rest) else none
    | _ => none
  | _ => none

/-! ### Groups and settings -/

def beginsName (c : Char) : Bool :=
  c == '_' || Text.isAlphabetic c

def continuesName (c : Char) : Bool :=
  c == '_' || c == '.' || c == '[' || c == ']' || Text.isAlphabetic c || Text.isNumeric c

def isName : List Char → Bool
  | [] => false
  | c :: rest => beginsName c && rest.all continuesName

def readName? (reader : Reader) (cs : List Char) : Option (Reader × List Char) :=
  let name := cs.takeWhile (· != '>')
  match cs.dropWhile (· != '>') with
  | _ :: rest =>
    if isName name && !reader.names.contains name then
      some ({ reader with names := name :: reader.names }.openCapture, rest)
    else none
  | [] => none

/-- Letters of settings, each at most once, with one hyphen at most that comes before the ones
that are turned off and is not the last. -/
def applySettings? (settings : Settings) (seen : List Char) : List Char → Option Settings
  | [] => if seen.head? = some '-' then none else some settings
  | c :: rest =>
    if seen.contains c then none
    else if c = '-' then applySettings? settings (c :: seen) rest
    else do applySettings? (← settings.set? c (!seen.contains '-')) (c :: seen) rest

/-- Settings behind a question mark: they hold for the rest of the current group, or for a group
that they open. -/
def readSettings? (reader : Reader) (cs : List Char) : Option (Reader × List Char) := do
  let isEnd (c : Char) : Bool := c == ':' || c == ')'
  let letters := cs.takeWhile fun c => !isEnd c
  let settings ← applySettings? reader.settings [] letters
  match cs.dropWhile fun c => !isEnd c with
  | ':' :: rest => some (reader.openGroup settings, rest)
  | ')' :: rest =>
    if letters.isEmpty then none
    else
      some ({ reader with settings := settings, group := reader.group.pushSettings }, rest)
  | _ => none

def readOpening? (reader : Reader) : List Char → Option (Reader × List Char)
  | '?' :: '=' :: _ => none
  | '?' :: '!' :: _ => none
  | '?' :: '<' :: '=' :: _ => none
  | '?' :: '<' :: '!' :: _ => none
  | '?' :: 'P' :: '<' :: rest => readName? reader rest
  | '?' :: '<' :: rest => readName? reader rest
  | '?' :: rest => readSettings? reader rest
  | rest => some (reader.openCapture, rest)

/-! ### The reader -/

def step? (reader : Reader) : List Char → Option (Reader × List Char)
  | [] => none
  | '(' :: rest => readOpening? reader rest
  | ')' :: rest => (closeGroup? reader).map (·, rest)
  | '|' :: rest => some ({ reader with group := reader.group.branch }, rest)
  | '[' :: rest => do
    let (listed, rest) ← Bracket.read? reader.settings.ignoreCase rest
    some ({ reader with group := reader.group.push ⟨ofSet listed.set, listed.height⟩ }, rest)
  | '?' :: rest => repeatLast? reader 0 (some 1) rest
  | '*' :: rest => repeatLast? reader 0 none rest
  | '+' :: rest => repeatLast? reader 1 none rest
  | '\x7b' :: rest => do
    let ((min, max), rest) ← readBounds? rest
    repeatLast? reader min max rest
  | '.' :: rest => some (reader.push (dotRegex reader.settings), rest)
  | '^' :: rest =>
    let condition := if reader.settings.everyLine then .lineStart else .textStart
    some (reader.push (.assertion condition), rest)
  | '$' :: rest =>
    let condition := if reader.settings.everyLine then .lineEnd else .textEnd
    some (reader.push (.assertion condition), rest)
  | '\\' :: rest => do
    let (atom, rest) ← readEscape? rest
    some (reader.push (atomRegex reader.settings atom), rest)
  | c :: rest => some (reader.push (literalRegex reader.settings c), rest)

def readAll? : Nat → Reader → List Char → Option Reader
  | _, reader, [] => some reader
  | 0, _, _ :: _ => none
  | budget + 1, reader, cs => do
    let (reader, rest) ← step? reader cs
    readAll? budget reader rest

end Reader

def maxHeight : Nat := 250

def read? (pattern : List Char) : Option Regex := do
  let reader ← Reader.readAll? pattern.length ⟨{}, .fresh none, [], [], 0⟩ pattern
  let content := reader.group.content
  if reader.outer.isEmpty && content.height ≤ maxHeight then some content.regex else none

end Packrat.Regex
