import Packrat.Grammar.Basic
import Packrat.Text.Cuts
import Std.Data.TreeMap.Lemmas

/-!
The memo of one text under one grammar. For each place that has been asked about there is a
lexical cell with the matches of all terminals and aliases there, and possibly a syntax cell with
the rules that have been resolved there. Cells are kept under the offset behind the blank text, so
places that differ by blank text only share their cells.

`Chart.known?_store` and `Chart.literal?_storeLiteral` say what setting one entry changes: nothing
but this entry.
-/

set_option autoImplicit false

namespace Packrat

/-- A text to be parsed under a grammar. -/
structure Input (V : Type) [Kinded V] where
  grammar : Grammar V
  source : List Char
  length : Nat := Text.byteLength source
  length_eq : length = Text.byteLength source := by rfl
  /-- What follows each byte offset of the text. -/
  cuts : Array (Option (List Char)) := Text.cuts source
  cuts_eq : cuts = Text.cuts source := by rfl

def Input.rest? {V : Type} [Kinded V] (input : Input V) (offset : Nat) : Option (List Char) :=
  input.cuts[offset]?.join

theorem Input.rest?_eq {V : Type} [Kinded V] (input : Input V) (offset : Nat) :
    input.rest? offset = Text.dropBytes? input.source offset := by
  rw [Input.rest?, input.cuts_eq, Text.cuts_getElem?_join]

/-- A place behind the blank text, with what was skipped and what remains. -/
structure Landing where
  origin : Position
  blank : List Char
  position : Position
  rest : List Char

/-- The matches at a place. They are numbered from `first` on. -/
structure LexicalCell (V : Type) extends Landing where
  leaves : List (Leaf V)
  first : Nat := 0

/-- The rules that have been resolved at a place. An entry without a token stands for a rule that
does not match there, or is being resolved. -/
structure SyntaxCell (V : Type) where
  lexical : LexicalCell V
  entries : List (Symbol × Option (Token V))

/-- All that is known about a text. -/
structure Chart (V : Type) where
  /-- The lexical cells, by the offsets of their places. -/
  lexical : Std.TreeMap Nat (LexicalCell V) := {}
  /-- The syntax cells, by the offsets of their places. -/
  syntactic : Std.TreeMap Nat (SyntaxCell V) := {}
  /-- The literal texts that have been asked for, by the offsets of the places. An entry without a
  leaf stands for a text that is not there. -/
  literals : Std.TreeMap Nat (List (String × Option (Lexeme V))) := {}
  /-- The number of leaves that have been made, which is also the number of the next. -/
  leaves : Nat := 0
  /-- The number of nodes that have been made, which is also the number of the next. -/
  created : Nat := 0
  /-- The values of evaluated nodes, by the numbers of the nodes. -/
  values : Std.TreeMap Nat (Option V) := {}
  /-- The rules whose alternatives have been tried, with the offsets of the places, the latest
  first. -/
  entered : List (Symbol × Nat) := []
  /-- What has happened, the latest first. -/
  log : List Event := []

namespace LexicalCell

variable {V : Type}

def leaf? (cell : LexicalCell V) (symbol : Symbol) : Option (Leaf V) :=
  cell.leaves.find? fun leaf => leaf.symbol == symbol

def numbered (cell : LexicalCell V) (first : Nat) : LexicalCell V :=
  { cell with first := first }

def lexemes (cell : LexicalCell V) : List (Lexeme V) :=
  cell.leaves.mapIdx fun index leaf => ⟨leaf, cell.first + index⟩

def lexeme? (cell : LexicalCell V) (symbol : Symbol) : Option (Lexeme V) :=
  cell.lexemes.find? fun lexeme => lexeme.symbol == symbol

def literal? (cell : LexicalCell V) (text : String) : Option (Leaf V) :=
  if text.toList.isPrefixOf cell.rest then
    some {
      symbol := .unknown
      blank := cell.blank
      text := text.toList
      start := cell.position
      stop := cell.position.through text.toList
      value := none }
  else none

def furthest (leaves : List (Leaf V)) : Option (Leaf V) :=
  leaves.foldl
    (fun best leaf =>
      match best with
      | none => some leaf
      | some other => if other.stop.offset < leaf.stop.offset then some leaf else some other)
    none

/-- The match that reaches furthest; of several, the one that was declared first. -/
def longest (cell : LexicalCell V) : Option (Leaf V) :=
  furthest cell.leaves

def atEnd (cell : LexicalCell V) : Bool :=
  cell.rest.isEmpty

def render (cell : LexicalCell V) : String :=
  s!"LexisContext \x7b position: {cell.position.describe}, " ++
    s!"leaves: {Text.bracketed (cell.leaves.map Leaf.render)} \x7d"

end LexicalCell

namespace SyntaxCell

variable {V : Type}

def known? (cell : SyntaxCell V) (symbol : Symbol) : Option (Option (Token V)) :=
  cell.entries.lookup symbol

def setEntry (symbol : Symbol) (entry : Option (Token V)) :
    List (Symbol × Option (Token V)) → List (Symbol × Option (Token V))
  | [] => [(symbol, entry)]
  | (other, old) :: rest =>
    if other = symbol then (symbol, entry) :: rest else (other, old) :: setEntry symbol entry rest

def store (cell : SyntaxCell V) (symbol : Symbol) (entry : Option (Token V)) : SyntaxCell V :=
  { cell with entries := setEntry symbol entry cell.entries }

def render (cell : SyntaxCell V) : String :=
  s!"SyntaxContext \x7b position: {cell.lexical.position.describe}, " ++
    s!"resolved: {cell.entries.length} \x7d"

end SyntaxCell

namespace Chart

variable {V : Type}

def report (chart : Chart V) (event : Event) : Chart V :=
  { chart with log := event :: chart.log }

def lexicalAt? (chart : Chart V) (offset : Nat) : Option (LexicalCell V) :=
  chart.lexical[offset]?

def syntacticAt? (chart : Chart V) (offset : Nat) : Option (SyntaxCell V) :=
  chart.syntactic[offset]?

def literal? (chart : Chart V) (offset : Nat) (text : String) : Option (Option (Lexeme V)) :=
  (chart.literals[offset]?).bind (·.lookup text)

def known? (chart : Chart V) (offset : Nat) (symbol : Symbol) : Option (Option (Token V)) :=
  (chart.syntacticAt? offset).bind (·.known? symbol)

def render [Kinded V] (input : Input V) (chart : Chart V) : String :=
  s!"Session \x7b length: {input.length}, lexis_contexts: {chart.lexical.size}, " ++
    s!"syntax_contexts: {chart.syntactic.size} \x7d"

def store (chart : Chart V) (offset : Nat) (symbol : Symbol) (entry : Option (Token V)) :
    Chart V :=
  { chart with syntactic := chart.syntactic.modify offset (·.store symbol entry) }

def storeLiteral (chart : Chart V) (offset : Nat) (text : String) (entry : Option (Lexeme V)) :
    Chart V :=
  let entries := (chart.literals[offset]?).getD []
  { chart with literals := chart.literals.insert offset ((text, entry) :: entries) }

/-- Notes that the alternatives of a rule are about to be tried under an offset. Meanwhile the rule
counts as not matching there. -/
def enter (chart : Chart V) (offset : Nat) (symbol : Symbol) : Chart V :=
  { chart.store offset symbol none with entered := (symbol, offset) :: chart.entered }

end Chart

/-! ### Laws of setting entries -/

private theorem lookup_setEntry {V : Type} (symbol other : Symbol) (entry : Option (Token V))
    (entries : List (Symbol × Option (Token V))) :
    (SyntaxCell.setEntry symbol entry entries).lookup other =
      if symbol = other then some entry else entries.lookup other := by
  induction entries with
  | nil =>
      by_cases same : symbol = other
      · simp [SyntaxCell.setEntry, same]
      · have differs : (other == symbol) = false := by simpa using Ne.symm same
        simp [SyntaxCell.setEntry, List.lookup_cons, differs, same]
  | cons head rest ih =>
      obtain ⟨found, old⟩ := head
      by_cases taken : found = symbol
      · subst taken
        by_cases same : found = other
        · simp [SyntaxCell.setEntry, same]
        · have differs : (other == found) = false := by simpa using Ne.symm same
          simp [SyntaxCell.setEntry, List.lookup_cons, differs, same]
      · rw [SyntaxCell.setEntry, if_neg taken]
        by_cases same : other = found
        · subst same
          simp [Ne.symm taken]
        · have differs : (other == found) = false := by simpa using same
          simp [List.lookup_cons, differs, ih]

/-- Setting what is known about a rule changes nothing for the others. -/
theorem SyntaxCell.known?_store {V : Type} (cell : SyntaxCell V) (symbol other : Symbol)
    (entry : Option (Token V)) :
    (cell.store symbol entry).known? other =
      if symbol = other then some entry else cell.known? other :=
  lookup_setEntry symbol other entry cell.entries

/-- Setting an entry changes the cell under its offset, if there is one, and no other. -/
theorem Chart.syntacticAt?_store {V : Type} (chart : Chart V) (offset place : Nat)
    (symbol : Symbol) (entry : Option (Token V)) :
    (chart.store offset symbol entry).syntacticAt? place =
      if offset = place then (chart.syntacticAt? offset).map (·.store symbol entry)
      else chart.syntacticAt? place := by
  simp [syntacticAt?, store, Std.TreeMap.getElem?_modify]

/-- Where there is a cell, setting an entry makes exactly this entry known. -/
theorem Chart.known?_store {V : Type} (chart : Chart V) (offset place : Nat)
    (symbol other : Symbol) (entry : Option (Token V)) :
    (chart.store offset symbol entry).known? place other =
      if offset = place ∧ symbol = other then (chart.syntacticAt? offset).map fun _ => entry
      else chart.known? place other := by
  rw [known?, syntacticAt?_store]
  by_cases here : offset = place
  · subst here
    cases found : chart.syntacticAt? offset <;> by_cases same : symbol = other <;>
      simp [SyntaxCell.known?_store, same, known?, found]
  · simp [here, known?]

theorem Chart.literal?_storeLiteral {V : Type} (chart : Chart V) (offset place : Nat)
    (text other : String) (entry : Option (Lexeme V)) :
    (chart.storeLiteral offset text entry).literal? place other =
      if offset = place ∧ text = other then some entry else chart.literal? place other := by
  unfold literal? storeLiteral
  simp only [Std.TreeMap.getElem?_insert, Std.compare_eq_iff_eq]
  by_cases here : offset = place
  · subst here
    rw [if_pos rfl, Option.bind_some, List.lookup_cons]
    by_cases same : text = other
    · simp [same]
    · rw [beq_false_of_ne (Ne.symm same), if_neg fun both => same both.2]
      cases chart.literals[offset]? with
      | none => rfl
      | some entries => rfl
  · rw [if_neg here, if_neg fun both => here both.1]

end Packrat
