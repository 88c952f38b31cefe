import Packrat.Chart.Basic

/-!
Filling the lexical layer. Asking for the cell at a place first skips blank text; the cell behind it
is made at the first request, and holds the longest match of every terminal and every alias. Literal
texts are looked for when they are asked for, each once at a place.
-/

set_option autoImplicit false

namespace Packrat

variable {V : Type} [Kinded V]

def Input.land (input : Input V) (origin : Position) : Except PositionError Landing :=
  match input.rest? origin.offset with
  | none => .error (.outside origin.offset input.length)
  | some rest =>
    let blank := rest.takeWhile input.grammar.isBlank
    .ok ⟨origin, blank, origin.through blank, rest.dropWhile input.grammar.isBlank⟩

namespace LexicalCell

/-! ### Terminals -/

/-- Of several candidates with their lengths, the first with the greatest length. -/
def longestCandidate (candidates : List (Candidate V)) (text : List Char) :
    Option (Nat × Candidate V) :=
  candidates.foldl
    (fun best candidate =>
      match candidate.scanner.scan text with
      | none => best
      | some length =>
        match best with
        | none => some (length, candidate)
        | some (other, _) => if other < length then some (length, candidate) else best)
    none

def scanTerminal (landing : Landing) (terminal : Terminal V) : Option (Leaf V × Candidate V) := do
  let (length, candidate) ← longestCandidate terminal.candidates landing.rest
  let text ← Text.takeBytes? landing.rest length
  return ({
    symbol := terminal.symbol
    blank := landing.blank
    text := text
    start := landing.position
    stop := landing.position.through text
    value := candidate.transform.map fun transform => transform text }, candidate)

def transformEvents (leaf : Leaf V) (candidate : Candidate V) : List Event :=
  if candidate.transform.isSome then [.transformed leaf.symbol leaf.text] else []

/-! ### Aliases -/

/-- The matches of the targets of an alias, in order of the targets. -/
def targetLeaves (leaves : List (Leaf V)) (entry : Alias) : List (Leaf V) :=
  entry.targets.filterMap fun target => leaves.find? fun leaf => leaf.symbol == target

/-- Adds the match of an alias to the matches so far. A symbol that has a match already keeps it. -/
def addAlias (leaves : List (Leaf V)) (entry : Alias) : List (Leaf V) :=
  if leaves.any fun leaf => leaf.symbol == entry.symbol then leaves
  else match furthest (targetLeaves leaves entry) with
    | some leaf => leaves ++ [leaf.retag entry.symbol]
    | none => leaves

def scan (grammar : Grammar V) (landing : Landing) : LexicalCell V × List Event :=
  let own := grammar.terminals.filterMap (scanTerminal landing)
  let leaves := grammar.aliases.entries.foldl addAlias (own.map (·.1))
  ({ landing with leaves := leaves },
    own.flatMap (fun (leaf, candidate) => transformEvents leaf candidate) ++
      [.scanned landing.position leaves.length])

end LexicalCell

namespace Chart

def lexicalCell (input : Input V) (origin : Position) (chart : Chart V) :
    Except PositionError (LexicalCell V × Chart V) :=
  match input.land origin with
  | .error refusal => .error refusal
  | .ok landing =>
    match chart.lexicalAt? landing.position.offset with
    | some cell => .ok (cell, chart)
    | none =>
      let (scanned, events) := LexicalCell.scan input.grammar landing
      let cell := scanned.numbered chart.leaves
      .ok (cell, { chart with
        lexical := chart.lexical.insert landing.position.offset cell
        leaves := chart.leaves + cell.leaves.length
        log := events.reverse ++ chart.log })

/-- The leaf of a literal text in a cell. It is made when it is asked for first; also that there is
none is kept. -/
def literal (cell : LexicalCell V) (text : String) (chart : Chart V) :
    Option (Lexeme V) × Chart V :=
  match chart.literal? cell.position.offset text with
  | some known => (known, chart)
  | none =>
    match cell.literal? text with
    | none => (none, chart.storeLiteral cell.position.offset text none)
    | some leaf =>
      let lexeme : Lexeme V := ⟨leaf, chart.leaves⟩
      let made := { chart with leaves := chart.leaves + 1 }
      (some lexeme, made.storeLiteral cell.position.offset text (some lexeme))

def literalAt (input : Input V) (origin : Position) (text : String) (chart : Chart V) :
    Except PositionError (Option (Lexeme V) × Chart V) :=
  match chart.lexicalCell input origin with
  | .error refusal => .error refusal
  | .ok (cell, chart) => .ok (chart.literal cell text)

def syntaxCell (input : Input V) (origin : Position) (chart : Chart V) :
    Except PositionError (SyntaxCell V × Chart V) :=
  match chart.lexicalCell input origin with
  | .error refusal => .error refusal
  | .ok (lexical, chart) =>
    match chart.syntacticAt? lexical.position.offset with
    | some cell => .ok (cell, chart)
    | none =>
      let cell : SyntaxCell V := ⟨lexical, []⟩
      .ok (cell, { chart with
        syntactic := chart.syntactic.insert lexical.position.offset cell })

end Chart

end Packrat
