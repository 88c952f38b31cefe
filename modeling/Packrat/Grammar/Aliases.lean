import Packrat.Symbol

/-!
Aliases, which stand for the longest match among other symbols. They are registered in the order of
declaration, with an index of their places by symbol, and put in order so that each comes after the
aliases it refers to: the aliases are visited as they are registered, and the targets of an alias
before the alias itself. An alias that is met again while it is being visited lies on a cycle.
-/

set_option autoImplicit false

namespace Packrat

structure Alias where
  symbol : Symbol
  targets : List Symbol
deriving DecidableEq, Repr

/-- Adds an alias to those that are placed already, after all that it refers to. `path` holds the
symbols of the aliases that are being visited; the budget bounds its length. -/
def Alias.visit (find? : Symbol → Option Alias) :
    Nat → (path : List Symbol) → (placed : List Alias) → Alias → Except Symbol (List Alias)
  | budget, path, placed, entry =>
    if placed.any fun other => other.symbol == entry.symbol then .ok placed
    else if path.contains entry.symbol then .error entry.symbol
    else match budget with
      | 0 => .error entry.symbol
      | budget + 1 => do
        let targets := entry.targets.filterMap find?
        let placed ← targets.foldlM (visit find? budget (entry.symbol :: path)) placed
        return placed ++ [entry]

/-- Registered aliases, with the place of each by its symbol. -/
structure Aliases where
  entries : List Alias := []
  index : List (Symbol × Nat) := []
deriving DecidableEq, Repr

namespace Aliases

def ofEntries (entries : List Alias) : Aliases :=
  ⟨entries, (entries.map Alias.symbol).zipIdx⟩

def place? (aliases : Aliases) (symbol : Symbol) : Option Nat :=
  aliases.index.lookup symbol

def contains (aliases : Aliases) (symbol : Symbol) : Bool :=
  (aliases.place? symbol).isSome

def find? (aliases : Aliases) (symbol : Symbol) : Option Alias := do
  aliases.entries[← aliases.place? symbol]?

def add (symbol : Symbol) (targets : List Symbol) (aliases : Aliases) : Aliases :=
  match aliases.place? symbol with
  | some place =>
    let extend (entry : Alias) : Alias := ⟨entry.symbol, entry.targets ++ targets⟩
    { aliases with entries := aliases.entries.modify place extend }
  | none =>
    ⟨aliases.entries ++ [⟨symbol, targets⟩], aliases.index ++ [(symbol, aliases.entries.length)]⟩

def sort : EStateM Symbol Aliases Unit := do
  let aliases ← get
  let visit := Alias.visit aliases.find? aliases.entries.length []
  match aliases.entries.foldlM visit [] with
  | .ok placed => set (ofEntries placed)
  | .error symbol => throw symbol

end Aliases

end Packrat
