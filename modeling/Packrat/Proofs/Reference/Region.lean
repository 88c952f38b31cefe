import Packrat.Proofs.Derivation.Counted
import Packrat.Proofs.Reference.Erase
import Packrat.Proofs.Reference.Guarded

/-!
What is known of rules that are still being resolved is not their match, so it must not be read.
Which entries a task may read is told by a region: from a place on, the entries of all symbols
further behind, and at the place itself those of the symbols that may be first (`Input.Ahead`). In
a chart that agrees with the reference on a region, every entry there is what the reference finds;
a task leaves such a chart, and changes nothing outside (`Chart.Step`).
-/

set_option autoImplicit false
set_option linter.unusedSectionVars false

namespace Packrat

variable {V : Type} [Kinded V]

abbrev Region : Type := Nat → Symbol → Prop

/-- The entries that matching from an offset on may read, if only some rules may be first. -/
def Input.Ahead (input : Input V) (first : Symbol → Prop) (start : Nat) : Region :=
  fun offset symbol =>
    ∃ place, input.settle? start = some place ∧
      (place < offset ∨ offset = place ∧ (input.grammar.isRule symbol = true → first symbol))

def Grammar.Closed (grammar : Grammar V) (first : Symbol → Prop) : Prop :=
  ∀ {symbol corner}, first symbol → grammar.LeftCorner symbol corner → first corner

def Grammar.Admits (grammar : Grammar V) (first : Symbol → Prop) (symbols : List Symbol) : Prop :=
  ∀ symbol ∈ symbols, grammar.isRule symbol = true → first symbol

namespace Input

variable {input : Input V} {first : Symbol → Prop}

theorem Ahead.mono {wider : Symbol → Prop} (sub : ∀ symbol, first symbol → wider symbol)
    {start offset : Nat} {symbol : Symbol} (ahead : input.Ahead first start offset symbol) :
    input.Ahead wider start offset symbol := by
  rcases ahead with ⟨place, settled, behind | ⟨here, admitted⟩⟩
  · exact ⟨place, settled, .inl behind⟩
  · exact ⟨place, settled, .inr ⟨here, fun isRule => sub symbol (admitted isRule)⟩⟩

theorem Ahead.of_passes {wider : Symbol → Prop} {cursor next : Position}
    (passes : input.Passes cursor next) (valid : (input.rest? cursor.offset).isSome)
    {offset : Nat} {symbol : Symbol} (ahead : input.Ahead wider next.offset offset symbol) :
    input.Ahead first cursor.offset offset symbol := by
  obtain ⟨landing, landed⟩ := Input.land_exists valid
  have settled := Input.land_settle? landed
  have further := passes settled
  rcases ahead with ⟨place, settledNext, behind | ⟨rfl, -⟩⟩
  · have forward := Input.le_of_settle? settledNext
    exact ⟨_, settled, .inl (by omega)⟩
  · have forward := Input.le_of_settle? settledNext
    exact ⟨_, settled, .inl (by omega)⟩

/-- At the very place, only the rules that may be first are read. -/
theorem Ahead.first_of_rule {place : Nat} {symbol : Symbol}
    (settled : input.settle? place = some place) (ahead : input.Ahead first place place symbol)
    (isRule : input.grammar.isRule symbol = true) : first symbol := by
  rcases ahead with ⟨other, same, behind | ⟨-, admitted⟩⟩
  · rw [settled] at same
    cases same
    exact absurd behind (Nat.lt_irrefl _)
  · exact admitted isRule

/-- The entry of a rule itself is the only one at its place that is added to a region. -/
theorem Ahead.or_self {place : Nat} {symbol : Symbol} (settled : input.settle? place = some place)
    {offset : Nat} {other : Symbol}
    (ahead : input.Ahead (fun other => other = symbol) place offset other) :
    input.Ahead first place offset other ∨ offset = place ∧ other = symbol := by
  rcases ahead with ⟨same, settles, behind | ⟨here, itself⟩⟩
  · exact .inl ⟨same, settles, .inl behind⟩
  · cases settled.symm.trans settles
    by_cases isRule : input.grammar.isRule other = true
    · exact .inr ⟨here, itself isRule⟩
    · exact .inl ⟨place, settled, .inr ⟨here, fun rule => absurd rule isRule⟩⟩

theorem Ahead.settle {start place : Nat} (settled : input.settle? start = some place)
    (again : input.settle? place = some place) (offset : Nat) (symbol : Symbol) :
    input.Ahead first place offset symbol ↔ input.Ahead first start offset symbol := by
  unfold Ahead
  rw [settled, again]

end Input

namespace Chart

/-- What is known in a region is what the reference finds. -/
def Faithful (chart : Chart V) (input : Input V) (region : Region) : Prop :=
  ∀ ⦃offset symbol entry cell⦄, region offset symbol →
    chart.known? offset symbol = some entry → chart.lexicalAt? offset = some cell →
      Parses input (.resolve cell.position symbol) (.tree (entry.map Token.tree))

/-- A chart whose entries are derived, whose cells lie at positions of the text, and whose entries
in a region are what the reference finds. -/
structure Agrees (chart : Chart V) (input : Input V) (region : Region) : Prop where
  sound : chart.Sound input
  counted : chart.Counted input
  faithful : chart.Faithful input region

/-- From one chart to a later one that agrees with the reference on a region; outside the entries
that may be touched, nothing has changed. -/
structure Step (before after : Chart V) (input : Input V) (region touched : Region) : Prop where
  grown : before.Extends after
  agrees : after.Agrees input region
  frame : ∀ {offset symbol}, ¬ touched offset symbol →
    after.known? offset symbol = before.known? offset symbol

variable {input : Input V} {before between after : Chart V} {region touched narrow : Region}

theorem Arena.lexicalAt?_of_known {chart : Chart V} (arena : chart.Arena input) {offset : Nat}
    {symbol : Symbol} {entry : Option (Token V)}
    (known : chart.known? offset symbol = some entry) :
    ∃ cell, chart.lexicalAt? offset = some cell := by
  obtain ⟨cell, here, -⟩ := Option.bind_eq_some_iff.1 known
  exact ⟨cell.lexical, arena.syntactic here⟩

theorem Faithful.entry {wide : Region} (faithful : before.Faithful input wide)
    (arena : before.Arena input) (grown : before.Extends after) {offset : Nat} {symbol : Symbol}
    {entry : Option (Token V)} {cell : LexicalCell V} (inside : wide offset symbol)
    (same : after.known? offset symbol = before.known? offset symbol)
    (known : after.known? offset symbol = some entry)
    (here : after.lexicalAt? offset = some cell) :
    Parses input (.resolve cell.position symbol) (.tree (entry.map Token.tree)) := by
  rw [same] at known
  obtain ⟨old, found⟩ := arena.lexicalAt?_of_known known
  cases (grown.lexical found).symm.trans here
  exact faithful inside known found

theorem Agrees.restrict (agrees : before.Agrees input region)
    (sub : ∀ offset symbol, narrow offset symbol → region offset symbol) :
    before.Agrees input narrow :=
  ⟨agrees.sound, agrees.counted, fun _ _ _ _ inside => agrees.faithful (sub _ _ inside)⟩

theorem Agrees.keep (agrees : before.Agrees input region) (sound : after.Sound input)
    (counted : after.Counted input) (grown : before.Extends after)
    (same : ∀ offset symbol, region offset symbol →
      after.known? offset symbol = before.known? offset symbol) :
    after.Agrees input region :=
  ⟨sound, counted, fun _ _ _ _ inside =>
    agrees.faithful.entry agrees.sound.arena grown inside (same _ _ inside)⟩

namespace Step

theorem refl (agrees : before.Agrees input region) : before.Step before input region touched :=
  ⟨.refl _, agrees, fun _ => rfl⟩

theorem trans (earlier : before.Step between input region touched)
    (later : between.Step after input region touched) :
    before.Step after input region touched :=
  ⟨earlier.grown.trans later.grown, later.agrees,
    fun outside => (later.frame outside).trans (earlier.frame outside)⟩

theorem agrees_of (step : before.Step after input narrow touched)
    (agrees : before.Agrees input region)
    (apart : ∀ offset symbol, region offset symbol → touched offset symbol →
      narrow offset symbol) : after.Agrees input region := by
  refine ⟨step.agrees.sound, step.agrees.counted, ?_⟩
  intro offset symbol entry cell inside known here
  by_cases changed : touched offset symbol
  · exact step.agrees.faithful (apart _ _ inside changed) known here
  · exact agrees.faithful.entry agrees.sound.arena step.grown inside (step.frame changed) known
      here

theorem widen (step : before.Step after input narrow narrow) (agrees : before.Agrees input region)
    (sub : ∀ offset symbol, narrow offset symbol → touched offset symbol) :
    before.Step after input region touched :=
  ⟨step.grown, step.agrees_of agrees fun _ _ _ inside => inside,
    fun outside => step.frame fun inside => outside (sub _ _ inside)⟩

theorem of_same (agrees : before.Agrees input region) (sound : after.Sound input)
    (counted : after.Counted input) (grown : before.Extends after)
    (same : ∀ offset symbol, after.known? offset symbol = before.known? offset symbol) :
    before.Step after input region touched :=
  ⟨grown, agrees.keep sound counted grown fun offset symbol _ => same offset symbol,
    fun _ => same _ _⟩

end Step

theorem Agrees.lexicalCell {origin : Position} {cell : LexicalCell V}
    (agrees : before.Agrees input region) (counts : input.Counts origin)
    (asked : before.lexicalCell input origin = .ok (cell, after)) :
    before.Step after input region touched := by
  obtain ⟨arena, gained, -⟩ := lexicalCell_spec agrees.sound.arena asked
  exact .of_same agrees (agrees.sound.gains gained arena)
    (agrees.counted.lexicalCell counts asked) gained.grown gained.known

theorem Agrees.literal {offset : Nat} {cell : LexicalCell V} {text : String}
    {found : Option (Lexeme V)} (agrees : before.Agrees input region)
    (here : before.lexicalAt? offset = some cell)
    (done : before.literal cell text = (found, after)) :
    before.Step after input region touched := by
  obtain ⟨sound, gained, -⟩ := literal_sound agrees.sound here done
  exact .of_same agrees sound (agrees.counted.literal done) gained.grown gained.known

theorem Agrees.literalAt {origin : Position} {text : String} {found : Option (Lexeme V)}
    (agrees : before.Agrees input region) (counts : input.Counts origin)
    (asked : before.literalAt input origin text = .ok (found, after)) :
    before.Step after input region touched := by
  obtain ⟨arena, gained, -⟩ := literalAt_spec agrees.sound.arena asked
  exact .of_same agrees (agrees.sound.gains gained arena)
    (agrees.counted.literalAt counts asked) gained.grown gained.known

theorem Agrees.syntaxCell {origin : Position} {cell : SyntaxCell V}
    (agrees : before.Agrees input region) (counts : input.Counts origin)
    (asked : before.syntaxCell input origin = .ok (cell, after)) :
    before.Step after input region touched := by
  obtain ⟨arena, gained, -⟩ := syntaxCell_spec agrees.sound.arena asked
  exact .of_same agrees (agrees.sound.gains gained arena)
    (agrees.counted.syntaxCell counts asked) gained.grown gained.known

theorem Agrees.made {symbol : Symbol} {index : Nat} {parts : List (Child V)} {node : Token V}
    (agrees : before.Agrees input region)
    (done : makeNode symbol index parts before = (some node, after)) :
    before.Step after input region touched := by
  obtain ⟨sound, grown⟩ := agrees.sound.made done
  obtain ⟨-, -, -, -, -, rfl⟩ := makeNode_eq_some done
  exact .of_same agrees sound agrees.counted grown fun _ _ => rfl

theorem Agrees.of_cells (agrees : before.Agrees input region) (after : Chart V)
    (lexical : after.lexical = before.lexical) (syntactic : after.syntactic = before.syntactic)
    (literals : after.literals = before.literals) (entered : after.entered = before.entered) :
    before.Step after input region touched := by
  obtain ⟨sound, grown⟩ := agrees.sound.of_cells after lexical syntactic literals entered
  refine .of_same agrees sound ?_ grown ?_
  · intro offset cell here
    rw [lexicalAt?, lexical] at here
    exact agrees.counted here
  · intro offset symbol
    rw [known?, syntacticAt?, syntactic]
    rfl

theorem Agrees.report (agrees : before.Agrees input region) (event : Event) :
    before.Step (before.report event) input region touched :=
  agrees.of_cells _ rfl rfl rfl rfl

/-! ### Rules that are resolved -/

section Resolving

variable {cell : LexicalCell V} {symbol : Symbol} {first corners : Symbol → Prop}

theorem Agrees.enter (agrees : before.Agrees input (input.Ahead first cell.position.offset))
    (held : before.Holds cell) (unknown : before.known? cell.position.offset symbol = none)
    (isRule : input.grammar.isRule symbol = true)
    (sub : ∀ corner, corners corner → first corner) (apart : ¬ corners symbol) :
    (before.enter cell.position.offset symbol).Agrees input
      (input.Ahead corners cell.position.offset) := by
  have settled := (held.scanned agrees.sound.arena).settled
  obtain ⟨sound, grown⟩ := agrees.sound.enter held unknown
  refine (agrees.restrict fun _ _ ahead => ahead.mono sub).keep sound agrees.counted grown ?_
  intro offset other inside
  rw [held.known?_enter, if_neg]
  rintro ⟨rfl, rfl⟩
  exact apart (inside.first_of_rule settled isRule)

theorem Agrees.store {token : Token V}
    (agrees : before.Agrees input (input.Ahead (fun _ => False) cell.position.offset))
    (held : before.Holds cell) (isRule : input.grammar.isRule symbol = true)
    (derived : Derives input before (.matched cell symbol token)) :
    before.Step (before.store cell.position.offset symbol (some token)) input
        (input.Ahead (fun _ => False) cell.position.offset)
        (input.Ahead (fun other => other = symbol) cell.position.offset) ∧
      (before.store cell.position.offset symbol (some token)).known? cell.position.offset
        symbol = some (some token) := by
  have settled := (held.scanned agrees.sound.arena).settled
  obtain ⟨sound, grown⟩ := agrees.sound.store held token derived
  refine ⟨⟨grown, agrees.keep sound agrees.counted grown ?_, ?_⟩, ?_⟩
  · intro offset other inside
    rw [held.known?_store, if_neg]
    rintro ⟨rfl, rfl⟩
    exact inside.first_of_rule settled isRule
  · intro offset other outside
    rw [held.known?_store, if_neg]
    rintro ⟨rfl, rfl⟩
    exact outside ⟨_, settled, .inr ⟨rfl, fun _ => rfl⟩⟩
  · rw [held.known?_store, if_pos ⟨rfl, rfl⟩]

/-- When a rule has been resolved, its entry is what the reference finds, and all others are what
they were or agree since the left corners have been resolved. -/
theorem Step.resolved {found : Option (Token V)}
    (agrees : before.Agrees input (input.Ahead first cell.position.offset))
    (held : before.Holds cell) (isFirst : first symbol)
    (sub : ∀ corner, corners corner → first corner) (grown : before.Extends after)
    (later : after.Agrees input (input.Ahead corners cell.position.offset))
    (frame : ∀ offset other, ¬ input.Ahead corners cell.position.offset offset other →
      ¬ (offset = cell.position.offset ∧ other = symbol) →
        after.known? offset other = before.known? offset other)
    (own : after.known? cell.position.offset symbol = some found)
    (parses : Parses input (.resolve cell.position symbol) (.tree (found.map Token.tree))) :
    before.Step after input (input.Ahead first cell.position.offset)
      (input.Ahead first cell.position.offset) := by
  have settled := (held.scanned agrees.sound.arena).settled
  have lexical := (held.mono grown).lexicalAt? later.sound.arena
  refine ⟨grown, ⟨later.sound, later.counted, ?_⟩, ?_⟩
  · intro offset other entry found inside known here
    by_cases ours : offset = cell.position.offset ∧ other = symbol
    · rcases ours with ⟨rfl, rfl⟩
      cases own.symm.trans known
      cases lexical.symm.trans here
      exact parses
    · by_cases read : input.Ahead corners cell.position.offset offset other
      · exact later.faithful read known here
      · exact agrees.faithful.entry agrees.sound.arena grown inside (frame _ _ read ours) known
          here
  · intro offset other outside
    refine frame offset other (fun read => outside (read.mono sub)) ?_
    rintro ⟨rfl, rfl⟩
    exact outside ⟨_, settled, .inr ⟨rfl, fun _ => isFirst⟩⟩

end Resolving

end Chart

end Packrat
