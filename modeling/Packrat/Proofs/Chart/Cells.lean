import Packrat.Chart.Lexical

/-!
The cells of a chart. Every lexical cell is what scanning finds at the place under whose offset it
is kept, and every syntax cell holds the lexical cell of its place (`Chart.Arena`). Asking for
cells adds cells and changes none (`Chart.Extends`); it makes nothing known about rules.
-/

set_option autoImplicit false
set_option linter.unusedSectionVars false

namespace Packrat

variable {V : Type} [Kinded V]

/-! ### Places behind blank text -/

theorem Text.head?_dropWhile {isBlank : Char → Bool} (text : List Char) :
    (text.dropWhile isBlank).head?.any isBlank = false := by
  cases onward : text.dropWhile isBlank with
  | nil => rfl
  | cons c more =>
      have stopped := List.head?_dropWhile_not isBlank text
      rw [onward] at stopped
      simpa using stopped

theorem Input.rest?_append {input : Input V} {offset : Nat} {before after : List Char}
    (found : input.rest? offset = some (before ++ after)) :
    input.rest? (offset + Text.byteLength before) = some after := by
  rw [Input.rest?_eq] at found ⊢
  obtain ⟨passed, split, size⟩ := (Text.dropBytes?_eq_some_iff _ _ _).1 found
  refine (Text.dropBytes?_eq_some_iff _ _ _).2 ⟨passed ++ before, ?_, ?_⟩
  · rw [split, List.append_assoc]
  · rw [Text.byteLength_append, size]

theorem Input.rest?_size {input : Input V} {offset : Nat} {rest : List Char}
    (found : input.rest? offset = some rest) :
    offset + Text.byteLength rest = input.length := by
  rw [Input.rest?_eq] at found
  obtain ⟨passed, split, size⟩ := (Text.dropBytes?_eq_some_iff _ _ _).1 found
  rw [input.length_eq, split, Text.byteLength_append, size]

theorem Input.rest?_zero (input : Input V) : input.rest? 0 = some input.source := by
  rw [Input.rest?_eq, Text.dropBytes?_zero]

/-- The offset behind the blank text that starts at an offset. -/
def Input.settle? (input : Input V) (offset : Nat) : Option Nat :=
  (input.rest? offset).map fun rest =>
    offset + Text.byteLength (rest.takeWhile input.grammar.isBlank)

theorem Input.land_eq_ok_iff (input : Input V) (origin : Position) (landing : Landing) :
    input.land origin = .ok landing ↔
      ∃ rest, input.rest? origin.offset = some rest ∧
        landing = ⟨origin, rest.takeWhile input.grammar.isBlank,
          origin.through (rest.takeWhile input.grammar.isBlank),
          rest.dropWhile input.grammar.isBlank⟩ := by
  unfold Input.land
  cases found : input.rest? origin.offset with
  | none => simp
  | some rest => simp [eq_comm]

section Landings

variable {input : Input V} {origin : Position} {landing : Landing}

theorem Input.land_origin (landed : input.land origin = .ok landing) :
    landing.origin = origin := by
  obtain ⟨rest, -, rfl⟩ := (input.land_eq_ok_iff _ _).1 landed
  rfl

theorem Input.land_settle? (landed : input.land origin = .ok landing) :
    input.settle? origin.offset = some landing.position.offset := by
  obtain ⟨rest, found, rfl⟩ := (input.land_eq_ok_iff _ _).1 landed
  simp [Input.settle?, found]

theorem Input.land_rest? (landed : input.land origin = .ok landing) :
    input.rest? landing.position.offset = some landing.rest := by
  obtain ⟨rest, found, rfl⟩ := (input.land_eq_ok_iff _ _).1 landed
  rw [← List.takeWhile_append_dropWhile (p := input.grammar.isBlank) (l := rest)] at found
  rw [Position.through_offset]
  exact Input.rest?_append found

theorem Input.land_settled (landed : input.land origin = .ok landing) :
    input.settle? landing.position.offset = some landing.position.offset := by
  have onward := Input.land_rest? landed
  obtain ⟨rest, -, rfl⟩ := (input.land_eq_ok_iff _ _).1 landed
  have bare : (rest.dropWhile input.grammar.isBlank).takeWhile input.grammar.isBlank = [] := by
    have stopped : (rest.dropWhile input.grammar.isBlank).head?.any input.grammar.isBlank = false :=
      Text.head?_dropWhile rest
    cases tail : rest.dropWhile input.grammar.isBlank with
    | nil => rfl
    | cons c after =>
        rw [tail] at stopped
        exact List.takeWhile_cons_of_neg (by simpa using stopped)
  simp only [Input.settle?, onward, Option.map_some, bare, Text.byteLength_nil, Nat.add_zero]

end Landings

theorem Input.land_exists {input : Input V} {origin : Position}
    (valid : (input.rest? origin.offset).isSome) :
    ∃ landing, input.land origin = .ok landing := by
  obtain ⟨rest, found⟩ := Option.isSome_iff_exists.1 valid
  exact ⟨_, (input.land_eq_ok_iff _ _).2 ⟨rest, found, rfl⟩⟩

theorem Input.le_of_settle? {input : Input V} {offset place : Nat}
    (settled : input.settle? offset = some place) : offset ≤ place := by
  obtain ⟨rest, -, rfl⟩ := Option.map_eq_some_iff.1 settled
  exact Nat.le_add_right _ _

/-! ### Leaves of a cell -/

/-- A leaf starts at a place, and covers a beginning of what follows there. -/
structure Leaf.FitsAt (leaf : Leaf V) (landing : Landing) : Prop where
  blank : leaf.blank = landing.blank
  start : leaf.start = landing.position
  stop : leaf.stop = landing.position.through leaf.text
  text : leaf.text <+: landing.rest

namespace LexicalCell

theorem scanTerminal_fits {landing : Landing} {terminal : Terminal V} {leaf : Leaf V}
    {candidate : Candidate V} (found : scanTerminal landing terminal = some (leaf, candidate)) :
    leaf.FitsAt landing := by
  simp only [scanTerminal, Option.bind_eq_bind, Option.bind_eq_some_iff] at found
  rcases found with ⟨⟨length, chosen⟩, -, text, taken, made⟩
  obtain ⟨after, split, -⟩ := (Text.takeBytes?_eq_some_iff _ _ _).1 taken
  simp only [pure, Option.some.injEq, Prod.mk.injEq] at made
  rcases made with ⟨rfl, -⟩
  exact ⟨rfl, rfl, rfl, ⟨after, split.symm⟩⟩

def pick (best : Option (Leaf V)) (leaf : Leaf V) : Option (Leaf V) :=
  match best with
  | none => some leaf
  | some other => if other.stop.offset < leaf.stop.offset then some leaf else some other

theorem furthest_eq (leaves : List (Leaf V)) : furthest leaves = leaves.foldl pick none :=
  rfl

theorem foldl_pick_mem {leaves : List (Leaf V)} {best : Option (Leaf V)} {leaf : Leaf V}
    (folded : leaves.foldl pick best = some leaf) : best = some leaf ∨ leaf ∈ leaves := by
  induction leaves generalizing best with
  | nil => exact .inl folded
  | cons head rest ih =>
      rw [List.foldl_cons] at folded
      rcases ih folded with chosen | later
      · cases best with
        | none =>
            cases chosen
            exact .inr List.mem_cons_self
        | some other =>
            rw [pick] at chosen
            split at chosen
            · cases chosen
              exact .inr List.mem_cons_self
            · exact .inl chosen
      · exact .inr (List.mem_cons_of_mem head later)

theorem furthest_mem {leaves : List (Leaf V)} {leaf : Leaf V}
    (found : furthest leaves = some leaf) : leaf ∈ leaves := by
  rcases foldl_pick_mem found with none_ | member
  · cases none_
  · exact member

section Scanning

variable {Holds : Leaf V → Prop}

theorem addAlias_forall (retag : ∀ leaf symbol, Holds leaf → Holds (leaf.retag symbol))
    {leaves : List (Leaf V)} (holds : ∀ leaf ∈ leaves, Holds leaf) (entry : Alias) :
    ∀ leaf ∈ addAlias leaves entry, Holds leaf := by
  unfold addAlias
  split
  · exact holds
  · cases found : furthest (targetLeaves leaves entry) with
    | none => exact holds
    | some chosen =>
        intro leaf member
        rcases List.mem_append.1 member with old | new
        · exact holds leaf old
        · rw [List.mem_singleton.1 new]
          obtain ⟨target, -, atTarget⟩ := List.mem_filterMap.1 (furthest_mem found)
          exact retag chosen entry.symbol (holds chosen (List.mem_of_find?_eq_some atTarget))

theorem foldl_addAlias_forall (retag : ∀ leaf symbol, Holds leaf → Holds (leaf.retag symbol))
    {leaves : List (Leaf V)} (holds : ∀ leaf ∈ leaves, Holds leaf) (aliases : List Alias) :
    ∀ leaf ∈ aliases.foldl addAlias leaves, Holds leaf := by
  induction aliases generalizing leaves with
  | nil => exact holds
  | cons entry rest ih => exact ih (addAlias_forall retag holds entry)

theorem scan_forall (retag : ∀ leaf symbol, Holds leaf → Holds (leaf.retag symbol))
    (grammar : Grammar V) (landing : Landing)
    (holds : ∀ terminal ∈ grammar.terminals, ∀ leaf candidate,
      scanTerminal landing terminal = some (leaf, candidate) → Holds leaf) :
    ∀ leaf ∈ (scan grammar landing).1.leaves, Holds leaf := by
  refine foldl_addAlias_forall retag ?_ grammar.aliases.entries
  intro leaf member
  rcases List.mem_map.1 member with ⟨⟨own, candidate⟩, found, rfl⟩
  rcases List.mem_filterMap.1 found with ⟨terminal, listed, scanned⟩
  exact holds terminal listed own candidate scanned

end Scanning

theorem retag_fits {landing : Landing} (leaf : Leaf V) (symbol : Symbol)
    (fits : leaf.FitsAt landing) : (leaf.retag symbol).FitsAt landing :=
  ⟨fits.blank, fits.start, fits.stop, fits.text⟩

theorem scan_fits (grammar : Grammar V) (landing : Landing) :
    ∀ leaf ∈ (scan grammar landing).1.leaves, leaf.FitsAt landing :=
  scan_forall retag_fits grammar landing fun _ _ _ _ => scanTerminal_fits

structure Scanned (cell : LexicalCell V) (input : Input V) : Prop where
  landed : input.land cell.origin = .ok cell.toLanding
  scanned : (scan input.grammar cell.toLanding).1.leaves = cell.leaves

theorem scan_scanned {input : Input V} {origin : Position} {landing : Landing}
    (landed : input.land origin = .ok landing) (first : Nat) :
    ((scan input.grammar landing).1.numbered first).Scanned input := by
  refine ⟨?_, rfl⟩
  change input.land landing.origin = .ok landing
  rw [Input.land_origin landed]
  exact landed

section Matches

variable {input : Input V} {cell : LexicalCell V}

theorem Scanned.rest? (scanned : cell.Scanned input) :
    input.rest? cell.position.offset = some cell.rest :=
  Input.land_rest? scanned.landed

theorem Scanned.settled (scanned : cell.Scanned input) :
    input.settle? cell.position.offset = some cell.position.offset :=
  Input.land_settled scanned.landed

theorem Scanned.fits_of_mem (scanned : cell.Scanned input) {leaf : Leaf V}
    (member : leaf ∈ cell.leaves) : leaf.FitsAt cell.toLanding := by
  rw [← scanned.scanned] at member
  exact scan_fits input.grammar cell.toLanding leaf member

theorem Scanned.leaf_fits (scanned : cell.Scanned input) {symbol : Symbol} {leaf : Leaf V}
    (found : cell.leaf? symbol = some leaf) : leaf.FitsAt cell.toLanding :=
  scanned.fits_of_mem (List.mem_of_find?_eq_some found)

theorem lexemes_toLeaf (cell : LexicalCell V) :
    cell.lexemes.map Lexeme.toLeaf = cell.leaves := by
  apply List.ext_getElem?
  intro index
  rw [lexemes, List.getElem?_map, List.getElem?_mapIdx, Option.map_map]
  exact Option.map_id'

theorem lexeme?_toLeaf (symbol : Symbol) :
    (cell.lexeme? symbol).map Lexeme.toLeaf = cell.leaf? symbol := by
  rw [leaf?, ← cell.lexemes_toLeaf, List.find?_map]
  rfl

theorem leaf?_of_lexeme? {symbol : Symbol} {lexeme : Lexeme V}
    (found : cell.lexeme? symbol = some lexeme) : cell.leaf? symbol = some lexeme.toLeaf := by
  rw [← lexeme?_toLeaf, found]
  rfl

theorem literal?_fits {text : String} {leaf : Leaf V} (found : cell.literal? text = some leaf) :
    leaf.FitsAt cell.toLanding ∧ leaf.symbol = .unknown ∧ leaf.text = text.toList := by
  unfold literal? at found
  split at found
  · next prefixed =>
      cases found
      exact ⟨⟨rfl, rfl, rfl, List.isPrefixOf_iff_prefix.1 prefixed⟩, rfl, rfl⟩
  · cases found

theorem Scanned.leaf_stop (scanned : cell.Scanned input) {leaf : Leaf V}
    (fits : leaf.FitsAt cell.toLanding) :
    cell.position.offset ≤ leaf.stop.offset ∧ (input.rest? leaf.stop.offset).isSome := by
  obtain ⟨after, split⟩ := fits.text
  have found := scanned.rest?
  rw [← split] at found
  rw [fits.stop, Position.through_offset]
  refine ⟨Nat.le_add_right _ _, ?_⟩
  rw [Input.rest?_append found]
  rfl

theorem Scanned.leaf_split (scanned : cell.Scanned input) {leaf : Leaf V}
    (fits : leaf.FitsAt cell.toLanding) :
    ∃ before after, input.source = before ++ leaf.text ++ after ∧
      Text.byteLength before = cell.position.offset := by
  obtain ⟨after, follows⟩ := fits.text
  have found := scanned.rest?
  rw [← follows, Input.rest?_eq, Text.dropBytes?_eq_some_iff] at found
  obtain ⟨before, split, size⟩ := found
  exact ⟨before, after, by rw [split, List.append_assoc], size⟩

end Matches

end LexicalCell

/-! ### Charts that grow -/

namespace Chart

/-- Every cell is kept under the offset of its place, and holds what is found there. -/
structure Arena (chart : Chart V) (input : Input V) : Prop where
  lexical : ∀ {offset cell}, chart.lexicalAt? offset = some cell →
    cell.Scanned input ∧ cell.position.offset = offset
  syntactic : ∀ {offset cell}, chart.syntacticAt? offset = some cell →
    chart.lexicalAt? offset = some cell.lexical
  literals : ∀ {offset text found}, chart.literal? offset text = some found →
    ∃ cell, chart.lexicalAt? offset = some cell ∧
      found.map Lexeme.toLeaf = cell.literal? text

theorem Arena.of_same {chart after : Chart V} {input : Input V} (arena : chart.Arena input)
    (lexical : after.lexical = chart.lexical) (syntactic : after.syntactic = chart.syntactic)
    (literals : after.literals = chart.literals) : after.Arena input := by
  refine ⟨?_, ?_, ?_⟩
  · intro offset cell here
    rw [lexicalAt?, lexical] at here
    exact arena.lexical here
  · intro offset cell here
    rw [syntacticAt?, syntactic] at here
    rw [lexicalAt?, lexical]
    exact arena.syntactic here
  · intro offset text found known
    rw [literal?, literals] at known
    rw [lexicalAt?, lexical]
    exact arena.literals known

/-- The rules that have been entered between two charts: each once, at a place where nothing was
known about it before, and something is afterwards. -/
def Enters (before after : Chart V) (new : List (Symbol × Nat)) : Prop :=
  after.entered = new ++ before.entered ∧ new.Nodup ∧
    ∀ symbol offset, (symbol, offset) ∈ new →
      before.known? offset symbol = none ∧ (after.known? offset symbol).isSome

theorem Enters.nil {before after : Chart V} (same : after.entered = before.entered) :
    before.Enters after [] :=
  ⟨same, List.nodup_nil, nofun⟩

/-- A later chart has all the cells and literal leaves of the earlier one, and knows of the same
rules and maybe of more. What has been entered meanwhile was not known. -/
structure Extends (before after : Chart V) : Prop where
  lexical : ∀ {offset cell}, before.lexicalAt? offset = some cell →
    after.lexicalAt? offset = some cell
  syntactic : ∀ {offset cell}, before.syntacticAt? offset = some cell →
    ∃ later, after.syntacticAt? offset = some later ∧ later.lexical = cell.lexical
  literals : ∀ {offset text found}, before.literal? offset text = some found →
    after.literal? offset text = some found
  known : ∀ {offset symbol}, (before.known? offset symbol).isSome →
    (after.known? offset symbol).isSome
  entered : ∃ new, before.Enters after new

theorem Extends.refl (chart : Chart V) : chart.Extends chart :=
  ⟨fun found => found, fun found => ⟨_, found, rfl⟩, fun known => known, fun known => known, [],
    .nil rfl⟩

theorem Extends.unknown {before after : Chart V} (grown : before.Extends after) {offset : Nat}
    {symbol : Symbol} (unknown : after.known? offset symbol = none) :
    before.known? offset symbol = none := by
  cases found : before.known? offset symbol with
  | none => rfl
  | some entry =>
      have known : (after.known? offset symbol).isSome := grown.known (by rw [found]; rfl)
      rw [unknown] at known
      cases known

theorem Extends.trans {first second third : Chart V} (earlier : first.Extends second)
    (later : second.Extends third) : first.Extends third := by
  refine ⟨fun found => later.lexical (earlier.lexical found), ?_,
    fun known => later.literals (earlier.literals known),
    fun known => later.known (earlier.known known), ?_⟩
  · intro offset cell found
    obtain ⟨between, foundBetween, sameFirst⟩ := earlier.syntactic found
    obtain ⟨last, foundLast, sameLast⟩ := later.syntactic foundBetween
    exact ⟨last, foundLast, sameLast.trans sameFirst⟩
  · obtain ⟨early, entersEarly, nodupEarly, newEarly⟩ := earlier.entered
    obtain ⟨late, entersLate, nodupLate, newLate⟩ := later.entered
    refine ⟨late ++ early, ?_, ?_, ?_⟩
    · rw [entersLate, entersEarly, List.append_assoc]
    · refine List.nodup_append.2 ⟨nodupLate, nodupEarly, ?_⟩
      rintro ⟨symbol, offset⟩ inLate other inEarly rfl
      have known := (newEarly symbol offset inEarly).2
      rw [(newLate symbol offset inLate).1] at known
      cases known
    · intro symbol offset member
      rcases List.mem_append.1 member with inLate | inEarly
      · obtain ⟨unknown, known⟩ := newLate symbol offset inLate
        exact ⟨earlier.unknown unknown, known⟩
      · obtain ⟨unknown, known⟩ := newEarly symbol offset inEarly
        exact ⟨unknown, later.known known⟩

/-- The place of a cell has a syntax cell, and this holds the cell. -/
def Holds (chart : Chart V) (cell : LexicalCell V) : Prop :=
  ∃ found, chart.syntacticAt? cell.position.offset = some found ∧ found.lexical = cell

theorem Holds.mono {before after : Chart V} {cell : LexicalCell V} (held : before.Holds cell)
    (grown : before.Extends after) : after.Holds cell := by
  rcases held with ⟨found, here, same⟩
  obtain ⟨later, there, kept⟩ := grown.syntactic here
  exact ⟨later, there, kept.trans same⟩

theorem Holds.lexicalAt? {chart : Chart V} {input : Input V} {cell : LexicalCell V}
    (held : chart.Holds cell) (arena : chart.Arena input) :
    chart.lexicalAt? cell.position.offset = some cell := by
  rcases held with ⟨found, here, rfl⟩
  exact arena.syntactic here

theorem Holds.scanned {chart : Chart V} {input : Input V} {cell : LexicalCell V}
    (held : chart.Holds cell) (arena : chart.Arena input) : cell.Scanned input :=
  (arena.lexical (held.lexicalAt? arena)).1

theorem Holds.valid {chart : Chart V} {input : Input V} {cell : LexicalCell V}
    (held : chart.Holds cell) (arena : chart.Arena input) :
    (input.rest? cell.position.offset).isSome := by
  rw [(held.scanned arena).rest?]
  rfl

def cellFrom? (chart : Chart V) (input : Input V) (offset : Nat) : Option (LexicalCell V) :=
  (input.settle? offset).bind chart.lexicalAt?

theorem cellFrom?_mono {before after : Chart V} {input : Input V} {offset : Nat}
    {cell : LexicalCell V} (grown : before.Extends after)
    (found : before.cellFrom? input offset = some cell) :
    after.cellFrom? input offset = some cell := by
  obtain ⟨place, settled, here⟩ := Option.bind_eq_some_iff.1 found
  exact Option.bind_eq_some_iff.2 ⟨place, settled, grown.lexical here⟩

theorem cellFrom?_scanned {chart : Chart V} {input : Input V} {offset : Nat}
    {cell : LexicalCell V} (arena : chart.Arena input)
    (found : chart.cellFrom? input offset = some cell) :
    cell.Scanned input ∧ input.settle? offset = some cell.position.offset ∧
      chart.lexicalAt? cell.position.offset = some cell := by
  obtain ⟨place, settled, here⟩ := Option.bind_eq_some_iff.1 found
  obtain ⟨scanned, rfl⟩ := arena.lexical here
  exact ⟨scanned, settled, here⟩

theorem Holds.cellFrom? {chart : Chart V} {input : Input V} {cell : LexicalCell V}
    (held : chart.Holds cell) (arena : chart.Arena input) :
    chart.cellFrom? input cell.position.offset = some cell := by
  have settled := (held.scanned arena).settled
  rw [Chart.cellFrom?, settled]
  exact held.lexicalAt? arena

/-! ### Asking for cells -/

/-- What asking for cells and literal texts may change: there may be more of them afterwards, and
more in the log. -/
structure Gains (before after : Chart V) : Prop where
  grown : before.Extends after
  known : ∀ offset symbol, after.known? offset symbol = before.known? offset symbol
  created : after.created = before.created
  entered : after.entered = before.entered

theorem Gains.refl (chart : Chart V) : chart.Gains chart :=
  ⟨.refl chart, fun _ _ => rfl, rfl, rfl⟩

theorem Gains.trans {first second third : Chart V} (earlier : first.Gains second)
    (later : second.Gains third) : first.Gains third :=
  ⟨earlier.grown.trans later.grown,
    fun offset symbol => (later.known offset symbol).trans (earlier.known offset symbol),
    later.created.trans earlier.created, later.entered.trans earlier.entered⟩

section Inserting

variable {chart : Chart V} {offset : Nat} {cell : LexicalCell V}

theorem lexicalAt?_insert (leaves : Nat) (log : List Event) (place : Nat) :
    ({ chart with
      lexical := chart.lexical.insert offset cell, leaves := leaves, log := log } :
      Chart V).lexicalAt? place =
        if offset = place then some cell else chart.lexicalAt? place := by
  simp [lexicalAt?, Std.TreeMap.getElem?_insert]

theorem syntacticAt?_insert (place : Nat) :
    ({ chart with syntactic := chart.syntactic.insert offset ⟨cell, []⟩ } :
      Chart V).syntacticAt? place =
        if offset = place then some ⟨cell, []⟩ else chart.syntacticAt? place := by
  simp [syntacticAt?, Std.TreeMap.getElem?_insert]

theorem known?_insert (missing : chart.syntacticAt? offset = none) (place : Nat)
    (symbol : Symbol) :
    ({ chart with syntactic := chart.syntactic.insert offset ⟨cell, []⟩ } :
      Chart V).known? place symbol = chart.known? place symbol := by
  unfold known?
  rw [syntacticAt?_insert]
  by_cases same : offset = place
  · subst same
    rw [if_pos rfl, missing]
    rfl
  · rw [if_neg same]

theorem gains_insert_lexical (cell : LexicalCell V) (leaves : Nat) (log : List Event)
    (missing : chart.lexicalAt? offset = none) :
    chart.Gains { chart with
      lexical := chart.lexical.insert offset cell, leaves := leaves, log := log } := by
  refine ⟨⟨?_, fun found => ⟨_, found, rfl⟩, fun known => known, fun known => known, [],
    .nil rfl⟩, fun _ _ => rfl, rfl, rfl⟩
  intro place found here
  have apart : offset ≠ place := by
    rintro rfl
    rw [missing] at here
    cases here
  rw [lexicalAt?_insert, if_neg apart]
  exact here

theorem gains_insert_syntactic (missing : chart.syntacticAt? offset = none) :
    chart.Gains { chart with syntactic := chart.syntactic.insert offset ⟨cell, []⟩ } := by
  refine ⟨⟨fun found => found, ?_, fun known => known, ?_, [], .nil rfl⟩, known?_insert missing,
    rfl, rfl⟩
  · intro place found here
    have apart : offset ≠ place := by
      rintro rfl
      rw [missing] at here
      cases here
    exact ⟨found, by rw [syntacticAt?_insert, if_neg apart]; exact here, rfl⟩
  · intro place symbol known
    rw [known?_insert missing]
    exact known

end Inserting

section Asking

variable {input : Input V} {origin : Position} {chart after : Chart V}

theorem lexicalCell_cases {cell : LexicalCell V}
    (asked : chart.lexicalCell input origin = .ok (cell, after)) :
    ∃ landing, input.land origin = .ok landing ∧
      (chart.lexicalAt? landing.position.offset = some cell ∧ after = chart ∨
        chart.lexicalAt? landing.position.offset = none ∧
          cell = (LexicalCell.scan input.grammar landing).1.numbered chart.leaves ∧
          after = { chart with
            lexical := chart.lexical.insert landing.position.offset cell
            leaves := chart.leaves + cell.leaves.length
            log := (LexicalCell.scan input.grammar landing).2.reverse ++ chart.log }) := by
  unfold lexicalCell at asked
  cases landed : input.land origin with
  | error refusal => simp [landed] at asked
  | ok landing =>
      refine ⟨landing, rfl, ?_⟩
      simp only [landed] at asked
      cases found : chart.lexicalAt? landing.position.offset with
      | some known =>
          simp only [found, Except.ok.injEq, Prod.mk.injEq] at asked
          rcases asked with ⟨rfl, rfl⟩
          exact .inl ⟨rfl, rfl⟩
      | none =>
          simp only [found, Except.ok.injEq, Prod.mk.injEq] at asked
          rcases asked with ⟨rfl, rfl⟩
          exact .inr ⟨rfl, rfl, rfl⟩

theorem lexicalCell_spec {cell : LexicalCell V} (arena : chart.Arena input)
    (asked : chart.lexicalCell input origin = .ok (cell, after)) :
    after.Arena input ∧ chart.Gains after ∧
      after.cellFrom? input origin.offset = some cell := by
  rcases lexicalCell_cases asked with
    ⟨landing, landed, ⟨found, rfl⟩ | ⟨missing, isCell, rfl⟩⟩
  · exact ⟨arena, .refl _, Option.bind_eq_some_iff.2 ⟨_, Input.land_settle? landed, found⟩⟩
  · have gained := gains_insert_lexical cell (chart.leaves + cell.leaves.length)
      ((LexicalCell.scan input.grammar landing).2.reverse ++ chart.log) missing
    refine ⟨⟨?_, ?_, ?_⟩, gained, ?_⟩
    · intro offset other here
      rw [lexicalAt?_insert] at here
      split at here
      · next same =>
          cases here
          rw [isCell]
          exact ⟨LexicalCell.scan_scanned landed chart.leaves, same⟩
      · exact arena.lexical here
    · intro offset other here
      exact gained.grown.lexical (arena.syntactic here)
    · intro offset text found known
      obtain ⟨other, here, same⟩ := arena.literals known
      exact ⟨other, gained.grown.lexical here, same⟩
    · refine Option.bind_eq_some_iff.2 ⟨_, Input.land_settle? landed, ?_⟩
      rw [lexicalAt?_insert, if_pos rfl]

/-- A request that leads to a cell finds it and changes nothing. -/
theorem lexicalCell_of_cellFrom? {cell : LexicalCell V}
    (leads : chart.cellFrom? input origin.offset = some cell) :
    chart.lexicalCell input origin = .ok (cell, chart) := by
  obtain ⟨place, settled, here⟩ := Option.bind_eq_some_iff.1 leads
  have valid : (input.rest? origin.offset).isSome := by
    obtain ⟨rest, found, -⟩ := Option.map_eq_some_iff.1 settled
    rw [found]
    rfl
  obtain ⟨landing, landed⟩ := Input.land_exists valid
  have lands : landing.position.offset = place :=
    Option.some.inj ((Input.land_settle? landed).symm.trans settled)
  unfold lexicalCell
  simp only [landed, lands, here]

/-- A cell that is made for a request has been asked for from its place. -/
theorem lexicalCell_origin {cell : LexicalCell V}
    (asked : chart.lexicalCell input origin = .ok (cell, after))
    (missing : chart.cellFrom? input origin.offset = none) : cell.origin = origin := by
  rcases lexicalCell_cases asked with ⟨landing, landed, ⟨found, -⟩ | ⟨-, rfl, -⟩⟩
  · rw [cellFrom?, Input.land_settle? landed, Option.bind_some, found] at missing
    cases missing
  · exact Input.land_origin landed

/-- The only cell that a request may add is the one it asks for. -/
theorem lexicalCell_adds {cell : LexicalCell V}
    (asked : chart.lexicalCell input origin = .ok (cell, after)) {offset : Nat}
    {found : LexicalCell V} (here : after.lexicalAt? offset = some found) :
    chart.lexicalAt? offset = some found ∨ input.land origin = .ok found.toLanding := by
  rcases lexicalCell_cases asked with ⟨landing, landed, ⟨-, rfl⟩ | ⟨-, rfl, rfl⟩⟩
  · exact .inl here
  · rw [lexicalAt?_insert] at here
    split at here
    · cases here
      exact .inr landed
    · exact .inl here

theorem lexicalCell_exists (chart : Chart V) (valid : (input.rest? origin.offset).isSome) :
    ∃ cell after, chart.lexicalCell input origin = .ok (cell, after) := by
  rcases Input.land_exists valid with ⟨landing, landed⟩
  unfold lexicalCell
  rw [landed]
  cases found : chart.lexicalAt? landing.position.offset with
  | some known => exact ⟨known, chart, by simp only [found]⟩
  | none =>
      simp only [found]
      exact ⟨_, _, rfl⟩

theorem syntaxCell_cases {cell : SyntaxCell V}
    (asked : chart.syntaxCell input origin = .ok (cell, after)) :
    ∃ lexical between, chart.lexicalCell input origin = .ok (lexical, between) ∧
      (between.syntacticAt? lexical.position.offset = some cell ∧ after = between ∨
        between.syntacticAt? lexical.position.offset = none ∧ cell = ⟨lexical, []⟩ ∧
          after = { between with
            syntactic := between.syntactic.insert lexical.position.offset ⟨lexical, []⟩ }) := by
  unfold syntaxCell at asked
  cases below : chart.lexicalCell input origin with
  | error refusal => simp [below] at asked
  | ok result =>
      rcases result with ⟨lexical, between⟩
      refine ⟨lexical, between, rfl, ?_⟩
      simp only [below] at asked
      cases found : between.syntacticAt? lexical.position.offset with
      | some known =>
          simp only [found, Except.ok.injEq, Prod.mk.injEq] at asked
          rcases asked with ⟨rfl, rfl⟩
          exact .inl ⟨rfl, rfl⟩
      | none =>
          simp only [found, Except.ok.injEq, Prod.mk.injEq] at asked
          rcases asked with ⟨rfl, rfl⟩
          exact .inr ⟨rfl, rfl, rfl⟩

/-- Asking for a syntax cell leads to the one behind the blank text, which is there afterwards
together with its lexical cell. -/
theorem syntaxCell_spec {cell : SyntaxCell V} (arena : chart.Arena input)
    (asked : chart.syntaxCell input origin = .ok (cell, after)) :
    after.Arena input ∧ chart.Gains after ∧ after.Holds cell.lexical ∧
      after.cellFrom? input origin.offset = some cell.lexical := by
  rcases syntaxCell_cases asked with ⟨lexical, between, below, possible⟩
  rcases lexicalCell_spec arena below with ⟨arenaBetween, gained, leads⟩
  have lexicalHere := (cellFrom?_scanned arenaBetween leads).2.2
  rcases possible with ⟨found, rfl⟩ | ⟨missing, rfl, rfl⟩
  · have same : cell.lexical = lexical :=
      Option.some.inj ((arenaBetween.syntactic found).symm.trans lexicalHere)
    subst same
    exact ⟨arenaBetween, gained, ⟨cell, found, rfl⟩, leads⟩
  · refine ⟨⟨arenaBetween.lexical, ?_, arenaBetween.literals⟩,
      gained.trans (gains_insert_syntactic missing), ⟨⟨lexical, []⟩, ?_, rfl⟩, leads⟩
    · intro offset other here
      rw [syntacticAt?_insert] at here
      split at here
      · next same =>
          cases here
          rw [← same]
          exact lexicalHere
      · exact arenaBetween.syntactic here
    · rw [syntacticAt?_insert, if_pos rfl]

/-- A syntax cell shows the lexical cell that a request from the same place finds. -/
theorem syntaxCell_below {cell : SyntaxCell V} (arena : chart.Arena input)
    (asked : chart.syntaxCell input origin = .ok (cell, after)) :
    ∃ between, chart.lexicalCell input origin = .ok (cell.lexical, between) := by
  rcases syntaxCell_cases asked with ⟨lexical, between, below, ⟨found, rfl⟩ | ⟨-, rfl, rfl⟩⟩
  · obtain ⟨arenaBetween, -, leads⟩ := lexicalCell_spec arena below
    have same : cell.lexical = lexical := Option.some.inj
      ((arenaBetween.syntactic found).symm.trans (cellFrom?_scanned arenaBetween leads).2.2)
    rw [same]
    exact ⟨after, below⟩
  · exact ⟨between, below⟩

theorem syntaxCell_here {cell : SyntaxCell V} (arena : chart.Arena input)
    (asked : chart.syntaxCell input origin = .ok (cell, after)) :
    after.syntacticAt? cell.lexical.position.offset = some cell := by
  obtain ⟨between, below⟩ := syntaxCell_below arena asked
  obtain ⟨lexical, other, sameBelow, possible⟩ := syntaxCell_cases asked
  cases below.symm.trans sameBelow
  rcases possible with ⟨found, rfl⟩ | ⟨-, isCell, rfl⟩
  · exact found
  · rw [syntacticAt?_insert, if_pos rfl, ← isCell]

theorem syntaxCell_of_cellFrom? {cell : SyntaxCell V}
    (leads : chart.cellFrom? input origin.offset = some cell.lexical)
    (here : chart.syntacticAt? cell.lexical.position.offset = some cell) :
    chart.syntaxCell input origin = .ok (cell, chart) := by
  unfold syntaxCell
  simp only [lexicalCell_of_cellFrom? leads, here]

theorem syntaxCell_adds {cell : SyntaxCell V}
    (asked : chart.syntaxCell input origin = .ok (cell, after)) {offset : Nat}
    {found : LexicalCell V} (here : after.lexicalAt? offset = some found) :
    chart.lexicalAt? offset = some found ∨ input.land origin = .ok found.toLanding := by
  rcases syntaxCell_cases asked with ⟨lexical, between, below, ⟨-, rfl⟩ | ⟨-, -, rfl⟩⟩
  · exact lexicalCell_adds below here
  · exact lexicalCell_adds below here

theorem syntaxCell_exists (chart : Chart V) (valid : (input.rest? origin.offset).isSome) :
    ∃ cell after, chart.syntaxCell input origin = .ok (cell, after) := by
  rcases lexicalCell_exists chart valid with ⟨lexical, between, below⟩
  unfold syntaxCell
  rw [below]
  cases found : between.syntacticAt? lexical.position.offset with
  | some known => exact ⟨known, between, by simp only [found]⟩
  | none =>
      simp only [found]
      exact ⟨_, _, rfl⟩

end Asking

/-! ### Asking for literal texts -/

section Literals

variable {input : Input V} {chart after : Chart V} {cell : LexicalCell V} {text : String}
  {found : Option (Lexeme V)}

theorem storeLiteral_gains {offset : Nat} (missing : chart.literal? offset text = none)
    (leaves : Nat) (entry : Option (Lexeme V)) :
    chart.Gains ({ chart with leaves := leaves }.storeLiteral offset text entry) := by
  refine ⟨⟨fun found => found, fun found => ⟨_, found, rfl⟩, ?_, fun known => known, [],
    .nil rfl⟩, fun _ _ => rfl, rfl, rfl⟩
  intro place other entry known
  rw [literal?_storeLiteral]
  split
  · next same =>
      rw [← same.1, ← same.2, missing] at known
      cases known
  · exact known

theorem storeLiteral_arena (arena : chart.Arena input)
    (here : chart.lexicalAt? cell.position.offset = some cell) (leaves : Nat)
    {entry : Option (Lexeme V)} (same : entry.map Lexeme.toLeaf = cell.literal? text) :
    ({ chart with leaves := leaves }.storeLiteral cell.position.offset text entry).Arena
      input := by
  refine ⟨arena.lexical, arena.syntactic, ?_⟩
  intro place other found known
  rw [literal?_storeLiteral] at known
  split at known
  · next asked =>
      obtain ⟨rfl, rfl⟩ := asked
      cases known
      exact ⟨cell, here, same⟩
  · exact arena.literals known

theorem literal_cases (done : chart.literal cell text = (found, after)) :
    chart.literal? cell.position.offset text = some found ∧ after = chart ∨
      chart.literal? cell.position.offset text = none ∧
        found = (cell.literal? text).map (Lexeme.mk · chart.leaves) ∧
        after = { chart with leaves := chart.leaves + found.toList.length }.storeLiteral
          cell.position.offset text found := by
  unfold literal at done
  cases known : chart.literal? cell.position.offset text with
  | some entry =>
      rw [known] at done
      cases done
      exact .inl ⟨rfl, rfl⟩
  | none =>
      rw [known] at done
      refine .inr ⟨rfl, ?_⟩
      cases fits : cell.literal? text with
      | none =>
          rw [fits] at done
          cases done
          exact ⟨rfl, rfl⟩
      | some leaf =>
          rw [fits] at done
          cases done
          exact ⟨rfl, rfl⟩

theorem literal_frame (done : chart.literal cell text = (found, after)) :
    ∃ literals leaves, after = { chart with literals := literals, leaves := leaves } := by
  rcases literal_cases done with ⟨-, rfl⟩ | ⟨-, -, rfl⟩
  · exact ⟨_, _, rfl⟩
  · exact ⟨_, _, rfl⟩

/-- Asking for a literal text in a cell finds its leaf, which is there afterwards. -/
theorem literal_spec (arena : chart.Arena input)
    (here : chart.lexicalAt? cell.position.offset = some cell)
    (done : chart.literal cell text = (found, after)) :
    after.Arena input ∧ chart.Gains after ∧ found.map Lexeme.toLeaf = cell.literal? text ∧
      after.literal? cell.position.offset text = some found := by
  rcases literal_cases done with ⟨known, rfl⟩ | ⟨missing, isFound, rfl⟩
  · obtain ⟨other, there, same⟩ := arena.literals known
    cases here.symm.trans there
    exact ⟨arena, .refl _, same, known⟩
  · have same : found.map Lexeme.toLeaf = cell.literal? text := by
      rw [isFound, Option.map_map]
      exact Option.map_id'
    refine ⟨storeLiteral_arena arena here _ same, storeLiteral_gains missing _ found, same, ?_⟩
    rw [literal?_storeLiteral, if_pos ⟨rfl, rfl⟩]

theorem literal_known (known : chart.literal? cell.position.offset text = some found) :
    chart.literal cell text = (found, chart) := by
  unfold literal
  rw [known]

theorem literalAt_cases {origin : Position}
    (done : chart.literalAt input origin text = .ok (found, after)) :
    ∃ cell opened, chart.lexicalCell input origin = .ok (cell, opened) ∧
      opened.literal cell text = (found, after) := by
  unfold literalAt at done
  cases asked : chart.lexicalCell input origin with
  | error refusal => simp [asked] at done
  | ok result =>
      rw [asked] at done
      exact ⟨result.1, result.2, rfl, Except.ok.inj done⟩

theorem literalAt_spec {origin : Position} (arena : chart.Arena input)
    (done : chart.literalAt input origin text = .ok (found, after)) :
    after.Arena input ∧ chart.Gains after ∧
      ∃ cell, after.cellFrom? input origin.offset = some cell ∧
        found.map Lexeme.toLeaf = cell.literal? text ∧
        after.literal? cell.position.offset text = some found := by
  obtain ⟨cell, opened, asked, got⟩ := literalAt_cases done
  obtain ⟨arenaOpened, gained, leads⟩ := lexicalCell_spec arena asked
  have here := (cellFrom?_scanned arenaOpened leads).2.2
  obtain ⟨arenaAfter, further, same, known⟩ := literal_spec arenaOpened here got
  exact ⟨arenaAfter, gained.trans further, cell, cellFrom?_mono further.grown leads, same, known⟩

theorem literalAt_exists {origin : Position} (chart : Chart V) (text : String)
    (valid : (input.rest? origin.offset).isSome) :
    ∃ found after, chart.literalAt input origin text = .ok (found, after) := by
  obtain ⟨cell, opened, asked⟩ := lexicalCell_exists chart valid
  unfold literalAt
  rw [asked]
  exact ⟨_, _, rfl⟩

end Literals

/-! ### Setting entries -/

theorem store_arena {chart : Chart V} {input : Input V} (arena : chart.Arena input)
    (offset : Nat) (symbol : Symbol) (entry : Option (Token V)) :
    (chart.store offset symbol entry).Arena input := by
  refine ⟨arena.lexical, ?_, arena.literals⟩
  intro place cell here
  change chart.lexicalAt? place = some cell.lexical
  rw [syntacticAt?_store] at here
  split at here
  · next same =>
      subst same
      obtain ⟨old, found, rfl⟩ := Option.map_eq_some_iff.1 here
      change chart.lexicalAt? offset = some old.lexical
      exact arena.syntactic found
  · exact arena.syntactic here

theorem store_extends (chart : Chart V) (offset : Nat) (symbol : Symbol)
    (entry : Option (Token V)) : chart.Extends (chart.store offset symbol entry) := by
  refine ⟨fun found => found, ?_, fun known => known, ?_, [], .nil rfl⟩
  · intro place cell here
    rw [syntacticAt?_store]
    by_cases same : offset = place
    · subst same
      rw [if_pos rfl, here]
      exact ⟨_, rfl, rfl⟩
    · rw [if_neg same]
      exact ⟨cell, here, rfl⟩
  · intro place other known
    rw [known?_store]
    split
    · next same =>
        rcases same with ⟨rfl, rfl⟩
        obtain ⟨old, found⟩ := Option.isSome_iff_exists.1 known
        obtain ⟨cell, here, -⟩ := Option.bind_eq_some_iff.1 found
        rw [here]
        rfl
    · exact known

theorem Holds.known?_store {chart : Chart V} {cell : LexicalCell V} (held : chart.Holds cell)
    (symbol other : Symbol) (entry : Option (Token V)) (offset : Nat) :
    (chart.store cell.position.offset symbol entry).known? offset other =
      if cell.position.offset = offset ∧ symbol = other then some entry
      else chart.known? offset other := by
  rcases held with ⟨found, here, -⟩
  rw [Chart.known?_store, here]
  rfl

theorem Holds.known?_enter {chart : Chart V} {cell : LexicalCell V} (held : chart.Holds cell)
    (symbol other : Symbol) (offset : Nat) :
    (chart.enter cell.position.offset symbol).known? offset other =
      if cell.position.offset = offset ∧ symbol = other then some none
      else chart.known? offset other :=
  held.known?_store symbol other none offset

theorem enter_extends {chart : Chart V} {cell : LexicalCell V} {symbol : Symbol}
    (held : chart.Holds cell) (unknown : chart.known? cell.position.offset symbol = none) :
    chart.Extends (chart.enter cell.position.offset symbol) := by
  have stored := store_extends chart cell.position.offset symbol none
  refine ⟨stored.lexical, stored.syntactic, stored.literals, stored.known,
    [(symbol, cell.position.offset)], rfl, List.nodup_cons.2 ⟨List.not_mem_nil, List.nodup_nil⟩, ?_⟩
  intro other offset member
  cases List.mem_singleton.1 member
  refine ⟨unknown, ?_⟩
  rw [held.known?_enter, if_pos ⟨rfl, rfl⟩]
  rfl

end Chart

end Packrat
