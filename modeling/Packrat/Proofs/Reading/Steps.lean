import Mathlib.Data.List.Forall2
import Packrat.Proofs.Reading.Lexemes
import Packrat.Proofs.Scan.Spelling

/-!
Steps of a parse over a row of lexemes. A literal text matches where it is the next lexeme and fails
where the next lexeme begins with another character. A rule none of whose alternatives starts with
the rule itself has the best of what its alternatives match (`Parses.plain`).
-/

set_option autoImplicit false
set_option linter.unusedSectionVars false

namespace Packrat

variable {V : Type} [Kinded V]

def Tree.word (text : List Char) (place : Position) : Tree V :=
  .leaf .unknown text place (place.through text) none

theorem Input.scanAt?_landing {input : Input V} {cursor : Position} {landing : Landing}
    (landed : input.land cursor = .ok landing) :
    input.scanAt? landing.position =
      some (LexicalCell.scan input.grammar landing.settled).1 := by
  rw [Input.scanAt?, Input.land_rest? landed]
  rfl

theorem Input.land_forward {input : Input V} {cursor : Position} {landing : Landing}
    (landed : input.land cursor = .ok landing) : cursor.offset ≤ landing.position.offset :=
  Input.le_of_settle? (Input.land_settle? landed)

theorem Input.through_forward {input : Input V} {cursor : Position} {landing : Landing}
    (text : List Char) (landed : input.land cursor = .ok landing) (covers : text ≠ []) :
    cursor.offset < (landing.position.through text).offset := by
  have size : Text.byteLength text ≠ 0 := by
    rw [Ne, Text.byteLength_eq_zero_iff]
    exact covers
  have forward := Input.land_forward landed
  rw [Position.through_offset]
  omega

structure Input.Reads (input : Input V) (symbol : Symbol) (cursor : Position)
    (more : List (List Char)) (landing : Landing) (tree : Tree V) : Prop where
  landed : input.land cursor = .ok landing
  resolves : Parses input (.resolve landing.position symbol) (.tree (some tree))
  forward : cursor.offset < tree.stop.offset
  onward : input.Awaits tree.stop more

namespace Parses

variable {input : Input V} {cursor next place : Position} {landing : Landing}
  {lexemes : List (List Char)} {symbol : Symbol}

/-! ### Leaves -/

theorem leaf {found : Option (Leaf V)} (landed : input.land cursor = .ok landing)
    (noRule : input.grammar.rule? symbol = none)
    (isLeaf : (LexicalCell.scan input.grammar landing.settled).1.leaf? symbol = found) :
    Parses input (.resolve landing.position symbol) (.tree (found.map Leaf.tree)) := by
  have here : input.leafAt? landing.position symbol = found.map Leaf.tree := by
    rw [Input.leafAt?, Input.scanAt?_landing landed, ← isLeaf]
    rfl
  rw [← here]
  exact .lexical noRule

theorem leaf_reads {text : List Char} {value : Option V}
    (faces : input.Faces cursor (text :: lexemes) landing) (covers : text ≠ [])
    (noRule : input.grammar.rule? symbol = none)
    (isLeaf : (LexicalCell.scan input.grammar landing.settled).1.leaf? symbol =
      some (landing.settled.leaf symbol text value)) :
    input.Reads symbol cursor lexemes landing
      (.leaf symbol text landing.position (landing.position.through text) value) := by
  obtain ⟨-, -, -, onward⟩ := faces.onward rfl
  exact ⟨faces.landed, leaf faces.landed noRule isLeaf,
    Input.through_forward text faces.landed covers, onward⟩

theorem literal_found (text : String)
    (faces : input.Faces cursor (text.toList :: lexemes) landing) :
    Parses input (.element (.literal text) cursor)
      (.run (some ([⟨none, .word text.toList landing.position⟩],
        landing.position.through text.toList))) := by
  obtain ⟨after, split, -⟩ := faces.onward rfl
  have begins : text.toList.isPrefixOf landing.rest = true :=
    List.isPrefixOf_iff_prefix.2 ⟨after, split.symm⟩
  have isLeaf : input.literalAt? landing.position text =
      some (.word text.toList landing.position) := by
    rw [Input.literalAt?, Input.scanAt?_landing faces.landed, Option.bind_some,
      LexicalCell.literal?]
    change Option.map Leaf.tree (if text.toList.isPrefixOf landing.rest = true then _ else _) = _
    rw [if_pos begins]
    rfl
  have parses : Parses input (.element (.literal text) cursor)
      (.run ((input.literalAt? landing.position text).map
        fun leaf => ([⟨none, leaf⟩], leaf.stop))) := .literal faces.landed
  rw [isLeaf] at parses
  exact parses

theorem literal_missing (text : String) {c : Char} {tail : List Char}
    (begins : text.toList = c :: tail) (faces : input.Faces cursor lexemes landing)
    (differs : firstOf lexemes ≠ some c) :
    Parses input (.element (.literal text) cursor) (.run none) := by
  have fails : ¬ text.toList.isPrefixOf landing.rest = true := by
    rw [List.isPrefixOf_iff_prefix]
    rintro ⟨after, split⟩
    refine differs ?_
    rw [← faces.head?, ← split, begins]
    rfl
  have noLeaf : input.literalAt? landing.position text = none := by
    rw [Input.literalAt?, Input.scanAt?_landing faces.landed, Option.bind_some,
      LexicalCell.literal?]
    change Option.map Leaf.tree (if text.toList.isPrefixOf landing.rest = true then _ else _) = _
    rw [if_neg fails]
    rfl
  have parses : Parses input (.element (.literal text) cursor)
      (.run ((input.literalAt? landing.position text).map
        fun leaf => ([⟨none, leaf⟩], leaf.stop))) := .literal faces.landed
  rw [noLeaf] at parses
  exact parses

/-! ### Sequences and repetitions -/

theorem named {tree : Tree V} (read : input.Reads symbol cursor lexemes landing tree) :
    Parses input (.element (.symbol symbol) cursor) (.run (some ([⟨none, tree⟩], tree.stop))) :=
  .reference rfl read.landed read.resolves

theorem labelled (label : String) {tree : Tree V}
    (read : input.Reads symbol cursor lexemes landing tree) :
    Parses input (.element (.labelled symbol label) cursor)
      (.run (some ([⟨some label, tree⟩], tree.stop))) :=
  .reference rfl read.landed read.resolves

theorem step {element : Element} {rest : List Element} {parts more : List (Branch V)}
    {stop : Position} (first : Parses input (.element element cursor) (.run (some (parts, next))))
    (others : Parses input (.sequence rest next) (.run (some (more, stop)))) :
    Parses input (.sequence (element :: rest) cursor) (.run (some (parts ++ more, stop))) :=
  .sequenceStep first others

theorem optional_some {elements : List Element} {parts : List (Branch V)}
    (sequence : Parses input (.sequence elements cursor) (.run (some (parts, next))))
    (forward : cursor.offset < next.offset) :
    Parses input (.element (.optional elements) cursor) (.run (some (parts, next))) := by
  have full : Parses input (.rounds elements 0 (some 1) 1 next) (.run (some ([], next))) :=
    .roundsFull rfl
  have rounds : Parses input (.rounds elements 0 (some 1) 0 cursor)
      (.run (some (parts ++ [], next))) :=
    .roundsOnward rfl sequence (Nat.ne_of_gt forward) full
  rw [List.append_nil] at rounds
  exact .repeated rounds

theorem optional_none {elements : List Element}
    (sequence : Parses input (.sequence elements cursor) (.run none)) :
    Parses input (.element (.optional elements) cursor) (.run (some ([], cursor))) :=
  .repeated (.roundsStopped rfl sequence)

theorem round {elements : List Element} {count : Nat} {parts more : List (Branch V)}
    {stop : Position}
    (sequence : Parses input (.sequence elements cursor) (.run (some (parts, next))))
    (forward : cursor.offset < next.offset)
    (others : Parses input (.rounds elements 0 none (count + 1) next) (.run (some (more, stop)))) :
    Parses input (.rounds elements 0 none count cursor) (.run (some (parts ++ more, stop))) :=
  .roundsOnward rfl sequence (Nat.ne_of_gt forward) others

theorem no_round {elements : List Element} {count : Nat}
    (sequence : Parses input (.sequence elements cursor) (.run none)) :
    Parses input (.rounds elements 0 none count cursor) (.run (some ([], cursor))) :=
  .roundsStopped rfl sequence

/-! ### Rules that do not start with themselves -/

def bestFrom (symbol : Symbol) :
    Nat → List (Option (List (Branch V) × Position)) → Option (Tree V) → Option (Tree V)
  | _, [], best => best
  | index, run :: rest, best =>
    bestFrom symbol (index + 1) rest (Tree.better best (Tree.ofRun? symbol index [] run))

theorem seeds_plain {alternatives : List (Alternative V)} {index : Nat}
    {runs : List (Option (List (Branch V) × Position))} {best : Option (Tree V)}
    (plain : ∀ alternative ∈ alternatives, alternative.recursive = false)
    (tried : List.Forall₂ (fun (alternative : Alternative V) run =>
      Parses input (.sequence alternative.elements place) (.run run)) alternatives runs) :
    Parses input (.seeds place symbol (alternatives.zipIdx index) best)
      (.tree (bestFrom symbol index runs best)) := by
  induction tried generalizing index best with
  | nil => exact .seedsDone
  | cons sequence _ ih =>
      obtain ⟨plainHead, plainRest⟩ := List.forall_mem_cons.1 plain
      exact .seedsTried plainHead sequence (ih plainRest)

theorem pass_plain {alternatives : List (Alternative V)} {index : Nat} {best : Tree V}
    (plain : ∀ alternative ∈ alternatives, alternative.recursive = false) :
    Parses input (.pass symbol (alternatives.zipIdx index) best) (.tree (some best)) := by
  induction alternatives generalizing index with
  | nil => exact .passDone
  | cons head rest ih =>
      obtain ⟨plainHead, plainRest⟩ := List.forall_mem_cons.1 plain
      exact .passSkipped plainHead (ih plainRest)

theorem plain {rule : Rule V} {runs : List (Option (List (Branch V) × Position))}
    (isRule : input.grammar.rule? symbol = some rule)
    (isPlain : ∀ alternative ∈ rule.alternatives, alternative.recursive = false)
    (tried : List.Forall₂ (fun (alternative : Alternative V) run =>
      Parses input (.sequence alternative.elements place) (.run run)) rule.alternatives runs) :
    Parses input (.resolve place symbol) (.tree (bestFrom symbol 0 runs none)) := by
  have seeds : Parses input (.seeds place symbol rule.alternatives.zipIdx none)
      (.tree (bestFrom symbol 0 runs none)) := seeds_plain isPlain tried
  cases found : bestFrom symbol 0 runs none with
  | none =>
      rw [found] at seeds
      exact .barren isRule seeds
  | some first =>
      rw [found] at seeds
      exact .grown isRule seeds (.extendDone (pass_plain isPlain) (Nat.lt_irrefl _))

end Parses

end Packrat
