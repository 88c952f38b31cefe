import Packrat.Chart.Resolve
import Packrat.Proofs.Chart.Leaves
import Packrat.Proofs.Grammar.Literals

/-!
Two texts under one grammar, of which some places correspond (`Bridge`). Corresponding places are
in the same order in both texts, skipping blank text leads from corresponding places to
corresponding places, and what the terminals and the literal texts of the grammar match there is
the same and ends at corresponding places.

Nothing else of two texts is compared while symbols are resolved. So charts that correspond
(`Bridge.Charts`) still do when corresponding cells have been asked for (`Bridge.syntaxCell`), when
corresponding nodes have been made, and when corresponding entries have been set.
-/

set_option autoImplicit false
set_option linter.unusedSectionVars false

namespace Packrat

variable {V : Type} [Kinded V]

section Options

variable {α β : Type} {related : α → β → Prop} {found : Option β}

theorem exists_of_rel_some {item : α} (both : Option.Rel related (some item) found) :
    ∃ other, found = some other ∧ related item other := by
  cases both with
  | some isRelated => exact ⟨_, rfl, isRelated⟩

theorem eq_none_of_rel_none (both : Option.Rel related none found) : found = none := by
  cases both
  rfl

end Options

/-! ### Places that correspond -/

/-- Two places behind blank text where a grammar finds the same. `meets` says which positions
correspond, and `skips` which blank texts do. -/
structure Landing.Aligned (grammar : Grammar V) (meets : Position → Position → Prop)
    (skips : List Char → List Char → Prop) (here there : Landing) : Prop where
  position : meets here.position there.position
  blank : skips here.blank there.blank
  terminals : ∀ terminal ∈ grammar.terminals, LexicalCell.scanTerminal there terminal =
    (LexicalCell.scanTerminal here terminal).map fun found => (found.1.moveTo there, found.2)
  terminalStops : ∀ terminal ∈ grammar.terminals, ∀ leaf candidate,
    LexicalCell.scanTerminal here terminal = some (leaf, candidate) →
      meets leaf.stop (leaf.moveTo there).stop
  literals : ∀ text ∈ grammar.literals, text.toList <+: here.rest ↔ text.toList <+: there.rest
  literalStops : ∀ text ∈ grammar.literals, text.toList <+: here.rest →
    meets (here.position.through text.toList) (there.position.through text.toList)

/-- Two texts under one grammar with a correspondence of places. -/
structure Bridge (first second : Input V) where
  Meets : Position → Position → Prop
  Skips : List Char → List Char → Prop
  grammar_eq : second.grammar = first.grammar
  lt_iff : ∀ {place place' other other' : Position}, Meets place place' → Meets other other' →
    (place.offset < other.offset ↔ place'.offset < other'.offset)
  lands : ∀ {place place' : Position}, Meets place place' →
    ∃ here there, first.land place = .ok here ∧ second.land place' = .ok there ∧
      here.Aligned first.grammar Meets Skips there

namespace Bridge

variable {first second : Input V} (bridge : Bridge first second)

def Lands (origin origin' : Position) : Prop :=
  ∃ here there, first.land origin = .ok here ∧ second.land origin' = .ok there ∧
    here.Aligned first.grammar bridge.Meets bridge.Skips there

variable {bridge} {place place' other other' : Position}

theorem offset_eq_iff (meets : bridge.Meets place place') (meets' : bridge.Meets other other') :
    place.offset = other.offset ↔ place'.offset = other'.offset := by
  have before := bridge.lt_iff meets meets'
  have behind := bridge.lt_iff meets' meets
  omega

/-! ### Tokens that correspond -/

variable (bridge)

structure Leaves (leaf leaf' : Leaf V) : Prop where
  symbol : leaf'.symbol = leaf.symbol
  text : leaf'.text = leaf.text
  value : leaf'.value = leaf.value
  blank : bridge.Skips leaf.blank leaf'.blank
  start : bridge.Meets leaf.start leaf'.start
  stop : bridge.Meets leaf.stop leaf'.stop

structure Lexemes (lexeme lexeme' : Lexeme V) : Prop
    extends bridge.Leaves lexeme.toLeaf lexeme'.toLeaf where
  number : lexeme'.number = lexeme.number

mutual

inductive Tokens : Token V → Token V → Prop where
  | leaf {lexeme lexeme'} : bridge.Lexemes lexeme lexeme' →
      Tokens (.leaf lexeme) (.leaf lexeme')
  | node {id symbol alternative start start' stop stop' children children'} :
      bridge.Meets start start' → bridge.Meets stop stop' → Parts children children' →
      Tokens (.node id symbol alternative start stop children)
        (.node id symbol alternative start' stop' children')

inductive Parts : List (Child V) → List (Child V) → Prop where
  | nil : Parts [] []
  | cons {label token token' rest rest'} : Tokens token token' → Parts rest rest' →
      Parts (⟨label, token⟩ :: rest) (⟨label, token'⟩ :: rest')

end

structure Runs (run run' : Run V) : Prop where
  parts : bridge.Parts run.1 run'.1
  stop : bridge.Meets run.2 run'.2

variable {bridge}

theorem Tokens.start {token token' : Token V} (tokens : bridge.Tokens token token') :
    bridge.Meets token.start token'.start := by
  cases tokens with
  | leaf lexemes => exact lexemes.start
  | node starts _ _ => exact starts

theorem Tokens.stop {token token' : Token V} (tokens : bridge.Tokens token token') :
    bridge.Meets token.stop token'.stop := by
  cases tokens with
  | leaf lexemes => exact lexemes.stop
  | node _ stops _ => exact stops

theorem Parts.append {parts parts' more more' : List (Child V)}
    (before : bridge.Parts parts parts') (behind : bridge.Parts more more') :
    bridge.Parts (parts ++ more) (parts' ++ more') := by
  induction parts generalizing parts' with
  | nil =>
      cases before
      exact behind
  | cons head tail ih =>
      cases before with
      | cons tokens rest => exact .cons tokens (ih rest)

theorem Parts.head? {parts parts' : List (Child V)} {part : Child V}
    (corresponding : bridge.Parts parts parts') (isFirst : parts.head? = some part) :
    ∃ part', parts'.head? = some part' ∧ bridge.Tokens part.item part'.item := by
  cases corresponding with
  | nil => cases isFirst
  | cons tokens _ =>
      cases isFirst
      exact ⟨_, rfl, tokens⟩

theorem Parts.getLast? {parts parts' : List (Child V)} {part : Child V}
    (corresponding : bridge.Parts parts parts') (isLast : parts.getLast? = some part) :
    ∃ part', parts'.getLast? = some part' ∧ bridge.Tokens part.item part'.item := by
  induction parts generalizing parts' with
  | nil => cases isLast
  | cons head tail ih =>
      cases corresponding with
      | cons tokens rest =>
          cases rest with
          | nil =>
              cases isLast
              exact ⟨_, rfl, tokens⟩
          | cons tokensNext others =>
              rw [List.getLast?_cons_cons] at isLast
              rw [List.getLast?_cons_cons]
              exact ih (.cons tokensNext others) isLast

/-! ### Cells that correspond -/

variable (bridge)

structure Cells (cell cell' : LexicalCell V) : Prop where
  aligned : cell.toLanding.Aligned first.grammar bridge.Meets bridge.Skips cell'.toLanding
  leaves : cell'.leaves = cell.leaves.map (Leaf.moveTo cell'.toLanding)
  matched : ∀ leaf ∈ cell.leaves, bridge.Leaves leaf (leaf.moveTo cell'.toLanding)
  first : cell'.first = cell.first

/-- Syntax cells in which the same is known about every rule, up to places. -/
structure SyntaxCells (cell cell' : SyntaxCell V) : Prop where
  lexical : bridge.Cells cell.lexical cell'.lexical
  known : ∀ symbol, Option.Rel (Option.Rel bridge.Tokens) (cell.known? symbol)
    (cell'.known? symbol)

variable {bridge}

theorem scan_cells {here there : Landing}
    (aligned : here.Aligned first.grammar bridge.Meets bridge.Skips there) (number : Nat) :
    bridge.Cells ((LexicalCell.scan first.grammar here).1.numbered number)
      ((LexicalCell.scan second.grammar there).1.numbered number) := by
  rw [bridge.grammar_eq]
  refine ⟨aligned, LexicalCell.scan_leaves_moveTo aligned.terminals, ?_, rfl⟩
  have holds : ∀ leaf ∈ (LexicalCell.scan first.grammar here).1.leaves,
      leaf.FitsAt here ∧ bridge.Meets leaf.stop (leaf.moveTo there).stop := by
    apply LexicalCell.scan_forall
    · intro leaf symbol both
      exact ⟨LexicalCell.retag_fits leaf symbol both.1, both.2⟩
    · intro terminal listed leaf candidate found
      exact ⟨LexicalCell.scanTerminal_fits found,
        aligned.terminalStops terminal listed leaf candidate found⟩
  intro leaf member
  rcases holds leaf member with ⟨fits, stops⟩
  refine ⟨rfl, rfl, rfl, ?_, ?_, stops⟩
  · rw [fits.blank]
    exact aligned.blank
  · rw [fits.start]
    exact aligned.position

section Lookups

variable {cell cell' : LexicalCell V} (cells : bridge.Cells cell cell')

include cells

theorem Cells.lexemes : cell'.lexemes = cell.lexemes.map (Lexeme.moveTo cell'.toLanding) := by
  apply List.ext_getElem?
  intro index
  unfold LexicalCell.lexemes
  rw [cells.leaves, cells.first, List.getElem?_mapIdx, List.getElem?_map, List.getElem?_map,
    List.getElem?_mapIdx, Option.map_map, Option.map_map]
  rfl

theorem Cells.lexeme? (symbol : Symbol) :
    Option.Rel bridge.Tokens ((cell.lexeme? symbol).map .leaf)
      ((cell'.lexeme? symbol).map .leaf) := by
  have moved : cell'.lexeme? symbol =
      (cell.lexeme? symbol).map (Lexeme.moveTo cell'.toLanding) := by
    unfold LexicalCell.lexeme?
    rw [cells.lexemes, List.find?_map]
    rfl
  rw [moved]
  cases found : cell.lexeme? symbol with
  | none => exact .none
  | some lexeme =>
      have listed := List.mem_of_find?_eq_some (LexicalCell.leaf?_of_lexeme? found)
      exact .some (.leaf ⟨cells.matched lexeme.toLeaf listed, rfl⟩)

theorem Cells.literal? {text : String} (listed : text ∈ first.grammar.literals) :
    Option.Rel bridge.Leaves (cell.literal? text) (cell'.literal? text) := by
  have begins := cells.aligned.literals text listed
  unfold LexicalCell.literal?
  by_cases here : text.toList <+: cell.rest
  · rw [if_pos (List.isPrefixOf_iff_prefix.2 here),
      if_pos (List.isPrefixOf_iff_prefix.2 (begins.1 here))]
    exact .some ⟨rfl, rfl, rfl, cells.aligned.blank, cells.aligned.position,
      cells.aligned.literalStops text listed here⟩
  · rw [if_neg (fun found => here (List.isPrefixOf_iff_prefix.1 found)),
      if_neg (fun found => here (begins.2 (List.isPrefixOf_iff_prefix.1 found)))]
    exact .none

end Lookups

/-! ### Charts that correspond -/

variable (bridge)

/-- Charts with corresponding cells at corresponding places, where the same has been found for the
literal texts of the grammar, and with the same numbers of leaves and nodes. -/
structure Charts (chart chart' : Chart V) : Prop where
  lexical : ∀ {place place'}, bridge.Meets place place' →
    Option.Rel bridge.Cells (chart.lexicalAt? place.offset) (chart'.lexicalAt? place'.offset)
  syntactic : ∀ {place place'}, bridge.Meets place place' →
    Option.Rel bridge.SyntaxCells (chart.syntacticAt? place.offset)
      (chart'.syntacticAt? place'.offset)
  literals : ∀ {place place' text}, bridge.Meets place place' → text ∈ first.grammar.literals →
    Option.Rel (Option.Rel bridge.Lexemes) (chart.literal? place.offset text)
      (chart'.literal? place'.offset text)
  leaves : chart'.leaves = chart.leaves
  created : chart'.created = chart.created

variable {bridge}

namespace Charts

theorem empty : bridge.Charts {} {} := by
  refine ⟨?_, ?_, ?_, rfl, rfl⟩
  · intro place place' _
    simp [Chart.lexicalAt?]
  · intro place place' _
    simp [Chart.syntacticAt?]
  · intro place place' text _ _
    simp [Chart.literal?]

variable {chart chart' after after' : Chart V} (charts : bridge.Charts chart chart')

include charts

theorem known? (meets : bridge.Meets place place') (symbol : Symbol) :
    Option.Rel (Option.Rel bridge.Tokens) (chart.known? place.offset symbol)
      (chart'.known? place'.offset symbol) := by
  have both := charts.syntactic meets
  unfold Chart.known?
  cases found : chart.syntacticAt? place.offset with
  | none =>
      rw [found] at both
      rw [eq_none_of_rel_none both]
      exact .none
  | some cell =>
      rw [found] at both
      obtain ⟨cell', found', cells⟩ := exists_of_rel_some both
      rw [found']
      exact cells.known symbol

theorem report (event event' : Event) :
    bridge.Charts (chart.report event) (chart'.report event') :=
  ⟨charts.lexical, charts.syntactic, charts.literals, charts.leaves, charts.created⟩

theorem store {cell cell' : LexicalCell V} {entry entry' : Option (Token V)}
    (cells : bridge.Cells cell cell') (symbol : Symbol)
    (entries : Option.Rel bridge.Tokens entry entry') :
    bridge.Charts (chart.store cell.position.offset symbol entry)
      (chart'.store cell'.position.offset symbol entry') := by
  refine ⟨charts.lexical, ?_, charts.literals, charts.leaves, charts.created⟩
  intro place place' meets
  rw [Chart.syntacticAt?_store, Chart.syntacticAt?_store]
  have same := offset_eq_iff cells.aligned.position meets
  by_cases here : cell.position.offset = place.offset
  · rw [if_pos here, if_pos (same.1 here)]
    have both := charts.syntactic cells.aligned.position
    cases found : chart.syntacticAt? cell.position.offset with
    | none =>
        rw [found] at both
        rw [eq_none_of_rel_none both]
        exact .none
    | some stored =>
        rw [found] at both
        obtain ⟨stored', found', known⟩ := exists_of_rel_some both
        rw [found']
        refine .some ⟨known.lexical, ?_⟩
        intro other
        rw [SyntaxCell.known?_store, SyntaxCell.known?_store]
        by_cases isSymbol : symbol = other
        · rw [if_pos isSymbol, if_pos isSymbol]
          exact .some entries
        · rw [if_neg isSymbol, if_neg isSymbol]
          exact known.known other
  · rw [if_neg here, if_neg (mt same.2 here)]
    exact charts.syntactic meets

theorem enter {cell cell' : LexicalCell V} (cells : bridge.Cells cell cell') (symbol : Symbol) :
    bridge.Charts (chart.enter cell.position.offset symbol)
      (chart'.enter cell'.position.offset symbol) :=
  have stored := charts.store cells symbol .none
  ⟨stored.lexical, stored.syntactic, stored.literals, stored.leaves, stored.created⟩

theorem makeNode {symbol : Symbol} {index : Nat} {parts parts' : List (Child V)} {node : Token V}
    (corresponding : bridge.Parts parts parts')
    (made : Chart.makeNode symbol index parts chart = (some node, after)) :
    ∃ node' after', Chart.makeNode symbol index parts' chart' = (some node', after') ∧
      bridge.Tokens node node' ∧ bridge.Charts after after' := by
  unfold Chart.makeNode at made ⊢
  cases isFirst : parts.head? with
  | none => simp [isFirst] at made
  | some begin_ =>
      cases isLast : parts.getLast? with
      | none => simp [isFirst, isLast] at made
      | some last =>
          obtain ⟨begin', isFirst', starts⟩ := corresponding.head? isFirst
          obtain ⟨last', isLast', stops⟩ := corresponding.getLast? isLast
          simp only [isFirst, isLast, Prod.mk.injEq, Option.some.injEq] at made
          rcases made with ⟨rfl, rfl⟩
          simp only [isFirst', isLast', charts.created]
          refine ⟨_, _, rfl, .node starts.start stops.stop corresponding, ?_⟩
          exact ⟨charts.lexical, charts.syntactic, charts.literals, charts.leaves, rfl⟩

/-! ### Asking for cells -/

theorem lexicalCell {cell : LexicalCell V} (lands : bridge.Lands place place')
    (asked : chart.lexicalCell first place = .ok (cell, after)) :
    ∃ cell' after', chart'.lexicalCell second place' = .ok (cell', after') ∧
      bridge.Cells cell cell' ∧ bridge.Charts after after' := by
  obtain ⟨here, there, landed, landed', aligned⟩ := lands
  have scanned := scan_cells aligned chart.leaves
  unfold Chart.lexicalCell at asked ⊢
  simp only [landed] at asked
  simp only [landed']
  have both := charts.lexical aligned.position
  cases found : chart.lexicalAt? here.position.offset with
  | some known =>
      rw [found] at both
      obtain ⟨known', found', cells⟩ := exists_of_rel_some both
      simp only [found, Except.ok.injEq, Prod.mk.injEq] at asked
      rcases asked with ⟨rfl, rfl⟩
      simp only [found']
      exact ⟨known', chart', rfl, cells, charts⟩
  | none =>
      rw [found] at both
      simp only [found, Except.ok.injEq, Prod.mk.injEq] at asked
      rcases asked with ⟨rfl, rfl⟩
      simp only [eq_none_of_rel_none both, charts.leaves]
      refine ⟨_, _, rfl, scanned, ⟨?_, charts.syntactic, charts.literals, ?_, charts.created⟩⟩
      swap
      · rw [scanned.leaves, List.length_map]
      intro other other' meets
      rw [Chart.lexicalAt?_insert, Chart.lexicalAt?_insert]
      have same := offset_eq_iff aligned.position meets
      by_cases isHere : here.position.offset = other.offset
      · rw [if_pos isHere, if_pos (same.1 isHere)]
        exact .some scanned
      · rw [if_neg isHere, if_neg (mt same.2 isHere)]
        exact charts.lexical meets

theorem syntaxCell {cell : SyntaxCell V} (lands : bridge.Lands place place')
    (asked : chart.syntaxCell first place = .ok (cell, after)) :
    ∃ cell' after', chart'.syntaxCell second place' = .ok (cell', after') ∧
      bridge.Cells cell.lexical cell'.lexical ∧ bridge.Charts after after' := by
  obtain ⟨lexical, between, below, possible⟩ := Chart.syntaxCell_cases asked
  obtain ⟨lexical', between', below', cells, chartsBetween⟩ := charts.lexicalCell lands below
  have both := chartsBetween.syntactic cells.aligned.position
  unfold Chart.syntaxCell
  simp only [below']
  rcases possible with ⟨found, rfl⟩ | ⟨missing, rfl, rfl⟩
  · rw [found] at both
    obtain ⟨cell', found', known⟩ := exists_of_rel_some both
    simp only [found']
    exact ⟨cell', between', rfl, known.lexical, chartsBetween⟩
  · rw [missing] at both
    simp only [eq_none_of_rel_none both]
    refine ⟨_, _, rfl, cells, ⟨chartsBetween.lexical, ?_, chartsBetween.literals,
      chartsBetween.leaves, chartsBetween.created⟩⟩
    intro other other' meets
    rw [Chart.syntacticAt?_insert, Chart.syntacticAt?_insert]
    have same := offset_eq_iff cells.aligned.position meets
    by_cases isHere : lexical.position.offset = other.offset
    · rw [if_pos isHere, if_pos (same.1 isHere)]
      exact .some ⟨cells, fun _ => .none⟩
    · rw [if_neg isHere, if_neg (mt same.2 isHere)]
      exact chartsBetween.syntactic meets

/-! ### Asking for literal texts -/

theorem storeLiteral {cell cell' : LexicalCell V} {text : String} {entry entry' : Option (Lexeme V)}
    (cells : bridge.Cells cell cell') (entries : Option.Rel bridge.Lexemes entry entry') :
    bridge.Charts (chart.storeLiteral cell.position.offset text entry)
      (chart'.storeLiteral cell'.position.offset text entry') := by
  refine ⟨charts.lexical, charts.syntactic, ?_, charts.leaves, charts.created⟩
  intro place place' other meets listed
  rw [Chart.literal?_storeLiteral, Chart.literal?_storeLiteral]
  have same := offset_eq_iff cells.aligned.position meets
  by_cases here : cell.position.offset = place.offset ∧ text = other
  · rw [if_pos here, if_pos (here.imp_left same.1)]
    exact .some entries
  · rw [if_neg here, if_neg fun there => here (there.imp_left same.2)]
    exact charts.literals meets listed

theorem literal {cell cell' : LexicalCell V} {text : String} {found : Option (Lexeme V)}
    (cells : bridge.Cells cell cell') (listed : text ∈ first.grammar.literals)
    (done : chart.literal cell text = (found, after)) :
    ∃ found' after', chart'.literal cell' text = (found', after') ∧
      Option.Rel bridge.Lexemes found found' ∧ bridge.Charts after after' := by
  have both := charts.literals cells.aligned.position listed
  have matched := cells.literal? listed
  unfold Chart.literal at done ⊢
  cases known : chart.literal? cell.position.offset text with
  | some entry =>
      rw [known] at both done
      obtain ⟨entry', known', entries⟩ := exists_of_rel_some both
      cases done
      rw [known']
      exact ⟨entry', chart', rfl, entries, charts⟩
  | none =>
      rw [known] at both done
      rw [eq_none_of_rel_none both]
      cases fits : cell.literal? text with
      | none =>
          rw [fits] at matched done
          cases done
          rw [eq_none_of_rel_none matched]
          exact ⟨_, _, rfl, .none, charts.storeLiteral cells .none⟩
      | some leaf =>
          rw [fits] at matched done
          obtain ⟨leaf', fits', leaves⟩ := exists_of_rel_some matched
          cases done
          rw [fits']
          have lexemes : bridge.Lexemes ⟨leaf, chart.leaves⟩ ⟨leaf', chart'.leaves⟩ :=
            ⟨leaves, charts.leaves⟩
          have made : bridge.Charts { chart with leaves := chart.leaves + 1 }
              { chart' with leaves := chart'.leaves + 1 } :=
            ⟨charts.lexical, charts.syntactic, charts.literals,
              congrArg (· + 1) charts.leaves, charts.created⟩
          exact ⟨_, _, rfl, .some lexemes, made.storeLiteral cells (.some lexemes)⟩

theorem literalAt {text : String} {found : Option (Lexeme V)} (lands : bridge.Lands place place')
    (listed : text ∈ first.grammar.literals)
    (asked : chart.literalAt first place text = .ok (found, after)) :
    ∃ found' after', chart'.literalAt second place' text = .ok (found', after') ∧
      Option.Rel bridge.Lexemes found found' ∧ bridge.Charts after after' := by
  obtain ⟨cell, opened, below, done⟩ := Chart.literalAt_cases asked
  obtain ⟨cell', opened', below', cells, chartsOpened⟩ := charts.lexicalCell lands below
  obtain ⟨found', after', done', both, chartsAfter⟩ := chartsOpened.literal cells listed done
  refine ⟨found', after', ?_, both, chartsAfter⟩
  unfold Chart.literalAt
  rw [below']
  exact congrArg Except.ok done'

end Charts

end Bridge

end Packrat
