import Packrat.Proofs.Derivation.Inversion
import Packrat.Proofs.Json.Values

/-!
What is derived for a value is a document: its tree shows the document, and its leaves are the
lexemes of the document (`Document.of_derived`). The proof goes along the size of tokens, since the
items and members of a node are derived independently of each other.
-/

set_option autoImplicit false

namespace Packrat.Json

section Tokens

variable {source : List Char} {chart : Chart Json}

def ShowsDocument (source : List Char) (chart : Chart Json) (token : Token Json) : Prop :=
  ∀ cell : LexicalCell Json, cell.Scanned (sourced source) →
    Derives (sourced source) chart (.matched cell valueSymbol token) →
    ∃ document : Document, document.Shows token.tree ∧ token.tree.lexemes = document.lexemes

/-! ### Items -/

theorem items_of_rows (arena : chart.Arena (sourced source)) (rows : List (List (Child Json)))
    (runs : ∀ row ∈ rows, ∃ start finish,
      Derives (sourced source) chart (.run furtherItems start row finish))
    (each : ∀ part ∈ rows.flatten, ShowsDocument source chart part.item) :
    ∃ items, Items.Show items (labelled itemLabel (Token.branches rows.flatten)) ∧
      Token.lexemesOf rows.flatten = (Document.itemRows items).flatMap ([','] :: ·) := by
  induction rows with
  | nil => exact ⟨[], .nil, rfl⟩
  | cons row others ih =>
      obtain ⟨⟨start, finish, run⟩, runsOthers⟩ := List.forall_mem_cons.1 runs
      rw [List.flatten_cons, List.forall_mem_append] at each
      obtain ⟨items, shown, written⟩ := ih runsOthers each.2
      obtain ⟨comma, _, rfl, isComma, -, behind⟩ := run.run_literal
      obtain ⟨cell, token, _, rfl, leads, matched, ended⟩ := behind.run_reference rfl
      obtain ⟨rfl, -⟩ := ended.run_nil
      obtain ⟨item, shownItem, writtenItem⟩ :=
        each.1 _ (.tail _ (.head _)) cell (Chart.cellFrom?_scanned arena leads).1 matched
      refine ⟨item :: items, ?_, ?_⟩
      · simpa [Token.branches_append, Token.branches, Element.label?] using .cons shownItem shown
      · simp [written, writtenItem, isComma, Document.itemRows]

theorem of_enclosed {symbol : Symbol} {opening closing : String} {body : List Element}
    {value : Lookup Json (Option Json)} {cell : LexicalCell Json} {token : Token Json}
    (isRule : ready.rule? symbol = some (enclosed symbol opening closing body value))
    (derived : Derives (sourced source) chart (.matched cell symbol token)) :
    ∃ id start stop first last parts,
      token = .node id symbol 0 start stop
        (⟨none, .leaf first⟩ :: (parts ++ [⟨none, .leaf last⟩])) ∧
      first.text = opening.toList ∧ last.text = closing.toList ∧
      (parts = [] ∨
        ∃ begin_ finish, Derives (sourced source) chart (.run body begin_ parts finish)) := by
  obtain ⟨id, start, stop, _, _, rfl, run⟩ := derived.of_only isRule rfl rfl
  obtain ⟨first, _, rfl, isFirst, -, behind⟩ := run.run_literal
  obtain ⟨parts, _, _, rfl, rounds, atEnd⟩ := behind.run_repeated
  obtain ⟨last, _, rfl, isLast, -, ended⟩ := atEnd.run_literal
  obtain ⟨rfl, -⟩ := ended.run_nil
  refine ⟨id, start, stop, first, last, parts, rfl, isFirst, isLast, ?_⟩
  exact rounds.optional_cases.imp_right fun ⟨finish, run⟩ => ⟨_, finish, run⟩

theorem array_of_derived (arena : chart.Arena (sourced source)) {cell : LexicalCell Json}
    {token : Token Json}
    (derived : Derives (sourced source) chart (.matched cell arraySymbol token))
    (each : ∀ part, sizeOf part < sizeOf token → ShowsDocument source chart part) :
    ∃ items start stop parts, token.tree = .node arraySymbol 0 start stop parts ∧
      Items.Show items (labelled itemLabel parts) ∧
      token.tree.lexemes = ['['] :: (separated (Document.itemRows items) ++ [[']']]) := by
  obtain ⟨id, start, stop, first, last, parts, rfl, isFirst, isLast, body⟩ :=
    of_enclosed rfl derived
  have eachPart : ∀ part ∈ parts, ShowsDocument source chart part.item := fun part member =>
    each _ (Token.sizeOf_lt_of_mem (.tail _ (List.mem_append_left _ member)))
  have inside : ∃ items, Items.Show items (labelled itemLabel (Token.branches parts)) ∧
      Token.lexemesOf parts = separated (Document.itemRows items) := by
    rcases body with rfl | ⟨begin_, finish, run⟩
    · exact ⟨[], .nil, rfl⟩
    · obtain ⟨cell, token, _, rfl, leads, matched, behind⟩ := run.run_reference rfl
      obtain ⟨further, _, _, rfl, rounds, ended⟩ := behind.run_repeated
      obtain ⟨rfl, -⟩ := ended.run_nil
      obtain ⟨rows, rfl, runs⟩ := rounds.rounds_rows
      rw [List.append_nil] at eachPart
      obtain ⟨item, shownItem, writtenItem⟩ :=
        eachPart _ (.head _) cell (Chart.cellFrom?_scanned arena leads).1 matched
      obtain ⟨items, shown, written⟩ :=
        items_of_rows arena rows runs fun part member => eachPart part (.tail _ member)
      refine ⟨item :: items, ?_, ?_⟩
      · simpa [Token.branches, Element.label?] using .cons shownItem shown
      · simp [written, writtenItem, Document.itemRows, separated]
  obtain ⟨items, shown, written⟩ := inside
  refine ⟨items, start, stop, _, rfl, ?_, ?_⟩
  · simpa [Token.branches, Token.branches_append] using shown
  · rw [Token.lexemes_node]
    simp [Token.lexemesOf_append, isFirst, isLast, written]

/-! ### Members -/

theorem member_of_run (arena : chart.Arena (sourced source)) (rest : List Element)
    {start finish : Position} {parts : List (Child Json)}
    (run : Derives (sourced source) chart (.run (member ++ rest) start parts finish))
    (each : ∀ part ∈ parts, ShowsDocument source chart part.item) :
    ∃ (key : Key) (value : Document) (name colon token : Token Json) (more : List (Child Json)),
      parts = ⟨some keyLabel, name⟩ :: ⟨none, colon⟩ :: ⟨some valueLabel, token⟩ :: more ∧
      (∃ first last, name.tree =
        .leaf stringSymbol key.text first last (some (stringValue key.text))) ∧
      value.Shows token.tree ∧
      Token.lexemesOf parts =
        key.text :: [':'] :: (value.lexemes ++ Token.lexemesOf more) ∧
      ∃ begin_, Derives (sourced source) chart (.run rest begin_ more finish) := by
  obtain ⟨cell, name, _, rfl, leads, isName, behindName⟩ := run.run_reference rfl
  obtain ⟨colon, _, rfl, isColon, -, behindColon⟩ := behindName.run_literal
  obtain ⟨valueCell, token, more, rfl, leadsValue, matched, others⟩ :=
    behindColon.run_reference rfl
  have scanned := (Chart.cellFrom?_scanned arena leads).1
  obtain ⟨leaf, number, rfl, found⟩ := isName.of_leaf rfl scanned
  obtain ⟨text, isString, rfl⟩ := string_of_leaf found
  obtain ⟨value, shown, written⟩ := each _ (.tail _ (.tail _ (.head _))) valueCell
    (Chart.cellFrom?_scanned arena leadsValue).1 matched
  refine ⟨⟨text, isString⟩, value, _, .leaf colon, token, more, rfl,
    ⟨cell.position, cell.position.through text, ?_⟩, shown, ?_, _, others⟩
  · rfl
  · rw [Token.lexemesOf_cons, Token.lexemesOf_cons, Token.lexemesOf_cons, written,
      Token.lexemes_leaf, Token.lexemes_leaf, isColon]
    rfl

theorem members_of_rows (arena : chart.Arena (sourced source)) (rows : List (List (Child Json)))
    (runs : ∀ row ∈ rows, ∃ start finish,
      Derives (sourced source) chart (.run (.literal "," :: member) start row finish))
    (each : ∀ part ∈ rows.flatten, ShowsDocument source chart part.item) :
    ∃ members, Members.Show members (labelled keyLabel (Token.branches rows.flatten))
        (labelled valueLabel (Token.branches rows.flatten)) ∧
      Token.lexemesOf rows.flatten = (Document.memberRows members).flatMap ([','] :: ·) := by
  induction rows with
  | nil => exact ⟨[], .nil, rfl⟩
  | cons row others ih =>
      obtain ⟨⟨start, finish, run⟩, runsOthers⟩ := List.forall_mem_cons.1 runs
      rw [List.flatten_cons, List.forall_mem_append] at each
      obtain ⟨members, shown, written⟩ := ih runsOthers each.2
      obtain ⟨comma, parts, rfl, isComma, -, behind⟩ := run.run_literal
      obtain ⟨key, value, name, colon, token, more, rfl, ⟨first, last, isName⟩, shownValue,
        writtenMember, _, ended⟩ :=
        member_of_run arena [] behind fun part member => each.1 part (.tail _ member)
      obtain ⟨rfl, -⟩ := ended.run_nil
      refine ⟨(key, value) :: members, ?_, ?_⟩
      · rw [List.flatten_cons, Token.branches_append]
        simp only [Token.branches, List.cons_append, List.nil_append, labelled_none, labelled_key,
          labelled_value, isName]
        exact .cons shownValue shown
      · rw [List.flatten_cons, Token.lexemesOf_append, Token.lexemesOf_cons, writtenMember, written]
        simp [isComma, Document.memberRows]

theorem object_of_derived (arena : chart.Arena (sourced source)) {cell : LexicalCell Json}
    {token : Token Json}
    (derived : Derives (sourced source) chart (.matched cell objectSymbol token))
    (each : ∀ part, sizeOf part < sizeOf token → ShowsDocument source chart part) :
    ∃ members start stop parts, token.tree = .node objectSymbol 0 start stop parts ∧
      Members.Show members (labelled keyLabel parts) (labelled valueLabel parts) ∧
      token.tree.lexemes =
        ['\x7b'] :: (separated (Document.memberRows members) ++ [['\x7d']]) := by
  obtain ⟨id, start, stop, first, last, parts, rfl, isFirst, isLast, body⟩ :=
    of_enclosed rfl derived
  have eachPart : ∀ part ∈ parts, ShowsDocument source chart part.item := fun part member =>
    each _ (Token.sizeOf_lt_of_mem (.tail _ (List.mem_append_left _ member)))
  have inside : ∃ members, Members.Show members (labelled keyLabel (Token.branches parts))
        (labelled valueLabel (Token.branches parts)) ∧
      Token.lexemesOf parts = separated (Document.memberRows members) := by
    rcases body with rfl | ⟨begin_, finish, run⟩
    · exact ⟨[], .nil, rfl⟩
    · obtain ⟨key, value, name, colon, token, more, rfl, ⟨first, last, isName⟩, shownValue,
        writtenMember, _, behind⟩ := member_of_run arena _ run eachPart
      obtain ⟨further, _, _, rfl, rounds, ended⟩ := behind.run_repeated
      obtain ⟨rfl, -⟩ := ended.run_nil
      obtain ⟨rows, rfl, runs⟩ := rounds.rounds_rows
      rw [List.append_nil] at eachPart writtenMember ⊢
      obtain ⟨members, shown, written⟩ := members_of_rows arena rows runs
        fun part member => eachPart part (.tail _ (.tail _ (.tail _ member)))
      refine ⟨(key, value) :: members, ?_, ?_⟩
      · simp only [Token.branches, labelled_key, labelled_value, isName]
        exact .cons shownValue shown
      · rw [writtenMember, written]
        rfl
  obtain ⟨members, shown, written⟩ := inside
  refine ⟨members, start, stop, _, rfl, ?_, ?_⟩
  · simpa [Token.branches, Token.branches_append] using shown
  · rw [Token.lexemes_node]
    simp [Token.lexemesOf_append, isFirst, isLast, written]

/-! ### Documents -/

/-- What is derived for a value shows a document, and is written as the document is. -/
theorem Document.of_derived (arena : chart.Arena (sourced source)) (token : Token Json) :
    ShowsDocument source chart token := by
  induction size : sizeOf token using Nat.strongRecOn generalizing token with
  | ind bound ih =>
      subst size
      intro cell _ derived
      obtain ⟨index, alternative, id, start, stop, children, finish, found, rfl, run⟩ :=
        derived.of_rule (show ready.rule? valueSymbol = some valueRule from rfl) (by decide)
      have lone {symbol : Symbol}
          (run : Derives (sourced source) chart
            (.run (passing symbol).elements cell.position children finish)) :
          ∃ inner part, inner.Scanned (sourced source) ∧ children = [⟨none, part⟩] ∧
            Derives (sourced source) chart (.matched inner symbol part) ∧
            sizeOf part < sizeOf (Token.node id valueSymbol index start stop children) := by
        obtain ⟨inner, part, _, rfl, leads, matched, ended⟩ := run.run_reference rfl
        obtain ⟨rfl, -⟩ := ended.run_nil
        have member : (⟨none, part⟩ : Child Json) ∈ [⟨none, part⟩] := .head _
        exact ⟨inner, part, (Chart.cellFrom?_scanned arena leads).1, rfl, matched,
          Token.sizeOf_lt_of_mem member⟩
      match index, found with
      | 0, found =>
          cases found
          obtain ⟨inner, part, scanned, rfl, matched, -⟩ := lone run
          obtain ⟨leaf, number, rfl, isLeaf⟩ := matched.of_leaf rfl scanned
          obtain ⟨atom, rfl⟩ := atom_of_leaf isLeaf
          exact ⟨.atom atom, .atom, rfl⟩
      | 1, found =>
          cases found
          obtain ⟨inner, part, -, rfl, matched, smaller⟩ := lone run
          obtain ⟨items, first, last, parts, isNode, shown, written⟩ :=
            array_of_derived arena matched fun part' smaller' =>
              ih _ (Nat.lt_trans smaller' smaller) part' rfl
          refine ⟨.array items, ?_, ?_⟩
          · rw [Token.tree, Token.branches, isNode]
            exact .array shown
          · rw [Token.lexemes_node, Token.lexemesOf_cons, written]
            simp [Document.lexemes]
      | 2, found =>
          cases found
          obtain ⟨inner, part, -, rfl, matched, smaller⟩ := lone run
          obtain ⟨members, first, last, parts, isNode, shown, written⟩ :=
            object_of_derived arena matched fun part' smaller' =>
              ih _ (Nat.lt_trans smaller' smaller) part' rfl
          refine ⟨.object members, ?_, ?_⟩
          · rw [Token.tree, Token.branches, isNode]
            exact .object shown
          · rw [Token.lexemes_node, Token.lexemesOf_cons, written]
            simp [Document.lexemes]
      | _ + 3, found => cases found

end Tokens

end Packrat.Json
