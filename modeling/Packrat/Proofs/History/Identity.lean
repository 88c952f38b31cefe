import Packrat.Proofs.History.Moves

/-!
Leaves are told apart by their numbers. A cell takes as many numbers as it has leaves when it is
made, and a literal text that is there takes one when it is asked for first, each from the number
of leaves that have been made so far. So two leaves of a chart have the same number only if they
are kept at the same place (`Chart.Reachable.distinct`).
-/

set_option autoImplicit false
set_option linter.unusedSectionVars false

namespace Packrat

variable {V : Type} [Kinded V]

/-- Where a leaf is kept: among the leaves of a cell, or under a literal text. -/
inductive LeafHome where
  | cell (offset index : Nat)
  | literal (offset : Nat) (text : String)

namespace Chart

def lexemeAt? (chart : Chart V) : LeafHome → Option (Lexeme V)
  | .cell offset index => (chart.lexicalAt? offset).bind (·.lexemes[index]?)
  | .literal offset text => (chart.literal? offset text).join

structure Distinct (chart : Chart V) : Prop where
  below : ∀ {home lexeme}, chart.lexemeAt? home = some lexeme → lexeme.number < chart.leaves
  apart : ∀ {home other lexeme lexeme'}, chart.lexemeAt? home = some lexeme →
    chart.lexemeAt? other = some lexeme' → lexeme.number = lexeme'.number → home = other

namespace Distinct

variable {input : Input V} {chart after : Chart V} {origin : Position} {text : String}
  {cell : LexicalCell V} {found : Option (Lexeme V)}

theorem empty : ({} : Chart V).Distinct := by
  have none_ (home : LeafHome) : ({} : Chart V).lexemeAt? home = none := by
    cases home <;> simp [lexemeAt?, lexicalAt?, literal?]
  refine ⟨?_, ?_⟩
  · intro home lexeme here
    rw [none_] at here
    cases here
  · intro home other lexeme lexeme' here
    rw [none_] at here
    cases here

/-- New leaves take the next numbers in the order of their homes. -/
theorem grow (distinct : chart.Distinct) (homes : Nat → LeafHome)
    (more : chart.leaves ≤ after.leaves)
    (fresh : ∀ {home lexeme}, after.lexemeAt? home = some lexeme →
      chart.lexemeAt? home = some lexeme ∨
        ∃ index, home = homes index ∧ lexeme.number = chart.leaves + index ∧
          lexeme.number < after.leaves) : after.Distinct := by
  refine ⟨?_, ?_⟩
  · intro home lexeme here
    rcases fresh here with old | ⟨-, -, -, below⟩
    · exact Nat.lt_of_lt_of_le (distinct.below old) more
    · exact below
  · intro home other lexeme lexeme' here there same
    rcases fresh here with old | ⟨index, isHome, number, -⟩
    · rcases fresh there with old' | ⟨index', -, number', -⟩
      · exact distinct.apart old old' same
      · have below := distinct.below old
        omega
    · rcases fresh there with old' | ⟨index', isHome', number', -⟩
      · have below := distinct.below old'
        omega
      · have sameIndex : index = index' := by omega
        rw [isHome, isHome', sameIndex]

theorem of_same (distinct : chart.Distinct) (lexical : after.lexical = chart.lexical)
    (literals : after.literals = chart.literals) (leaves : after.leaves = chart.leaves) :
    after.Distinct := by
  have same (home : LeafHome) : after.lexemeAt? home = chart.lexemeAt? home := by
    cases home with
    | cell offset index => rw [lexemeAt?, lexemeAt?, lexicalAt?, lexicalAt?, lexical]
    | literal offset text => rw [lexemeAt?, lexemeAt?, literal?, literal?, literals]
  refine distinct.grow (.cell 0) (Nat.le_of_eq leaves.symm) ?_
  intro home lexeme here
  rw [same] at here
  exact .inl here

theorem lexicalCell (distinct : chart.Distinct)
    (asked : chart.lexicalCell input origin = .ok (cell, after)) : after.Distinct := by
  rcases lexicalCell_cases asked with ⟨landing, -, ⟨-, rfl⟩ | ⟨-, isCell, rfl⟩⟩
  · exact distinct
  · refine distinct.grow (.cell landing.position.offset) (Nat.le_add_right _ _) ?_
    intro home lexeme here
    cases home with
    | literal offset text => exact .inl here
    | cell offset index =>
        rw [lexemeAt?, lexicalAt?_insert] at here
        by_cases same : landing.position.offset = offset
        · rw [if_pos same, Option.bind_some] at here
          have first : cell.first = chart.leaves := by
            rw [isCell]
            rfl
          rw [LexicalCell.lexemes, List.getElem?_mapIdx] at here
          obtain ⟨leaf, listed, rfl⟩ := Option.map_eq_some_iff.1 here
          have inside : index < cell.leaves.length := (List.getElem?_eq_some_iff.1 listed).1
          refine .inr ⟨index, by rw [same], by rw [first], ?_⟩
          change cell.first + index < chart.leaves + cell.leaves.length
          omega
        · rw [if_neg same] at here
          exact .inl here

theorem literal (distinct : chart.Distinct)
    (done : chart.literal cell text = (found, after)) : after.Distinct := by
  rcases literal_cases done with ⟨-, rfl⟩ | ⟨-, isFound, rfl⟩
  · exact distinct
  · refine distinct.grow (fun _ => .literal cell.position.offset text) (Nat.le_add_right _ _) ?_
    intro home lexeme here
    cases home with
    | cell offset index => exact .inl here
    | literal offset other =>
        rw [lexemeAt?, literal?_storeLiteral] at here
        by_cases same : cell.position.offset = offset ∧ text = other
        · rw [if_pos same, Option.join_some] at here
          subst here
          obtain ⟨leaf, -, rfl⟩ := Option.map_eq_some_iff.1 isFound.symm
          exact .inr ⟨0, by rw [same.1, same.2], rfl, Nat.lt_succ_self _⟩
        · rw [if_neg same] at here
          exact .inl here

theorem literalAt (distinct : chart.Distinct)
    (asked : chart.literalAt input origin text = .ok (found, after)) : after.Distinct := by
  obtain ⟨cell, opened, below, done⟩ := literalAt_cases asked
  exact (distinct.lexicalCell below).literal done

theorem syntaxCell {cell : SyntaxCell V} (distinct : chart.Distinct)
    (asked : chart.syntaxCell input origin = .ok (cell, after)) : after.Distinct := by
  obtain ⟨lexical, between, below, ⟨-, rfl⟩ | ⟨-, -, rfl⟩⟩ := syntaxCell_cases asked
  · exact distinct.lexicalCell below
  · exact (distinct.lexicalCell below).of_same rfl rfl rfl

theorem move (distinct : chart.Distinct) (move : Moves input chart after) : after.Distinct := by
  cases move with
  | lexicalCell asked => exact distinct.lexicalCell asked
  | syntaxCell asked => exact distinct.syntaxCell asked
  | literal _ done => exact distinct.literal done
  | literalAt asked => exact distinct.literalAt asked
  | enter => exact distinct.of_same rfl rfl rfl
  | store => exact distinct.of_same rfl rfl rfl
  | made made_ =>
      obtain ⟨-, -, -, -, -, rfl⟩ := makeNode_eq_some made_
      exact distinct.of_same rfl rfl rfl
  | report => exact distinct.of_same rfl rfl rfl
  | value done =>
      cases done
      exact distinct.of_same rfl rfl rfl

end Distinct

variable {input : Input V} {places : Position → Prop} {chart : Chart V}

theorem moves_distinct (moves : Relation.ReflTransGen (Moves input) {} chart) :
    chart.Distinct := by
  induction moves with
  | refl => exact .empty
  | tail _ move ih => exact ih.move move

/-- In the charts of a session, two leaves are the same object if and only if they are kept at the
same place. -/
theorem Reachable.same_iff (reachable : chart.Reachable input places)
    (wellFormed : input.grammar.WellFormed) {home other : LeafHome} {lexeme lexeme' : Lexeme V}
    (here : chart.lexemeAt? home = some lexeme) (there : chart.lexemeAt? other = some lexeme') :
    (Token.leaf lexeme).same (.leaf lexeme') = true ↔ home = other := by
  have distinct := moves_distinct (reachable.moves wellFormed)
  refine ⟨fun same => distinct.apart here there (beq_iff_eq.1 same), ?_⟩
  rintro rfl
  cases here.symm.trans there
  exact beq_self_eq_true _

end Chart

end Packrat
