import Packrat.Parse
import Packrat.Proofs.Chart.Termination

/-!
The charts that a session on a text comes to: the empty one, the one of a whole parse, and those
that lookups and evaluations lead to, in any order and any number. Lookups begin at the places that
are given with the session.

All of them are sound (`Chart.Reachable.sound`), so in each of them a lookup is an evaluation, and
what is found is derived. No rule is entered twice at one place (`Chart.Reachable.entered_nodup`).
-/

set_option autoImplicit false
set_option linter.unusedSectionVars false

namespace Packrat

variable {V : Type} [Kinded V]

inductive Chart.Reachable (input : Input V) (places : Position → Prop) : Chart V → Prop where
  | opened : Chart.Reachable input places {}
  | parsed : Chart.Reachable input places (input.grammar.parse input.source).chart
  | lexicalCell {chart after : Chart V} {origin : Position} {cell : LexicalCell V} :
      Chart.Reachable input places chart → places origin →
      chart.lexicalCell input origin = .ok (cell, after) → Chart.Reachable input places after
  | syntaxCell {chart after : Chart V} {origin : Position} {cell : SyntaxCell V} :
      Chart.Reachable input places chart → places origin →
      chart.syntaxCell input origin = .ok (cell, after) → Chart.Reachable input places after
  | literal {chart after : Chart V} {offset : Nat} {cell : LexicalCell V} {text : String}
      {found : Option (Lexeme V)} :
      Chart.Reachable input places chart → chart.lexicalAt? offset = some cell →
      chart.literal cell text = (found, after) → Chart.Reachable input places after
  | token {chart after : Chart V} {offset : Nat} {cell : SyntaxCell V} {symbol : Symbol}
      {found : Option (Token V)} :
      Chart.Reachable input places chart → chart.syntacticAt? offset = some cell →
      chart.token input cell symbol = (found, after) → Chart.Reachable input places after
  | value {chart after : Chart V} {token : Token V} {found : Option V} :
      Chart.Reachable input places chart → chart.value input token = (found, after) →
      Chart.Reachable input places after

theorem Input.eq_mk (input : Input V) :
    input = { grammar := input.grammar, source := input.source } := by
  rcases input with ⟨grammar, source, length, lengthEq, cuts, cutsEq⟩
  subst lengthEq cutsEq
  rfl

namespace Chart

variable {input : Input V}

theorem Arena.syntactic_position {chart : Chart V} (arena : chart.Arena input) {offset : Nat}
    {cell : SyntaxCell V} (here : chart.syntacticAt? offset = some cell) :
    cell.lexical.position.offset = offset :=
  (arena.lexical (arena.syntactic here)).2

theorem Arena.holds {chart : Chart V} (arena : chart.Arena input) {offset : Nat}
    {cell : SyntaxCell V} (here : chart.syntacticAt? offset = some cell) :
    chart.Holds cell.lexical :=
  ⟨cell, by rw [arena.syntactic_position here]; exact here, rfl⟩

theorem empty_sound : ({} : Chart V).Sound input := by
  refine ⟨⟨?_, ?_, ?_⟩, ?_⟩
  · intro offset cell here
    simp [lexicalAt?] at here
  · intro offset cell here
    simp [syntacticAt?] at here
  · intro offset text found known
    simp [literal?] at known
  · intro offset symbol token known
    simp [known?, syntacticAt?] at known

theorem start_valid (input : Input V) : (input.rest? Position.start.offset).isSome := by
  rw [Position.start, Input.rest?_zero]
  rfl

theorem resolveAtStart_eq {chart after : Chart V} {symbol : Symbol} {found : Option (Token V)}
    (done : chart.resolveAtStart input symbol = (found, after)) :
    ∃ cell opened, chart.syntaxCell input .start = .ok (cell, opened) ∧
      opened.token input cell symbol = (found, after) := by
  obtain ⟨cell, opened, asked⟩ := syntaxCell_exists chart (start_valid input)
  refine ⟨cell, opened, asked, ?_⟩
  simp only [resolveAtStart, tokenAt, asked] at done
  exact done

end Chart

theorem Grammar.parse_eq (input : Input V) {found : Option (Token V)} {after : Chart V}
    (done : ({ log := [.parsing input.length input.grammar.root] } : Chart V).resolveAtStart input
      input.grammar.root = (found, after)) :
    input.grammar.parse input.source =
      ⟨input, after.report (Parse.endEvent after found), found⟩ := by
  unfold Grammar.parse
  rw [← input.eq_mk]
  simp only [done]

theorem Grammar.parse_input (input : Input V) :
    (input.grammar.parse input.source).input = input :=
  congrArg Parse.input (Grammar.parse_eq input rfl)

namespace Chart

variable {input : Input V} {places : Position → Prop}

theorem token_evaluates {chart after : Chart V} {offset : Nat} {cell : SyntaxCell V}
    {symbol : Symbol} {found : Option (Token V)} (wellFormed : input.grammar.WellFormed)
    (sound : chart.Sound input) (here : chart.syntacticAt? offset = some cell)
    (done : chart.token input cell symbol = (found, after)) :
    Evaluates input (.resolve cell.lexical symbol) chart (.token found) after :=
  resolve_evaluates wellFormed sound (sound.arena.holds here) done

theorem token_sound {chart after : Chart V} {offset : Nat} {cell : SyntaxCell V}
    {symbol : Symbol} {found : Option (Token V)} (wellFormed : input.grammar.WellFormed)
    (sound : chart.Sound input) (here : chart.syntacticAt? offset = some cell)
    (done : chart.token input cell symbol = (found, after)) :
    after.Sound input ∧ chart.Extends after ∧ ∀ token, found = some token →
      Derives input after (.matched cell.lexical symbol token) :=
  (token_evaluates wellFormed sound here done).sound wellFormed sound (sound.arena.holds here)

theorem resolveAtStart_sound {chart after : Chart V} {symbol : Symbol}
    {found : Option (Token V)} (wellFormed : input.grammar.WellFormed)
    (sound : chart.Sound input)
    (done : chart.resolveAtStart input symbol = (found, after)) :
    after.Sound input ∧ chart.Extends after ∧ ∀ token, found = some token →
      ∃ cell, after.cellFrom? input 0 = some cell ∧
        Derives input after (.matched cell symbol token) := by
  obtain ⟨cell, opened, asked, resolved⟩ := resolveAtStart_eq done
  obtain ⟨arena, gained, held, leads⟩ := syntaxCell_spec sound.arena asked
  obtain ⟨soundAfter, further, derived⟩ :=
    (resolve_evaluates wellFormed (sound.gains gained arena) held resolved).sound wellFormed
      (sound.gains gained arena) held
  refine ⟨soundAfter, gained.grown.trans further, ?_⟩
  intro token isToken
  exact ⟨cell.lexical, cellFrom?_mono further leads, derived token isToken⟩

theorem parse_sound (wellFormed : input.grammar.WellFormed) :
    (input.grammar.parse input.source).chart.Sound input ∧
      ({} : Chart V).Extends (input.grammar.parse input.source).chart ∧
      ∀ root, (input.grammar.parse input.source).root = some root →
        ∃ cell, (input.grammar.parse input.source).chart.cellFrom? input 0 = some cell ∧
          Derives input (input.grammar.parse input.source).chart
            (.matched cell input.grammar.root root) := by
  cases done : ({ log := [.parsing input.length input.grammar.root] } : Chart V).resolveAtStart
      input input.grammar.root with
  | mk found after =>
      rw [Grammar.parse_eq input done]
      obtain ⟨begun, starts⟩ := (empty_sound : ({} : Chart V).Sound input).of_cells
        { log := [.parsing input.length input.grammar.root] } rfl rfl rfl rfl
      obtain ⟨sound, further, derived⟩ := resolveAtStart_sound wellFormed begun done
      obtain ⟨reported, grown⟩ :=
        sound.of_cells (after.report (Parse.endEvent after found)) rfl rfl rfl rfl
      refine ⟨reported, (starts.trans further).trans grown, ?_⟩
      intro root isRoot
      obtain ⟨cell, leads, isDerived⟩ := derived root isRoot
      exact ⟨cell, cellFrom?_mono grown leads, isDerived.mono grown⟩

theorem Reachable.sound_extends {chart : Chart V} (reachable : chart.Reachable input places)
    (wellFormed : input.grammar.WellFormed) :
    chart.Sound input ∧ ({} : Chart V).Extends chart := by
  induction reachable with
  | opened => exact ⟨empty_sound, .refl _⟩
  | parsed =>
      obtain ⟨sound, grown, -⟩ := parse_sound wellFormed
      exact ⟨sound, grown⟩
  | lexicalCell _ _ asked ih =>
      rcases ih with ⟨sound, grown⟩
      obtain ⟨arena, gained, -⟩ := lexicalCell_spec sound.arena asked
      exact ⟨sound.gains gained arena, grown.trans gained.grown⟩
  | syntaxCell _ _ asked ih =>
      rcases ih with ⟨sound, grown⟩
      obtain ⟨arena, gained, -⟩ := syntaxCell_spec sound.arena asked
      exact ⟨sound.gains gained arena, grown.trans gained.grown⟩
  | literal _ here done ih =>
      rcases ih with ⟨sound, grown⟩
      obtain ⟨soundAfter, gained, -⟩ := literal_sound sound here done
      exact ⟨soundAfter, grown.trans gained.grown⟩
  | token _ here done ih =>
      rcases ih with ⟨sound, grown⟩
      obtain ⟨soundAfter, further, -⟩ := token_sound wellFormed sound here done
      exact ⟨soundAfter, grown.trans further⟩
  | @value chart after _ _ _ done ih =>
      rcases ih with ⟨sound, grown⟩
      obtain ⟨soundAfter, further⟩ :=
        sound.of_cells after (by cases done; rfl) (by cases done; rfl)
          (by cases done; rfl) (by cases done; rfl)
      exact ⟨soundAfter, grown.trans further⟩

theorem Reachable.sound {chart : Chart V} (reachable : chart.Reachable input places)
    (wellFormed : input.grammar.WellFormed) : chart.Sound input :=
  (reachable.sound_extends wellFormed).1

/-- In one session the alternatives of a rule are tried at a place at most once. -/
theorem Reachable.entered_nodup {chart : Chart V} (reachable : chart.Reachable input places)
    (wellFormed : input.grammar.WellFormed) : chart.entered.Nodup := by
  obtain ⟨new, all, nodup, -⟩ := (reachable.sound_extends wellFormed).2.entered
  rw [List.append_nil] at all
  rwa [all]

end Chart

end Packrat
