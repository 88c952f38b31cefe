import Packrat.Proofs.Formula.Values
import Packrat.Proofs.Reading.Steps

/-!
Every formula that stands at a place of a text is read there. Sections are followed by an operator,
a closing parenthesis or the end of the text, and numbers do not reach over these. A section is read
in one of three ways, which its first character decides; a chain is read section by section, and the
loop over further operators ends where none stands.
-/

set_option autoImplicit false

namespace Packrat.Formula

theorem blank_closes (c : Char) (blank : ready.isBlank c = true) : closers.mem c = true :=
  Grammar.blank_mem (by decide) c blank

def Closes (more : List (List Char)) : Prop :=
  Led ready.isBlank closers more

def ends : CharSet := .one ')'

section Places

variable {source : List Char} {cursor : Position} {landing : Landing}
  {lexemes more : List (List Char)} {tree : Tree Value}

theorem parses_section {number signed group : Option (List (Branch Value) × Position)}
    (isNumber : Parses (sourced source) (.sequence [.symbol numberSymbol] landing.position)
      (.run number))
    (isSigned : Parses (sourced source)
      (.sequence [.symbol unarySymbol, .symbol sectionSymbol] landing.position) (.run signed))
    (isGroup : Parses (sourced source)
      (.sequence [.literal "(", .symbol formulaSymbol, .literal ")"] landing.position)
      (.run group)) :
    Parses (sourced source) (.resolve landing.position sectionSymbol)
      (.tree (Parses.bestFrom sectionSymbol 0 [number, signed, group] none)) :=
  Parses.plain (show ready.rule? sectionSymbol = some sectionRule from rfl) (by decide)
    (.cons isNumber (.cons isSigned (.cons isGroup .nil)))

theorem no_number_run (faces : (sourced source).Faces cursor lexemes landing)
    (differs : ∀ c, firstOf lexemes = some c → numberStarts.mem c = false) :
    Parses (sourced source) (.sequence [.symbol numberSymbol] landing.position) (.run none) := by
  rw [← faces.head?] at differs
  exact .sequenceStuck (.reference rfl (Input.land_again faces.landed)
    (.leaf (Input.land_again faces.landed) rfl (no_number differs)))

theorem no_signed_run (faces : (sourced source).Faces cursor lexemes landing)
    (differs : ∀ c, firstOf lexemes = some c → unaryStarts.mem c = false) :
    Parses (sourced source)
      (.sequence [.symbol unarySymbol, .symbol sectionSymbol] landing.position) (.run none) := by
  rw [← faces.head?] at differs
  exact .sequenceStuck (.reference rfl (Input.land_again faces.landed)
    (.leaf (Input.land_again faces.landed) rfl (no_unary differs)))

theorem no_group_run (faces : (sourced source).Faces cursor lexemes landing)
    (differs : firstOf lexemes ≠ some '(') :
    Parses (sourced source)
      (.sequence [.literal "(", .symbol formulaSymbol, .literal ")"] landing.position)
      (.run none) :=
  .sequenceStuck (.literal_missing "(" rfl faces.settled differs)

/-! ### Sections -/

theorem number_reads {text : List Char} (isNumber : NumberText text) (closes : Closes more)
    (ahead : (sourced source).Awaits cursor (text :: more)) :
    ∃ landing tree, (Section.number text isNumber).Shows tree ∧
      (sourced source).Reads sectionSymbol cursor more landing tree := by
  have led : Led ready.isBlank numberStarts (text :: more) := by
    obtain ⟨c, tail, rfl, isStart⟩ := number_begins text isNumber
    refine .cons (eq_false_of_ne_true fun blank => ?_) isStart
    have apart : numberStarts.Apart closers := by decide
    cases (blank_closes c blank).symm.trans (apart.not_mem isStart)
  obtain ⟨landing, faces⟩ := ahead.faces led.solid
  obtain ⟨after, split, spaced, -⟩ := faces.onward rfl
  have number := Parses.leaf_reads faces.settled led.solid.covers rfl
    (number_found isNumber split (closes.ends blank_closes spaced))
  have parses := parses_section (.step (.named number) .sequenceDone)
    (no_signed_run faces (led.apart (by decide)))
    (no_group_run faces fun isFirst => by cases led.first isFirst)
  exact ⟨landing, _, .number, faces.landed, parses,
    Nat.lt_of_le_of_lt (Input.land_forward faces.landed) number.forward, number.onward⟩

theorem signed_reads (negative : Bool) {operand : Section}
    (ahead : (sourced source).Awaits cursor ([(signOf negative).sign] :: lexemes))
    (reads : ∀ next, (sourced source).Awaits next lexemes → ∃ landing tree, operand.Shows tree ∧
      (sourced source).Reads sectionSymbol next more landing tree) :
    ∃ landing tree, (Section.signed negative operand).Shows tree ∧
      (sourced source).Reads sectionSymbol cursor more landing tree := by
  have led : Led ready.isBlank unaryStarts ([(signOf negative).sign] :: lexemes) := by
    cases negative
    · exact .cons rfl rfl
    · exact .cons rfl rfl
  obtain ⟨landing, faces⟩ := ahead.faces led.solid
  obtain ⟨after, split, -, -⟩ := faces.onward rfl
  have sign := Parses.leaf_reads faces.settled led.solid.covers rfl (unary_found negative split)
  obtain ⟨inner, tree, shown, read⟩ := reads _ sign.onward
  have parses := parses_section (no_number_run faces (led.apart (by decide)))
    (.step (.named sign) (.step (.named read) .sequenceDone))
    (no_group_run faces fun isFirst => by cases led.first isFirst)
  exact ⟨landing, _, .signed shown, faces.landed, parses,
    Nat.lt_of_le_of_lt (Input.land_forward faces.landed) (Nat.lt_trans sign.forward read.forward),
    read.onward⟩

theorem group_reads {first : Section} {rest : List (Operator × Section)}
    (ahead : (sourced source).Awaits cursor (['('] :: lexemes))
    (reads : ∀ next, (sourced source).Awaits next lexemes → ∃ landing tree,
      Chain.Show first rest tree ∧
        (sourced source).Reads formulaSymbol next ([')'] :: more) landing tree) :
    ∃ landing tree, (Section.group first rest).Shows tree ∧
      (sourced source).Reads sectionSymbol cursor more landing tree := by
  have led : Led ready.isBlank (.one '(') (['('] :: lexemes) := .cons rfl rfl
  obtain ⟨landing, faces⟩ := ahead.faces led.solid
  obtain ⟨-, -, -, behind⟩ := faces.onward rfl
  obtain ⟨inner, tree, shown, read⟩ := reads _ behind
  obtain ⟨last, facesLast⟩ := read.onward.faces (.cons rfl)
  obtain ⟨-, -, -, onward⟩ := facesLast.onward rfl
  have parses := parses_section (no_number_run faces (led.apart (by decide)))
    (no_signed_run faces (led.apart (by decide)))
    (.step (.literal_found "(" faces.settled)
      (.step (.named read) (.step (.literal_found ")" facesLast) .sequenceDone)))
  have opened := Input.through_forward ['('] faces.landed (by decide)
  have closed := Input.through_forward [')'] facesLast.landed (by decide)
  exact ⟨landing, _, .group shown, faces.landed, parses,
    Nat.lt_trans opened (Nat.lt_trans read.forward closed), onward⟩

/-! ### Chains -/

theorem rest_closes (rest : List (Operator × Section)) (led : Led ready.isBlank ends more) :
    Closes (Section.restLexemes rest ++ more) := by
  cases rest with
  | nil =>
      intro lexeme isHead
      obtain ⟨c, tail, rfl, apart, isEnd⟩ := led lexeme isHead
      have inside : ends.Inside closers := ⟨by decide, by decide⟩
      exact ⟨c, tail, rfl, apart, inside.mem isEnd⟩
  | cons next others =>
      rcases next with ⟨operator, operand⟩
      cases operator
      · exact .cons rfl rfl
      · exact .cons rfl rfl
      · exact .cons rfl rfl
      · exact .cons rfl rfl

def Grows (source : List Char) (rest : List (Operator × Section)) (more : List (List Char))
    (best grown : Tree Value) : Prop :=
  (∀ first before, Chain.Show first before best → Chain.Show first (before ++ rest) grown) ∧
    Parses (sourced source) (.extend formulaSymbol formulaRule.alternatives.zipIdx best)
      (.tree (some grown)) ∧
    best.stop.offset ≤ grown.stop.offset ∧ (sourced source).Awaits grown.stop more

theorem chain_reads {first : Section} {rest : List (Operator × Section)} {tree : Tree Value}
    (shown : first.Shows tree)
    (read : (sourced source).Reads sectionSymbol cursor (Section.restLexemes rest ++ more) landing
      tree)
    (grows : ∀ best, (sourced source).Awaits best.stop (Section.restLexemes rest ++ more) →
      ∃ grown, Grows source rest more best grown) :
    ∃ grown, Chain.Show first rest grown ∧
      (sourced source).Reads formulaSymbol cursor more landing grown := by
  have single : Parses (sourced source) (.sequence [.symbol sectionSymbol] landing.position)
      (.run (some ([⟨none, tree⟩], tree.stop))) :=
    .step (.reference rfl (Input.land_again read.landed) read.resolves) .sequenceDone
  have seeds : Parses (sourced source)
      (.seeds landing.position formulaSymbol formulaRule.alternatives.zipIdx none)
      (.tree (some (.node formulaSymbol 0 tree.start tree.stop [⟨none, tree⟩]))) :=
    .seedsTried rfl single (.seedsSkipped rfl .seedsDone)
  obtain ⟨grown, showGrown, extends_, forward, onward⟩ :=
    grows (.node formulaSymbol 0 tree.start tree.stop [⟨none, tree⟩]) read.onward
  exact ⟨grown, showGrown first [] (.single shown), read.landed, .grown rfl seeds extends_,
    Nat.lt_of_lt_of_le read.forward forward, onward⟩

theorem extend_stops {best : Tree Value} (led : Led ready.isBlank ends more)
    (ahead : (sourced source).Awaits best.stop more) :
    Parses (sourced source) (.extend formulaSymbol formulaRule.alternatives.zipIdx best)
      (.tree (some best)) := by
  obtain ⟨landing, faces⟩ := ahead.faces led.solid
  have apart : ends.Apart binaryStarts := by decide
  have differs := led.apart apart
  rw [← faces.head?] at differs
  have stuck : Parses (sourced source)
      (.sequence [.symbol binarySymbol, .symbol sectionSymbol] best.stop) (.run none) :=
    .sequenceStuck (.reference rfl faces.landed (.leaf faces.landed rfl (no_binary differs)))
  have pass : Parses (sourced source)
      (.pass formulaSymbol formulaRule.alternatives.zipIdx best) (.tree (some best)) :=
    .passSkipped rfl (.passTried rfl rfl stuck .passDone)
  exact .extendDone pass (Nat.lt_irrefl _)

theorem operator_reads (operator : Operator)
    (ahead : (sourced source).Awaits cursor ([operator.sign] :: lexemes)) :
    ∃ landing start stop, (sourced source).Reads binarySymbol cursor lexemes landing
      (.leaf binarySymbol [operator.sign] start stop (some (.operator operator))) := by
  have led : Led ready.isBlank binaryStarts ([operator.sign] :: lexemes) := by
    cases operator
    · exact .cons rfl rfl
    · exact .cons rfl rfl
    · exact .cons rfl rfl
    · exact .cons rfl rfl
  obtain ⟨landing, faces⟩ := ahead.faces led.solid
  obtain ⟨after, split, -, -⟩ := faces.onward rfl
  exact ⟨landing, _, _, Parses.leaf_reads faces led.solid.covers rfl
    (binary_found operator split)⟩

def prolonged (best sign tree : Tree Value) : Tree Value :=
  .node formulaSymbol 1 best.start tree.stop [⟨none, best⟩, ⟨none, sign⟩, ⟨none, tree⟩]

theorem extend_grows {best sign tree : Tree Value} {found : Option (Tree Value)}
    {inner : Landing} (isSign : (sourced source).Reads binarySymbol best.stop lexemes landing sign)
    (read : (sourced source).Reads sectionSymbol sign.stop more inner tree)
    (extends_ : Parses (sourced source) (.extend formulaSymbol formulaRule.alternatives.zipIdx
      (prolonged best sign tree)) (.tree found)) :
    Parses (sourced source) (.extend formulaSymbol formulaRule.alternatives.zipIdx best)
      (.tree found) := by
  have longer : best.stop.offset < tree.stop.offset := Nat.lt_trans isSign.forward read.forward
  have run := Parses.step (.named isSign) (.step (.named read) .sequenceDone)
  have pass : Parses (sourced source) (.pass formulaSymbol formulaRule.alternatives.zipIdx best)
      (.tree (some (best.longer (some (prolonged best sign tree))))) :=
    .passSkipped rfl (.passTried rfl rfl run .passDone)
  have grows : best.longer (some (prolonged best sign tree)) = prolonged best sign tree :=
    if_pos longer
  rw [grows] at pass
  exact .extendMore pass longer extends_

end Places

section Runs

variable {source : List Char}

mutual

theorem Section.reads (part : Section) {cursor : Position} {more : List (List Char)}
    (closes : Closes more) (ahead : (sourced source).Awaits cursor (part.lexemes ++ more)) :
    ∃ landing tree, part.Shows tree ∧
      (sourced source).Reads sectionSymbol cursor more landing tree := by
  cases part with
  | number text isNumber => exact number_reads isNumber closes ahead
  | signed negative operand =>
      exact signed_reads negative ahead fun next inside => Section.reads operand closes inside
  | group first rest =>
      have ahead' : (sourced source).Awaits cursor
          (['('] :: (first.lexemes ++ (Section.restLexemes rest ++ [')'] :: more))) := by
        simpa [Section.lexemes] using ahead
      have led : Led ready.isBlank ends ([')'] :: more) := .cons rfl rfl
      refine group_reads ahead' fun next inside => ?_
      obtain ⟨landing, tree, shown, read⟩ := Section.reads first (rest_closes rest led) inside
      exact ⟨landing, chain_reads shown read (Section.extends rest led)⟩

theorem Section.extends (rest : List (Operator × Section)) {more : List (List Char)}
    (led : Led ready.isBlank ends more) (best : Tree Value)
    (ahead : (sourced source).Awaits best.stop (Section.restLexemes rest ++ more)) :
    ∃ grown, Grows source rest more best grown := by
  cases rest with
  | nil =>
      refine ⟨best, fun first before shown => ?_, extend_stops led ahead, Nat.le_refl _, ahead⟩
      rw [List.append_nil]
      exact shown
  | cons next others =>
      rcases next with ⟨operator, operand⟩
      have ahead' : (sourced source).Awaits best.stop
          ([operator.sign] :: (operand.lexemes ++ (Section.restLexemes others ++ more))) := by
        simpa [Section.restLexemes] using ahead
      obtain ⟨_, start, stop, sign⟩ := operator_reads operator ahead'
      obtain ⟨_, tree, shownOperand, read⟩ :=
        Section.reads operand (rest_closes others led) sign.onward
      obtain ⟨grown, grows, extends_, forward, onward⟩ :=
        Section.extends others led (prolonged best _ tree) read.onward
      refine ⟨grown, fun first before shown => ?_, extend_grows sign read extends_,
        Nat.le_trans (Nat.le_of_lt (Nat.lt_trans sign.forward read.forward)) forward, onward⟩
      rw [List.append_cons]
      exact grows first _ (.joined shown shownOperand)

end

theorem Chain.reads (chain : Chain) {cursor : Position} {more : List (List Char)}
    (led : Led ready.isBlank ends more)
    (ahead : (sourced source).Awaits cursor (chain.lexemes ++ more)) :
    ∃ landing tree, Chain.Show chain.first chain.rest tree ∧
      (sourced source).Reads formulaSymbol cursor more landing tree := by
  rw [Chain.lexemes, List.append_assoc] at ahead
  obtain ⟨landing, tree, shown, read⟩ := chain.first.reads (rest_closes chain.rest led) ahead
  exact ⟨landing, chain_reads shown read (Section.extends chain.rest led)⟩

end Runs

end Packrat.Formula
