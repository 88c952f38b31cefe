import Packrat.Proofs.Formula.Complete
import Packrat.Proofs.Formula.Machine
import Packrat.Proofs.Formula.Sound
import Packrat.Proofs.Reading.Whole

/-!
Evaluating whole texts. A text has a value exactly if it is a formula, up to blank text before each
lexeme and at the end; the value is that of the standard tree of the formula (`evaluate_exact`).
-/

set_option autoImplicit false

namespace Packrat.Formula

theorem sourced_wellFormed (source : List Char) : (sourced source).grammar.WellFormed :=
  Grammar.build_wellFormed grammar_eq

/-- No text of a terminal is empty, and a formula begins with a section only, which begins with no
rule. -/
theorem sourced_guarded (source : List Char) : (sourced source).Guarded where
  literals := by
    change ∀ rule ∈ ready.rules, _
    decide
  terminals := by
    intro origin landing _ terminal listed leaf candidate scanned
    have covers {language : Lang} {starts : CharSet} (begins : language.Begins starts)
        (belongs : language leaf.text) : leaf.text ≠ [] := by
      obtain ⟨c, tail, isText, -⟩ := begins _ belongs
      rw [isText]
      exact List.cons_ne_nil c tail
    simp only [sourced, Grammar.on, ready, List.mem_cons, List.not_mem_nil, or_false] at listed
    rcases listed with rfl | rfl | rfl
    · exact covers number_begins (number_spells.matched scanned).2.1.1
    · exact covers (signs_begin binary_single) (binary_spells.matched scanned).2.1.1
    · exact covers (signs_begin unary_single) (unary_spells.matched scanned).2.1.1
  acyclic := by
    refine Grammar.acyclic_of_rank (fun symbol => if symbol = formulaSymbol then 1 else 0) ?_
    change ∀ rule ∈ ready.rules, ∀ alternative ∈ _, _ → ∀ corner ∈ _,
      ready.isRule corner = true → _
    decide

section Reading

variable {text : List Char}

theorem Chain.parse_complete {chain : Chain} (spaced : Spaced ready.isBlank chain.lexemes text) :
    (ready.parse text).isComplete = true ∧
      (ready.parse text).value.1 = some (.expr chain.expr) := by
  have ahead : (sourced text).Awaits .start (chain.lexemes ++ []) := by
    rw [List.append_nil]
    exact (Input.Awaits.start (sourced text) chain.lexemes).2 spaced
  obtain ⟨landing, tree, shown, read⟩ := chain.reads .nil ahead
  obtain ⟨root, isRoot, same, complete⟩ :=
    Grammar.parse_of_reads (sourced_wellFormed text) (sourced_guarded text) read
  have value := Grammar.parse_value (sourced text) (sourced_wellFormed text) ready_plain
  change (ready.parse text).root = _ at isRoot
  change (ready.parse text).value.1 = (ready.parse text).root.bind _ at value
  rw [isRoot, Option.bind_some, Chain.worth shown same] at value
  exact ⟨complete, value⟩

theorem Chain.of_parse_complete (complete : (ready.parse text).isComplete = true) :
    ∃ chain : Chain, Spaced ready.isBlank chain.lexemes text := by
  obtain ⟨root, cell, -, arena, -, derived, spaced⟩ :=
    Grammar.derived_of_complete (sourced_wellFormed text) complete
  obtain ⟨chain, -, written⟩ := (shows_of_derived arena root).2 cell derived
  rw [written] at spaced
  exact ⟨chain, spaced⟩

theorem evaluate_eq (text : List Char) :
    (evaluate text).1 =
      if (ready.parse text).isComplete then
        ((ready.parse text).value.1.bind Value.expr?).map (Expr.evaluate floatArithmetic)
      else none := by
  rw [evaluate, grammar_eq]
  dsimp only
  split
  · cases (ready.parse text).value.1.bind Value.expr? with
    | none => rfl
    | some expr => rfl
  · rfl

theorem Chain.evaluate_eq {chain : Chain} (spaced : Spaced ready.isBlank chain.lexemes text) :
    (evaluate text).1 = some (chain.expr.denote floatArithmetic) := by
  obtain ⟨complete, value⟩ := Chain.parse_complete spaced
  rw [Formula.evaluate_eq, if_pos complete, value, Option.bind_some, Value.expr?, Option.map_some,
    Expr.evaluate_eq_denote]

theorem evaluate_none (noFormula : ¬ ∃ chain : Chain, Spaced ready.isBlank chain.lexemes text) :
    (evaluate text).1 = none := by
  rw [evaluate_eq, if_neg]
  exact fun complete => noFormula (Chain.of_parse_complete complete)

/-- A text has a value exactly if it is a formula with this value, and none in all other cases. The
value of a complete parse is always a formula. -/
theorem evaluate_exact (text : List Char) :
    (∀ number, (evaluate text).1 = some number ↔
      ∃ chain : Chain, Spaced ready.isBlank chain.lexemes text ∧
        chain.expr.denote floatArithmetic = number) ∧
    ((evaluate text).1 = none ↔ ¬ ∃ chain : Chain, Spaced ready.isBlank chain.lexemes text) ∧
    ∃ built, grammar = .ok built ∧
      ((built.parse text).isComplete = true →
        ∃ expr, (built.parse text).value.1 = some (.expr expr)) := by
  refine ⟨fun number => ?_, ?_, ready, grammar_eq, ?_⟩
  · constructor
    · intro isValue
      by_cases isFormula : ∃ chain : Chain, Spaced ready.isBlank chain.lexemes text
      · obtain ⟨chain, spaced⟩ := isFormula
        rw [Chain.evaluate_eq spaced] at isValue
        exact ⟨chain, spaced, Option.some.inj isValue⟩
      · rw [evaluate_none isFormula] at isValue
        cases isValue
    · rintro ⟨chain, spaced, rfl⟩
      exact Chain.evaluate_eq spaced
  · constructor
    · rintro nothing ⟨chain, spaced⟩
      cases nothing.symm.trans (Chain.evaluate_eq spaced)
    · exact evaluate_none
  · intro complete
    obtain ⟨chain, spaced⟩ := Chain.of_parse_complete complete
    exact ⟨chain.expr, (Chain.parse_complete spaced).2⟩

end Reading

end Packrat.Formula
