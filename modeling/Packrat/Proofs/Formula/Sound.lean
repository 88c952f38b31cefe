import Packrat.Proofs.Derivation.Inversion
import Packrat.Proofs.Formula.Values

/-!
What is derived for a formula is one: its tree shows a chain of sections, and its leaves are the
lexemes of the chain (`Chain.of_derived`). The proof goes along the size of tokens, for sections and
chains at once.
-/

set_option autoImplicit false

namespace Packrat.Formula

variable {source : List Char} {chart : Chart Value}

def ShowsSection (source : List Char) (chart : Chart Value) (token : Token Value) : Prop :=
  ∀ cell : LexicalCell Value, Derives (sourced source) chart (.matched cell sectionSymbol token) →
    ∃ part : Section, part.Shows token.tree ∧ token.tree.lexemes = part.lexemes

def ShowsChain (source : List Char) (chart : Chart Value) (token : Token Value) : Prop :=
  ∀ cell : LexicalCell Value, Derives (sourced source) chart (.matched cell formulaSymbol token) →
    ∃ chain : Chain, Chain.Show chain.first chain.rest token.tree ∧
      token.tree.lexemes = chain.lexemes

theorem section_of_derived (arena : chart.Arena (sourced source)) {token : Token Value}
    (sections : ∀ part, sizeOf part < sizeOf token → ShowsSection source chart part)
    (chains : ∀ part, sizeOf part < sizeOf token → ShowsChain source chart part) :
    ShowsSection source chart token := by
  intro cell derived
  obtain ⟨index, alternative, id, start, finish, children, stop, found, rfl, run⟩ :=
    derived.of_rule (show ready.rule? sectionSymbol = some sectionRule from rfl) (by decide)
  match index, found with
  | 0, found =>
      cases found
      obtain ⟨inner, part, _, rfl, leads, matched, ended⟩ := run.run_reference rfl
      obtain ⟨rfl, -⟩ := ended.run_nil
      obtain ⟨leaf, number, rfl, isLeaf⟩ :=
        matched.of_leaf rfl (Chart.cellFrom?_scanned arena leads).1
      obtain ⟨text, isNumber, rfl⟩ := number_of_leaf isLeaf
      exact ⟨.number text isNumber, .number, rfl⟩
  | 1, found =>
      cases found
      obtain ⟨inner, sign, _, rfl, leads, matched, behind⟩ := run.run_reference rfl
      obtain ⟨cell', operand, _, rfl, -, isOperand, ended⟩ := behind.run_reference rfl
      obtain ⟨rfl, -⟩ := ended.run_nil
      obtain ⟨leaf, number, rfl, isLeaf⟩ :=
        matched.of_leaf rfl (Chart.cellFrom?_scanned arena leads).1
      obtain ⟨negative, rfl⟩ := unary_of_leaf isLeaf
      obtain ⟨part, shown, written⟩ :=
        sections operand (Token.sizeOf_lt_of_mem (.tail _ (.head _))) cell' isOperand
      refine ⟨.signed negative part, .signed shown, ?_⟩
      rw [Token.lexemes_node, Token.lexemesOf_cons, Token.lexemesOf_cons, written]
      simp [Section.lexemes]
  | 2, found =>
      cases found
      obtain ⟨opening, _, rfl, isOpening, opens, behind⟩ := run.run_literal
      obtain ⟨inner, inside, _, rfl, -, isInside, ended⟩ := behind.run_reference rfl
      obtain ⟨closing, _, rfl, isClosing, closes, nothing⟩ := ended.run_literal
      obtain ⟨rfl, -⟩ := nothing.run_nil
      obtain ⟨⟨first, rest⟩, shown, written⟩ :=
        chains inside (Token.sizeOf_lt_of_mem (.tail _ (.head _))) inner isInside
      refine ⟨.group first rest, ?_, ?_⟩
      · simp only [Token.tree, Token.branches]
        rw [opens, closes]
        exact .group shown
      · rw [Token.lexemes_node, Token.lexemesOf_cons, Token.lexemesOf_cons, Token.lexemesOf_cons,
          written]
        simp [Section.lexemes, Chain.lexemes, isOpening, isClosing]
  | _ + 3, found => cases found

theorem chain_of_derived (arena : chart.Arena (sourced source)) {token : Token Value}
    (sections : ∀ part, sizeOf part < sizeOf token → ShowsSection source chart part)
    (chains : ∀ part, sizeOf part < sizeOf token → ShowsChain source chart part) :
    ShowsChain source chart token := by
  intro cell derived
  rcases derived.rule_cases (show ready.rule? formulaSymbol = some formulaRule from rfl) with
    ⟨index, alternative, id, start, finish, children, stop, found, plain, rfl, run⟩ |
    ⟨index, alternative, head, tail, base, parts, id, start, finish, stop, found, starts, itself,
      rfl, isBase, run⟩
  · rcases index with _ | _ | index
    · cases found
      obtain ⟨inner, part, _, rfl, -, isPart, ended⟩ := run.run_reference rfl
      obtain ⟨rfl, -⟩ := ended.run_nil
      obtain ⟨first, shown, written⟩ :=
        sections part (Token.sizeOf_lt_of_mem (.head _)) inner isPart
      refine ⟨⟨first, []⟩, .single shown, ?_⟩
      rw [Token.lexemes_node, Token.lexemesOf_cons, written]
      simp [Chain.lexemes, Section.restLexemes]
    · cases found
      cases plain
    · cases found
  · rcases index with _ | _ | index
    · cases found
      cases starts
      exact absurd itself (by decide)
    · cases found
      cases starts
      obtain ⟨operatorCell, sign, _, rfl, leads, isSign, behind⟩ := run.run_reference rfl
      obtain ⟨operandCell, operand, _, rfl, -, isOperand, ended⟩ := behind.run_reference rfl
      obtain ⟨rfl, -⟩ := ended.run_nil
      obtain ⟨leaf, number, rfl, isLeaf⟩ :=
        isSign.of_leaf rfl (Chart.cellFrom?_scanned arena leads).1
      obtain ⟨operator, rfl⟩ := binary_of_leaf isLeaf
      obtain ⟨⟨first, rest⟩, shownBase, writtenBase⟩ :=
        chains base (Token.sizeOf_lt_of_mem (.head _)) cell isBase
      obtain ⟨part, shown, written⟩ := sections operand
        (Token.sizeOf_lt_of_mem (.tail _ (.tail _ (.head _)))) operandCell isOperand
      refine ⟨⟨first, rest ++ [(operator, part)]⟩, .joined shownBase shown, ?_⟩
      rw [Token.lexemes_node, Token.lexemesOf_cons, Token.lexemesOf_cons, Token.lexemesOf_cons,
        written, writtenBase]
      simp [Chain.lexemes, Section.restLexemes_append, Section.restLexemes]
    · cases found

theorem shows_of_derived (arena : chart.Arena (sourced source)) (token : Token Value) :
    ShowsSection source chart token ∧ ShowsChain source chart token := by
  induction size : sizeOf token using Nat.strongRecOn generalizing token with
  | ind bound ih =>
      subst size
      have sections (part : Token Value) (smaller : sizeOf part < sizeOf token) :=
        (ih _ smaller part rfl).1
      have chains (part : Token Value) (smaller : sizeOf part < sizeOf token) :=
        (ih _ smaller part rfl).2
      exact ⟨section_of_derived arena sections chains, chain_of_derived arena sections chains⟩

end Packrat.Formula
