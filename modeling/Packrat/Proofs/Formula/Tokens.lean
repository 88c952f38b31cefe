import Packrat.Proofs.Formula.Ready
import Packrat.Proofs.Regex.Recognizes
import Packrat.Proofs.Scan.Leaves
import Packrat.Proofs.Scan.Spelling

/-!
The texts of the tokens of formulas. Numbers have several forms (`NumberText`), and the first two
characters of a number tell its base (`numberOf`), so a text has one number at most. Numbers begin
with digits and signs are signs, so at each place at most one of them is found.
-/

set_option autoImplicit false
set_option linter.unusedSectionVars false

namespace Packrat

open Lang

namespace Formula

/-! ### Numbers -/

def Digits : Lang := many Text.digits bare

def WholeText : Lang := one leadingDigits Digits

def PointedText : Lang := one leadingDigits (many Text.digits (one (.one '.') Digits))

def FractionText : Lang := one (.one '0') (one (.one '.') Digits)

def someOf (set : CharSet) : Lang := one set (many set bare)

def BinaryText : Lang := one (.one '0') (one (.one 'b') (someOf binaryDigits))

def OctalText : Lang := one (.one '0') (someOf octalDigits)

def HexadecimalText : Lang := one (.one '0') (one (.one 'x') (someOf hexadecimalDigits))

/-- The languages of the candidates for numbers, in their order. -/
def numberLanguages : List Lang :=
  [anyOf [WholeText, PointedText, FractionText], (· ∈ [['0']]), BinaryText, OctalText,
    HexadecimalText]

def NumberText : Lang := anyOf numberLanguages

def decimalNumber (text : List Char) : Float :=
  (Decimal.readDouble? text).getD Decimal.undefinedFloat

def radixNumber (base : Nat) (digits : List Char) : Float :=
  match Decimal.readNatural? base (Nat.pow 2 64) digits with
  | some number => (UInt64.ofNat number).toFloat
  | none => Decimal.undefinedFloat

/-- The number that a text stands for. Its first two characters tell the base. -/
def numberOf (text : List Char) : Float :=
  match text with
  | '0' :: 'b' :: digits => radixNumber 2 digits
  | '0' :: 'x' :: digits => radixNumber 16 digits
  | '0' :: '.' :: _ => decimalNumber text
  | '0' :: c :: digits => radixNumber 8 (c :: digits)
  | _ => decimalNumber text

theorem numberOf_leading {c : Char} (leads : leadingDigits.mem c = true) (tail : List Char) :
    numberOf (c :: tail) = decimalNumber (c :: tail) := by
  unfold numberOf
  split
  · next same =>
      cases same
      cases leads
  · next same =>
      cases same
      cases leads
  · rfl
  · next same =>
      cases same
      cases leads
  · rfl

theorem numberOf_octal {c : Char} (isOctal : octalDigits.mem c = true) (tail : List Char) :
    numberOf ('0' :: c :: tail) = radixNumber 8 (c :: tail) := by
  unfold numberOf
  split
  · next same =>
      cases same
      cases isOctal
  · next same =>
      cases same
      cases isOctal
  · next same =>
      cases same
      cases isOctal
  · next same =>
      cases same
      rfl
  · next differs => exact absurd rfl (differs c tail)

theorem eq_of_one_mem {c d : Char} (member : (CharSet.one d).mem c = true) : c = d := by
  rw [CharSet.mem_one] at member
  exact eq_of_beq member

theorem number_offers {text : List Char} :
    ∀ offer ∈ numberTerminal.candidates.zip numberLanguages, offer.2 text →
      (offer.1.transform.map fun transform => transform text) =
        some (ofNumber (numberOf text)) := by
  simp only [numberTerminal, numberLanguages, List.zip_cons_cons, List.zip_nil_left,
    List.forall_mem_cons]
  refine ⟨?_, ?_, ?_, ?_, ?_, nofun⟩
  · rintro ⟨language, listed, belongs⟩
    simp only [List.mem_cons, List.not_mem_nil, or_false] at listed
    rcases listed with rfl | rfl | rfl
    · obtain ⟨c, tail, rfl, leads, -⟩ := belongs
      rw [numberOf_leading leads]
      rfl
    · obtain ⟨c, tail, rfl, leads, -⟩ := belongs
      rw [numberOf_leading leads]
      rfl
    · obtain ⟨c, _, rfl, isZero, d, tail, rfl, isPoint, -⟩ := belongs
      cases eq_of_one_mem isZero
      cases eq_of_one_mem isPoint
      rfl
  · intro listed
    cases List.mem_singleton.1 listed
    rfl
  · rintro ⟨c, _, rfl, isZero, d, tail, rfl, isMark, -⟩
    cases eq_of_one_mem isZero
    cases eq_of_one_mem isMark
    rfl
  · rintro ⟨c, _, rfl, isZero, d, tail, rfl, isOctal, -⟩
    cases eq_of_one_mem isZero
    rw [numberOf_octal isOctal]
    rfl
  · rintro ⟨c, _, rfl, isZero, d, tail, rfl, isMark, -⟩
    cases eq_of_one_mem isZero
    cases eq_of_one_mem isMark
    rfl

/-! ### Terminals -/

theorem decimals_read : (Scanner.patterns decimalPatterns).Reads
    (anyOf [WholeText, PointedText, FractionText]) := by
  have whole : Recognizes wholeSteps 1 WholeText :=
    .one rfl (.any rfl rfl rfl (.accept rfl) avoids_bare)
  have pointed : Recognizes pointedSteps 1 PointedText :=
    .one rfl (.any rfl rfl rfl (.one rfl (.any rfl rfl rfl (.accept rfl) avoids_bare))
      (.one (by decide)))
  have fraction : Recognizes fractionSteps 1 FractionText :=
    .one rfl (.one rfl (.any rfl rfl rfl (.accept rfl) avoids_bare))
  exact Scanner.reads_patterns (.cons (whole.scanPattern rfl)
    (.cons (pointed.scanPattern rfl) (.cons (fraction.scanPattern rfl) .nil)))

theorem numbers_read : List.Forall₂
    (fun (candidate : Candidate Value) language => candidate.scanner.Reads language)
    numberTerminal.candidates numberLanguages := by
  have binary : Recognizes binarySteps 1 BinaryText :=
    .one rfl (.one rfl (.some_ rfl rfl (.accept rfl) avoids_bare))
  have octal : Recognizes octalSteps 1 OctalText :=
    .one rfl (.some_ rfl rfl (.accept rfl) avoids_bare)
  have hexadecimal : Recognizes hexadecimalSteps 1 HexadecimalText :=
    .one rfl (.one rfl (.some_ rfl rfl (.accept rfl) avoids_bare))
  exact .cons decimals_read (.cons (Scanner.reads_words _)
    (.cons (Scanner.reads_pattern (binary.scanPattern rfl))
      (.cons (Scanner.reads_pattern (octal.scanPattern rfl))
        (.cons (Scanner.reads_pattern (hexadecimal.scanPattern rfl)) .nil))))

theorem number_spells :
    numberTerminal.Spells fun text value =>
      NumberText text ∧ value = some (ofNumber (numberOf text)) :=
  numberTerminal.spells_values numbers_read fun _ => number_offers

theorem binary_spells :
    binaryTerminal.Spells fun text value =>
      text ∈ binarySigns ∧ value = some (operatorValue text) :=
  Terminal.spells_single (Scanner.reads_words binarySigns)

theorem unary_spells :
    unaryTerminal.Spells fun text value =>
      text ∈ unarySigns ∧ value = some (operatorValue text) :=
  Terminal.spells_single (Scanner.reads_words unarySigns)

/-! ### Where tokens begin and end -/

def numberStarts : CharSet := ⟨[(0x30, 0x39)]⟩

def unaryStarts : CharSet := ⟨[(0x2b, 0x2b), (0x2d, 0x2d)]⟩

def binaryStarts : CharSet := ⟨[(0x2a, 0x2b), (0x2d, 0x2d), (0x2f, 0x2f)]⟩

def closers : CharSet :=
  ⟨[(9, 10), (13, 13), (0x20, 0x20), (0x29, 0x2b), (0x2d, 0x2d), (0x2f, 0x2f)]⟩

theorem number_begins : NumberText.Begins numberStarts := by
  have leads {rest : Lang} : (one leadingDigits rest).Begins numberStarts :=
    .one ⟨by decide, by decide⟩
  have zero {rest : Lang} : (one (.one '0') rest).Begins numberStarts :=
    .one ⟨by decide, by decide⟩
  have lone : Begins (· ∈ [['0']]) numberStarts := by
    intro text listed
    cases List.mem_singleton.1 listed
    exact ⟨'0', [], rfl, by decide⟩
  have decimals : (anyOf [WholeText, PointedText, FractionText]).Begins numberStarts := by
    refine .anyOf ?_
    simp only [List.forall_mem_cons]
    exact ⟨leads, leads, zero, nofun⟩
  refine .anyOf ?_
  rw [numberLanguages]
  simp only [List.forall_mem_cons]
  exact ⟨decimals, lone, zero, zero, zero, nofun⟩

theorem number_misses : NumberText.Misses closers := by
  have digits : Digits.Misses closers := .many (by decide) misses_bare
  have whole : WholeText.Misses closers := .one (by decide) digits
  have pointed : PointedText.Misses closers :=
    .one (by decide) (.many (by decide) (.one (by decide) digits))
  have fraction : FractionText.Misses closers := .one (by decide) (.one (by decide) digits)
  have lone : Misses (· ∈ [['0']]) closers := by
    intro text listed
    cases List.mem_singleton.1 listed
    exact List.forall_mem_singleton.2 (by decide)
  have some_ {set : CharSet} (apart : set.Apart closers) : (someOf set).Misses closers :=
    .one apart (.many apart misses_bare)
  have binary : BinaryText.Misses closers := .one (by decide) (.one (by decide) (some_ (by decide)))
  have octal : OctalText.Misses closers := .one (by decide) (some_ (by decide))
  have hexadecimal : HexadecimalText.Misses closers :=
    .one (by decide) (.one (by decide) (some_ (by decide)))
  have decimals : (anyOf [WholeText, PointedText, FractionText]).Misses closers := by
    refine .anyOf ?_
    simp only [List.forall_mem_cons]
    exact ⟨whole, pointed, fraction, nofun⟩
  refine .anyOf ?_
  rw [numberLanguages]
  simp only [List.forall_mem_cons]
  exact ⟨decimals, lone, binary, octal, hexadecimal, nofun⟩

theorem signs_begin {signs : List (List Char)} {starts : CharSet}
    (each : ∀ text ∈ signs, ∃ c, text = [c] ∧ starts.mem c = true) :
    Begins (· ∈ signs) starts := by
  intro text listed
  obtain ⟨c, rfl, member⟩ := each text listed
  exact ⟨c, [], rfl, member⟩

theorem unary_single :
    ∀ text ∈ unarySigns, ∃ c, text = [c] ∧ unaryStarts.mem c = true := by
  rw [unarySigns]
  simp only [List.forall_mem_cons]
  exact ⟨⟨'-', rfl, by decide⟩, ⟨'+', rfl, by decide⟩, nofun⟩

theorem binary_single :
    ∀ text ∈ binarySigns, ∃ c, text = [c] ∧ binaryStarts.mem c = true := by
  rw [binarySigns]
  simp only [List.forall_mem_cons]
  exact ⟨⟨'*', rfl, by decide⟩, ⟨'/', rfl, by decide⟩, ⟨'+', rfl, by decide⟩,
    ⟨'-', rfl, by decide⟩, nofun⟩

/-! ### What is found -/

def signOf (negative : Bool) : Operator :=
  if negative then .sub else .add

theorem mem_unarySigns {text : List Char} :
    text ∈ unarySigns ↔ ∃ negative, text = [(signOf negative).sign] := by
  constructor
  · intro listed
    rcases List.mem_cons.1 listed with rfl | listed
    · exact ⟨true, rfl⟩
    · cases List.mem_singleton.1 listed
      exact ⟨false, rfl⟩
  · rintro ⟨negative, rfl⟩
    cases negative <;> decide

theorem mem_binarySigns {text : List Char} :
    text ∈ binarySigns ↔ ∃ operator : Operator, text = [operator.sign] := by
  constructor
  · intro listed
    simp only [binarySigns, List.mem_cons, List.not_mem_nil, or_false] at listed
    rcases listed with rfl | rfl | rfl | rfl
    · exact ⟨.mul, rfl⟩
    · exact ⟨.div, rfl⟩
    · exact ⟨.add, rfl⟩
    · exact ⟨.sub, rfl⟩
  · rintro ⟨operator, rfl⟩
    cases operator <;> decide

theorem operatorValue_sign (operator : Operator) :
    operatorValue [operator.sign] = .operator operator := by
  rw [operatorValue, (Operator.read?_eq_some_iff _ operator).2 rfl]

section Cells

variable {landing : Landing} {text after : List Char}

theorem number_leaf (landing : Landing) :
    (LexicalCell.scan ready landing).1.leaf? numberSymbol =
      (LexicalCell.scanTerminal landing numberTerminal).map Prod.fst :=
  LexicalCell.leaf?_terminal numberTerminal (by decide) (List.mem_cons_self ..) (by decide)

theorem binary_leaf (landing : Landing) :
    (LexicalCell.scan ready landing).1.leaf? binarySymbol =
      (LexicalCell.scanTerminal landing binaryTerminal).map Prod.fst :=
  LexicalCell.leaf?_terminal binaryTerminal (by decide) (.tail _ (.head _)) (by decide)

theorem unary_leaf (landing : Landing) :
    (LexicalCell.scan ready landing).1.leaf? unarySymbol =
      (LexicalCell.scanTerminal landing unaryTerminal).map Prod.fst :=
  LexicalCell.leaf?_terminal unaryTerminal (by decide) (.tail _ (.tail _ (.head _))) (by decide)

theorem number_found (isNumber : NumberText text) (split : landing.rest = text ++ after)
    (ends : ∀ c, after.head? = some c → closers.mem c = true) :
    (LexicalCell.scan ready landing).1.leaf? numberSymbol =
      some (landing.leaf numberSymbol text (some (ofNumber (numberOf text)))) :=
  (number_leaf landing).trans (number_spells.finds_text split isNumber
    fun _ begins isIn => number_misses.stops ends isIn begins)

theorem sign_found {terminal : Terminal Value} {signs : List (List Char)} {starts : CharSet}
    {operator : Operator}
    (spells : terminal.Spells fun text value => text ∈ signs ∧ value = some (operatorValue text))
    (single : ∀ text ∈ signs, ∃ c, text = [c] ∧ starts.mem c = true)
    (listed : [operator.sign] ∈ signs) (split : landing.rest = [operator.sign] ++ after) :
    (LexicalCell.scanTerminal landing terminal).map Prod.fst =
      some (landing.leaf terminal.symbol [operator.sign] (some (.operator operator))) := by
  rw [← operatorValue_sign]
  refine spells.finds_text split listed ?_
  intro other begins isIn
  obtain ⟨c, rfl, -⟩ := single other isIn
  obtain ⟨rfl, -⟩ := List.cons_prefix_cons.1 begins
  exact List.prefix_rfl

theorem unary_found (negative : Bool) (split : landing.rest = [(signOf negative).sign] ++ after) :
    (LexicalCell.scan ready landing).1.leaf? unarySymbol =
      some (landing.leaf unarySymbol [(signOf negative).sign]
        (some (.operator (signOf negative)))) :=
  (unary_leaf landing).trans
    (sign_found unary_spells unary_single (mem_unarySigns.2 ⟨negative, rfl⟩) split)

theorem binary_found (operator : Operator) (split : landing.rest = [operator.sign] ++ after) :
    (LexicalCell.scan ready landing).1.leaf? binarySymbol =
      some (landing.leaf binarySymbol [operator.sign] (some (.operator operator))) :=
  (binary_leaf landing).trans
    (sign_found binary_spells binary_single (mem_binarySigns.2 ⟨operator, rfl⟩) split)

theorem no_number (differs : ∀ c, landing.rest.head? = some c → numberStarts.mem c = false) :
    (LexicalCell.scan ready landing).1.leaf? numberSymbol = none :=
  (number_leaf landing).trans (number_spells.nothing number_begins differs)

theorem no_unary (differs : ∀ c, landing.rest.head? = some c → unaryStarts.mem c = false) :
    (LexicalCell.scan ready landing).1.leaf? unarySymbol = none :=
  (unary_leaf landing).trans (unary_spells.nothing (signs_begin unary_single) differs)

theorem no_binary (differs : ∀ c, landing.rest.head? = some c → binaryStarts.mem c = false) :
    (LexicalCell.scan ready landing).1.leaf? binarySymbol = none :=
  (binary_leaf landing).trans (binary_spells.nothing (signs_begin binary_single) differs)

section Found

variable {leaf : Leaf Value}

theorem number_of_leaf
    (found : (LexicalCell.scan ready landing).1.leaf? numberSymbol = some leaf) :
    ∃ text, NumberText text ∧
      leaf = landing.leaf numberSymbol text (some (ofNumber (numberOf text))) :=
  number_spells.of_found ((number_leaf landing).symm.trans found)

theorem unary_of_leaf (found : (LexicalCell.scan ready landing).1.leaf? unarySymbol = some leaf) :
    ∃ negative, leaf = landing.leaf unarySymbol [(signOf negative).sign]
      (some (.operator (signOf negative))) := by
  obtain ⟨text, listed, rfl⟩ := unary_spells.of_found ((unary_leaf landing).symm.trans found)
  obtain ⟨negative, rfl⟩ := mem_unarySigns.1 listed
  exact ⟨negative, by rw [operatorValue_sign]; rfl⟩

theorem binary_of_leaf
    (found : (LexicalCell.scan ready landing).1.leaf? binarySymbol = some leaf) :
    ∃ operator : Operator, leaf = landing.leaf binarySymbol [operator.sign]
      (some (.operator operator)) := by
  obtain ⟨text, listed, rfl⟩ := binary_spells.of_found ((binary_leaf landing).symm.trans found)
  obtain ⟨operator, rfl⟩ := mem_binarySigns.1 listed
  exact ⟨operator, by rw [operatorValue_sign]; rfl⟩

end Found

end Cells

end Formula

end Packrat
