import Packrat.Proofs.Decimal.Digits
import Packrat.Proofs.Formula.Tokens

/-!
Numerals of formulas. A text has one form at most (`Form.of_texts`), and the form says how the text
is read: as a decimal number, or as the whole number that the digits behind its mark denote in the
base of the form. What a place has for a number is the longest numeral ahead, read as its form says
(`numerals_exact`).
-/

set_option autoImplicit false

namespace Packrat.Formula

open Lang

/-! ### Forms -/

inductive Form where
  | decimal
  | binary
  | octal
  | hexadecimal
deriving DecidableEq, Repr

namespace Form

/-- The numerals of a form. Zero alone is a decimal number. -/
def texts : Form → Lang
  | .decimal => either (anyOf [WholeText, PointedText, FractionText]) (· = ['0'])
  | .binary => BinaryText
  | .octal => OctalText
  | .hexadecimal => HexadecimalText

/-- The form that the first two characters of a numeral tell. -/
def ofText : List Char → Form
  | '0' :: 'b' :: _ => .binary
  | '0' :: 'x' :: _ => .hexadecimal
  | '0' :: '.' :: _ => .decimal
  | '0' :: _ :: _ => .octal
  | _ => .decimal

end Form

/-! ### Digits -/

def digitOf (c : Char) : Nat :=
  if c.toNat ≤ '9'.toNat then c.toNat - '0'.toNat
  else if c.toNat ≤ 'F'.toNat then c.toNat - 'A'.toNat + 10
  else c.toNat - 'a'.toNat + 10

/-- The number that digits denote: each counts for a power of the base, by the number of digits
behind it. -/
def placeValue (base : Nat) : List Char → Nat
  | [] => 0
  | c :: rest => digitOf c * Nat.pow base rest.length + placeValue base rest

def wholeNumber (number : Nat) : Float :=
  if number < Nat.pow 2 64 then (UInt64.ofNat number).toFloat else Decimal.undefinedFloat

/-- How a numeral of a form is read. -/
def Form.value : Form → List Char → Value
  | .decimal, text => decimalValue text
  | .binary, text => ofNumber (wholeNumber (placeValue 2 (text.drop 2)))
  | .octal, text => ofNumber (wholeNumber (placeValue 8 (text.drop 1)))
  | .hexadecimal, text => ofNumber (wholeNumber (placeValue 16 (text.drop 2)))

section Digits

variable {base : Nat} {digits : List Char} {set : CharSet} {c : Char}

theorem digitOf_eq (c : Char) :
    digitOf c =
      if c.toNat ≤ 57 then c.toNat - 48 else if c.toNat ≤ 70 then c.toNat - 65 + 10
      else c.toNat - 97 + 10 :=
  rfl

theorem hexadecimalDigits_mem_iff :
    hexadecimalDigits.mem c = true ↔
      48 ≤ c.toNat ∧ c.toNat ≤ 57 ∨ 65 ≤ c.toNat ∧ c.toNat ≤ 70 ∨
        97 ≤ c.toNat ∧ c.toNat ≤ 102 := by
  simp only [hexadecimalDigits, CharSet.mem, CharSet.holds, Bool.and_eq_true, Bool.or_eq_true,
    decide_eq_true_eq]
  grind

theorem digitIn?_of_lt (isDigit : hexadecimalDigits.mem c = true) (below : digitOf c < base) :
    Decimal.digitIn? base c = some (digitOf c) := by
  rw [hexadecimalDigits_mem_iff] at isDigit
  rw [digitOf_eq] at below
  rw [Decimal.digitIn?_eq, digitOf_eq]
  grind

def DigitsOf (set : CharSet) (base : Nat) : Prop :=
  ∀ c, set.mem c = true → Decimal.digitIn? base c = some (digitOf c)

theorem digitsOf_range {last : Char} (decimal : last ≤ '9')
    (below : last.toNat - '0'.toNat < base) : DigitsOf (.range '0' last) base := by
  intro c member
  rw [CharSet.mem_range, Bool.and_eq_true, decide_eq_true_eq, decide_eq_true_eq] at member
  have first : 48 ≤ c.toNat := member.1
  have upper : c.toNat ≤ last.toNat := member.2
  have small : last.toNat ≤ 57 := decimal
  have isDigit : hexadecimalDigits.mem c = true :=
    hexadecimalDigits_mem_iff.2 (.inl ⟨first, Nat.le_trans upper small⟩)
  have unfolded : digitOf c = c.toNat - 48 := if_pos (Nat.le_trans upper small)
  have within : last.toNat - 48 < base := below
  exact digitIn?_of_lt isDigit (by omega)

theorem digitsOf_binary : DigitsOf binaryDigits 2 :=
  digitsOf_range (by decide) (by decide)

theorem digitsOf_octal : DigitsOf octalDigits 8 :=
  digitsOf_range (by decide) (by decide)

theorem digitsOf_hexadecimal : DigitsOf hexadecimalDigits 16 := by
  intro c member
  refine digitIn?_of_lt member ?_
  rw [hexadecimalDigits_mem_iff] at member
  rw [digitOf_eq]
  grind

/-- Digits are read one by one, behind a number that has been read already. -/
theorem foldlM_digitIn? (areDigits : ∀ c ∈ digits, Decimal.digitIn? base c = some (digitOf c))
    (before : Nat) :
    digits.foldlM (fun value c => (Decimal.digitIn? base c).map (value * base + ·)) before =
      some (before * Nat.pow base digits.length + placeValue base digits) := by
  induction digits generalizing before with
  | nil => simp [placeValue]
  | cons c rest ih =>
      rw [List.forall_mem_cons] at areDigits
      have isPower : Nat.pow base (rest.length + 1) = Nat.pow base rest.length * base := rfl
      rw [List.foldlM_cons, areDigits.1, Option.map_some, Option.bind_eq_bind, Option.bind_some,
        ih areDigits.2, placeValue, List.length_cons, isPower]
      grind

/-- At least one digit of a base is read as the whole number that it denotes. -/
theorem radixNumber_eq (digitsOf : DigitsOf set base) (belongs : someOf set digits) :
    radixNumber base digits = wholeNumber (placeValue base digits) := by
  obtain ⟨c, _, rfl, isFirst, run, _, rfl, areOthers, rfl⟩ := belongs
  rw [List.append_nil] at *
  have areDigits : ∀ d ∈ c :: run, Decimal.digitIn? base d = some (digitOf d) :=
    List.forall_mem_cons.2
      ⟨digitsOf c isFirst, fun d member => digitsOf d (areOthers d member)⟩
  have unsigned : c ≠ '+' := by
    rintro rfl
    have sign : Decimal.digitIn? base '+' = none := rfl
    cases sign.symm.trans (digitsOf '+' isFirst)
  have read : Decimal.readNatural? base (Nat.pow 2 64) (c :: run) =
      (some (placeValue base (c :: run))).filter (· < Nat.pow 2 64) := by
    have isNumber : Decimal.readDigits? base (c :: run) = some (placeValue base (c :: run)) := by
      have all := foldlM_digitIn? areDigits 0
      rw [Nat.zero_mul, Nat.zero_add] at all
      exact all
    rw [← isNumber]
    unfold Decimal.readNatural?
    split
    · next same => exact absurd (List.cons.inj same).1 unsigned
    · rfl
  rw [radixNumber, read, wholeNumber, Option.filter_some]
  by_cases fits : placeValue base (c :: run) < Nat.pow 2 64
  · rw [if_pos fits, if_pos (decide_eq_true fits)]
  · rw [if_neg fits, if_neg (mt of_decide_eq_true fits)]

end Digits

/-! ### Numerals -/

variable {form other : Form} {text : List Char}

theorem numberText_iff : NumberText text ↔ ∃ form : Form, form.texts text := by
  constructor
  · rintro ⟨language, listed, belongs⟩
    simp only [numberLanguages, List.mem_cons, List.not_mem_nil, or_false] at listed
    rcases listed with rfl | rfl | rfl | rfl | rfl
    · exact ⟨.decimal, .inl belongs⟩
    · exact ⟨.decimal, .inr belongs⟩
    · exact ⟨.binary, belongs⟩
    · exact ⟨.octal, belongs⟩
    · exact ⟨.hexadecimal, belongs⟩
  · rintro ⟨form, belongs⟩
    cases form with
    | decimal =>
        cases belongs with
        | inl decimal => exact ⟨_, .head _, decimal⟩
        | inr zero => exact ⟨_, .tail _ (.head _), List.mem_singleton.2 zero⟩
    | binary => exact ⟨_, .tail _ (.tail _ (.head _)), belongs⟩
    | octal => exact ⟨_, .tail _ (.tail _ (.tail _ (.head _))), belongs⟩
    | hexadecimal => exact ⟨_, .tail _ (.tail _ (.tail _ (.tail _ (.head _)))), belongs⟩

theorem Form.ofText_leading {c : Char} (leads : leadingDigits.mem c = true) (tail : List Char) :
    ofText (c :: tail) = .decimal := by
  have notZero : c ≠ '0' := by
    rintro rfl
    cases leads
  unfold ofText
  split
  · next same => exact absurd (List.cons.inj same).1 notZero
  · next same => exact absurd (List.cons.inj same).1 notZero
  · rfl
  · next same => exact absurd (List.cons.inj same).1 notZero
  · rfl

theorem Form.ofText_octal {c : Char} (isOctal : octalDigits.mem c = true) (tail : List Char) :
    ofText ('0' :: c :: tail) = .octal := by
  unfold ofText
  split
  · next same =>
      cases same
      cases isOctal
  · next same =>
      cases same
      cases isOctal
  · next same =>
      cases same
      cases isOctal
  · rfl
  · next differs => exact absurd rfl (differs c tail)

/-- A text has one form at most. -/
theorem Form.of_texts (belongs : form.texts text) : ofText text = form := by
  cases form with
  | decimal =>
      rcases belongs with ⟨language, listed, belongs⟩ | rfl
      · simp only [List.mem_cons, List.not_mem_nil, or_false] at listed
        rcases listed with rfl | rfl | rfl
        · obtain ⟨c, tail, rfl, leads, -⟩ := belongs
          exact ofText_leading leads tail
        · obtain ⟨c, tail, rfl, leads, -⟩ := belongs
          exact ofText_leading leads tail
        · obtain ⟨c, _, rfl, isZero, d, tail, rfl, isPoint, -⟩ := belongs
          cases eq_of_one_mem isZero
          cases eq_of_one_mem isPoint
          rfl
      · rfl
  | binary =>
      obtain ⟨c, _, rfl, isZero, d, tail, rfl, isMark, -⟩ := belongs
      cases eq_of_one_mem isZero
      cases eq_of_one_mem isMark
      rfl
  | octal =>
      obtain ⟨c, _, rfl, isZero, d, tail, rfl, isOctal, -⟩ := belongs
      cases eq_of_one_mem isZero
      exact ofText_octal isOctal tail
  | hexadecimal =>
      obtain ⟨c, _, rfl, isZero, d, tail, rfl, isMark, -⟩ := belongs
      cases eq_of_one_mem isZero
      cases eq_of_one_mem isMark
      rfl

theorem Form.value_of_texts (belongs : form.texts text) :
    ofNumber (numberOf text) = form.value text := by
  have offers := @number_offers text
  simp only [numberTerminal, numberLanguages, List.zip_cons_cons, List.zip_nil_left,
    List.forall_mem_cons, Option.map_some, Option.some_inj] at offers
  obtain ⟨decimal, zero, binary, octal, hexadecimal, -⟩ := offers
  cases form with
  | decimal =>
      cases belongs with
      | inl isDecimal => exact (decimal isDecimal).symm
      | inr isZero => exact (zero (List.mem_singleton.2 isZero)).symm
  | binary =>
      rw [← binary belongs]
      obtain ⟨c, _, rfl, -, d, digits, rfl, -, areDigits⟩ := belongs
      exact congrArg ofNumber (radixNumber_eq digitsOf_binary areDigits)
  | octal =>
      rw [← octal belongs]
      obtain ⟨c, digits, rfl, -, areDigits⟩ := belongs
      exact congrArg ofNumber (radixNumber_eq digitsOf_octal areDigits)
  | hexadecimal =>
      rw [← hexadecimal belongs]
      obtain ⟨c, _, rfl, -, d, digits, rfl, -, areDigits⟩ := belongs
      exact congrArg ofNumber (radixNumber_eq digitsOf_hexadecimal areDigits)

section Cells

variable {landing : Landing}

/-- What a place has for a number is the longest numeral ahead. -/
theorem numeral_of_leaf {leaf : Leaf Value}
    (found : (LexicalCell.scan ready landing).1.leaf? numberSymbol = some leaf) :
    ∃ (form : Form) (text : List Char), text <+: landing.rest ∧ form.texts text ∧
      leaf = landing.leaf numberSymbol text (some (form.value text)) ∧
      ∀ (other : Form) (piece : List Char), piece <+: landing.rest → other.texts piece →
        piece <+: text := by
  rw [number_leaf] at found
  obtain ⟨⟨own, candidate⟩, scanned, rfl⟩ := Option.map_eq_some_iff.1 found
  obtain ⟨isSymbol, ⟨isNumber, isValue⟩, longest⟩ := number_spells.matched scanned
  have fits := LexicalCell.scanTerminal_fits scanned
  obtain ⟨form, belongs⟩ := numberText_iff.1 isNumber
  refine ⟨form, own.text, fits.text, belongs, ?_, ?_⟩
  · have same : own = landing.leaf own.symbol own.text own.value := fits.eq_leaf
    rw [isSymbol, isValue, Form.value_of_texts belongs] at same
    exact same
  · intro other piece begins isOther
    exact longest piece _ begins ⟨numberText_iff.2 ⟨other, isOther⟩, rfl⟩

theorem no_numeral (missing : (LexicalCell.scan ready landing).1.leaf? numberSymbol = none)
    (form : Form) (text : List Char) (begins : text <+: landing.rest) : ¬ form.texts text := by
  rw [number_leaf, Option.map_eq_none_iff] at missing
  intro belongs
  exact number_spells.unmatched missing text _ begins ⟨numberText_iff.2 ⟨form, belongs⟩, rfl⟩

end Cells

/-- In the grammar of formulas a place has a number exactly if some numeral begins there. The number
is the longest of these numerals; it has one form only, and is read as this form says. -/
theorem numerals_exact :
    grammar = .ok ready ∧
    ∀ landing : Landing,
      ((∃ leaf, (LexicalCell.scan ready landing).1.leaf? numberSymbol = some leaf) ↔
        ∃ (form : Form) (text : List Char), text <+: landing.rest ∧ form.texts text) ∧
      ∀ leaf, (LexicalCell.scan ready landing).1.leaf? numberSymbol = some leaf →
        ∃ (form : Form) (text : List Char), text <+: landing.rest ∧ form.texts text ∧
          (∀ other : Form, other.texts text → other = form) ∧
          (∀ (other : Form) (piece : List Char), piece <+: landing.rest → other.texts piece →
            piece <+: text) ∧
          leaf = landing.leaf numberSymbol text (some (form.value text)) := by
  refine ⟨grammar_eq, fun landing => ⟨⟨?_, ?_⟩, ?_⟩⟩
  · rintro ⟨leaf, found⟩
    obtain ⟨form, text, begins, belongs, -⟩ := numeral_of_leaf found
    exact ⟨form, text, begins, belongs⟩
  · rintro ⟨form, text, begins, belongs⟩
    rw [← Option.ne_none_iff_exists']
    exact fun missing => no_numeral missing form text begins belongs
  · intro leaf found
    obtain ⟨form, text, begins, belongs, isLeaf, longest⟩ := numeral_of_leaf found
    refine ⟨form, text, begins, belongs, ?_, longest, isLeaf⟩
    intro other isOther
    exact (Form.of_texts isOther).symm.trans (Form.of_texts belongs)

example :
    Form.ofText ['0', 'x', '1', 'A'] = .hexadecimal ∧ placeValue 16 ['1', 'A'] = 26 ∧
    Form.ofText ['0', '1', '7'] = .octal ∧ placeValue 8 ['1', '7'] = 15 ∧
    Form.ofText ['0', 'b', '1', '1'] = .binary ∧ placeValue 2 ['1', '1'] = 3 := by
  decide

end Packrat.Formula
