import Packrat.Decimal.Reader

/-!
Digits of bases up to 36 by the ranges of characters that they lie in.
-/

set_option autoImplicit false

namespace Packrat.Decimal

theorem digitIn?_eq (base : Nat) (c : Char) :
    digitIn? base c =
      (if 48 ≤ c.toNat ∧ c.toNat ≤ 57 then some (c.toNat - 48)
        else if 97 ≤ c.toNat ∧ c.toNat ≤ 122 then some (c.toNat - 97 + 10)
        else if 65 ≤ c.toNat ∧ c.toNat ≤ 90 then some (c.toNat - 65 + 10)
        else none).filter (· < base) := by
  have isDigit : c.isDigit = (decide (48 ≤ c.toNat) && decide (c.toNat ≤ 57)) := rfl
  have isLower : c.isLower = (decide (97 ≤ c.toNat) && decide (c.toNat ≤ 122)) := rfl
  have isUpper : c.isUpper = decide (65 ≤ c.toNat ∧ c.toNat ≤ 90) := rfl
  rw [digitIn?, isDigit, isLower, isUpper]
  simp only [Bool.and_eq_true, decide_eq_true_eq]
  rfl

end Packrat.Decimal
