import Mathlib.Tactic.Common

/-!
# ASCII classes of characters

The classes of letters and digits are tests on the code point; here each is a range of
numbers, so that what is said of a class becomes arithmetic.
-/

namespace Wallermax.Base

variable {c : Char}

theorem isUpper_iff_toNat : c.isUpper = true ↔ 65 ≤ c.toNat ∧ c.toNat ≤ 90 := by
  have hclass : c.isUpper = decide (65 ≤ c.val ∧ c.val ≤ 90) := rfl
  rw [hclass, decide_eq_true_iff, UInt32.le_iff_toNat_le, UInt32.le_iff_toNat_le]
  exact Iff.rfl

theorem isLower_iff_toNat : c.isLower = true ↔ 97 ≤ c.toNat ∧ c.toNat ≤ 122 := by
  have hclass : c.isLower = (decide (97 ≤ c.val) && decide (c.val ≤ 122)) := rfl
  rw [hclass, Bool.and_eq_true, decide_eq_true_iff, decide_eq_true_iff,
    UInt32.le_iff_toNat_le, UInt32.le_iff_toNat_le]
  exact Iff.rfl

theorem isDigit_iff_range : c.isDigit = true ↔ 48 ≤ c.toNat ∧ c.toNat ≤ 57 :=
  Char.isDigit_iff_toNat

theorem isAlpha_iff : c.isAlpha = true ↔ c.isUpper = true ∨ c.isLower = true := by
  have hclass : c.isAlpha = (c.isUpper || c.isLower) := rfl
  rw [hclass, Bool.or_eq_true]

theorem isAlphanum_iff : c.isAlphanum = true ↔ c.isAlpha = true ∨ c.isDigit = true := by
  have hclass : c.isAlphanum = (c.isAlpha || c.isDigit) := rfl
  rw [hclass, Bool.or_eq_true]

theorem isAlphanum_of_isLower (h : c.isLower = true) : c.isAlphanum = true :=
  isAlphanum_iff.mpr (Or.inl (isAlpha_iff.mpr (Or.inr h)))

theorem isAlphanum_of_isDigit (h : c.isDigit = true) : c.isAlphanum = true :=
  isAlphanum_iff.mpr (Or.inr h)

/-- Letters and digits stand between the blank and the last ASCII code point. -/
theorem toNat_of_isAlphanum (h : c.isAlphanum = true) : 48 ≤ c.toNat ∧ c.toNat ≤ 122 := by
  rcases isAlphanum_iff.mp h with halpha | hdigit
  · rcases isAlpha_iff.mp halpha with hupper | hlower
    · have hrange := isUpper_iff_toNat.mp hupper
      omega
    · have hrange := isLower_iff_toNat.mp hlower
      omega
  · have hrange := isDigit_iff_range.mp hdigit
    omega

end Wallermax.Base
