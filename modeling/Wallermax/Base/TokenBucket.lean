import Mathlib.Algebra.Order.Field.Basic
import Mathlib.Tactic.Linarith
import Mathlib.Tactic.Ring

/-!
# Token buckets

A bucket is a credit and the time up to which it has been credited. Time that
passes is credited at a fixed rate up to a capacity, and one grant costs one
credit. `WithinWindow` is the account to keep for one window of time: while
the bucket stands inside the window, what was granted there and what is left
to grant together stay within the capacity and the time credited since the
window opened.
-/

namespace Wallermax.Base

/-- A credit, and the time up to which it has been computed. -/
structure Account (𝕜 : Type*) where
  credit : 𝕜
  asOf : 𝕜

namespace Account

variable {𝕜 : Type*} [Field 𝕜] [LinearOrder 𝕜]

/-- Credit the time since `asOf`, up to the capacity. -/
def accrue (capacity rate : 𝕜) (a : Account 𝕜) (now : 𝕜) : Account 𝕜 where
  credit := min (a.credit + (now - a.asOf) * rate) capacity
  asOf := now

/-- One grant. -/
def spend (a : Account 𝕜) : Account 𝕜 where
  credit := a.credit - 1
  asOf := a.asOf

@[simp] theorem accrue_asOf (capacity rate : 𝕜) (a : Account 𝕜) (now : 𝕜) :
    (a.accrue capacity rate now).asOf = now := rfl

/-- **The window account**: `n` grants were made in the window that opens at
`s` and lasts `T`. -/
structure WithinWindow (capacity rate s T : 𝕜) (a : Account 𝕜) (n : ℕ) : Prop where
  credit_nonneg : 0 ≤ a.credit
  credit_le : a.credit ≤ capacity
  before : a.asOf < s → n = 0
  inside : s ≤ a.asOf → a.asOf ≤ s + T →
    (n : 𝕜) + a.credit ≤ capacity + rate * (a.asOf - s)
  bound : (n : 𝕜) ≤ capacity + rate * T

variable [IsStrictOrderedRing 𝕜] {capacity rate s T : 𝕜} {a : Account 𝕜} {n : ℕ}

/-- A full bucket, opened when nothing has been granted. -/
theorem WithinWindow.full (hcapacity : 0 ≤ capacity) (hrate : 0 ≤ rate) (hT : 0 ≤ T)
    (now : 𝕜) : WithinWindow capacity rate s T ⟨capacity, now⟩ 0 := by
  have hbound : (0 : 𝕜) ≤ capacity + rate * T := add_nonneg hcapacity (mul_nonneg hrate hT)
  refine ⟨hcapacity, le_refl _, fun _ => rfl, ?_, by simpa using hbound⟩
  intro hs _
  have helapsed : 0 ≤ rate * (now - s) := mul_nonneg hrate (sub_nonneg.mpr hs)
  show ((0 : ℕ) : 𝕜) + capacity ≤ capacity + rate * (now - s)
  rw [Nat.cast_zero, zero_add]
  linarith

/-- Time passes: the credit grows by at most what the bound grows by. -/
theorem WithinWindow.accrue (h : WithinWindow capacity rate s T a n) (hrate : 0 ≤ rate)
    {now : 𝕜} (hnow : a.asOf ≤ now) :
    WithinWindow capacity rate s T (a.accrue capacity rate now) n := by
  have helapsed : 0 ≤ (now - a.asOf) * rate := mul_nonneg (sub_nonneg.mpr hnow) hrate
  have hcapacity : 0 ≤ capacity := h.credit_nonneg.trans h.credit_le
  refine ⟨le_min (add_nonneg h.credit_nonneg helapsed) hcapacity, min_le_right _ _,
    fun hs => h.before (hnow.trans_lt hs), ?_, h.bound⟩
  intro hs hsT
  rcases lt_or_ge a.asOf s with hlt | hge
  case inl =>
    have hfull : (a.accrue capacity rate now).credit ≤ capacity := min_le_right _ _
    have hopen : 0 ≤ rate * (now - s) := mul_nonneg hrate (sub_nonneg.mpr hs)
    rw [h.before hlt, Nat.cast_zero, zero_add]
    exact hfull.trans (le_add_of_nonneg_right hopen)
  case inr =>
    have hcredit : (a.accrue capacity rate now).credit ≤ a.credit + (now - a.asOf) * rate :=
      min_le_left _ _
    have hsofar := h.inside hge (hnow.trans hsT)
    calc (n : 𝕜) + (a.accrue capacity rate now).credit
        ≤ n + (a.credit + (now - a.asOf) * rate) := by gcongr
      _ ≤ capacity + rate * (a.asOf - s) + (now - a.asOf) * rate := by linarith
      _ = capacity + rate * (now - s) := by ring

/-- A grant inside the window moves one unit from the credit to the count. -/
theorem WithinWindow.spend_inside (h : WithinWindow capacity rate s T a n)
    (hrate : 0 ≤ rate) (hone : 1 ≤ a.credit) (hs : s ≤ a.asOf) (hsT : a.asOf ≤ s + T) :
    WithinWindow capacity rate s T a.spend (n + 1) := by
  have hspend : a.spend.credit = a.credit - 1 := rfl
  have hmoved : ((n + 1 : ℕ) : 𝕜) + a.spend.credit ≤ capacity + rate * (a.asOf - s) := by
    have hsofar := h.inside hs hsT
    rw [hspend, Nat.cast_add, Nat.cast_one]
    linarith
  have hspan : rate * (a.asOf - s) ≤ rate * T :=
    mul_le_mul_of_nonneg_left (by linarith) hrate
  have hcredit : 0 ≤ a.spend.credit := sub_nonneg.mpr hone
  refine ⟨hcredit, (sub_le_self _ zero_le_one).trans h.credit_le,
    fun hbefore => absurd hs (not_le.mpr hbefore), fun _ _ => hmoved, ?_⟩
  linarith

/-- A grant outside the window does not count there. -/
theorem WithinWindow.spend_outside (h : WithinWindow capacity rate s T a n)
    (hone : 1 ≤ a.credit) (hout : ¬(s ≤ a.asOf ∧ a.asOf ≤ s + T)) :
    WithinWindow capacity rate s T a.spend n :=
  ⟨sub_nonneg.mpr hone, (sub_le_self _ zero_le_one).trans h.credit_le, h.before,
    fun hs hsT => absurd ⟨hs, hsT⟩ hout, h.bound⟩

end Account

end Wallermax.Base
