import Mathlib.Algebra.Order.Ring.Rat
import Mathlib.Data.Rat.Defs
import Mathlib.Data.Rat.Lemmas
import Mathlib.Tactic.NormNum
import Libpreempt.Arithmetic.Tolerance

/-! The tolerant comparisons of `base/numeric.h` in exact arithmetic, with `e`
for the machine epsilon. -/

set_option autoImplicit false

namespace Libpreempt.Base

open Libpreempt.Arithmetic

def almostEqual (e a b : ℚ) : Bool :=
  let x := |a - b|
  if x ≤ e then true
  else decide (x ≤ e * max |a| |b|)

def almostZero (e a : ℚ) : Bool := almostEqual e a 0

def almostLt (e a b : ℚ) : Bool := decide (a < b) && !almostEqual e a b

def almostLe (e a b : ℚ) : Bool := decide (a < b) || almostEqual e a b

def almostGt (e a b : ℚ) : Bool := decide (a > b) && !almostEqual e a b

def almostGe (e a b : ℚ) : Bool := decide (a > b) || almostEqual e a b

theorem almostEqual_iff {e a b : ℚ} :
    almostEqual e a b = true ↔ |a - b| ≤ e ∨ |a - b| ≤ e * max |a| |b| := by
  simp only [almostEqual]
  split
  · next near => simp [near]
  · next far => simp [far]

theorem almostEqual_comm (e a b : ℚ) : almostEqual e a b = almostEqual e b a := by
  simp only [almostEqual, abs_sub_comm a b, max_comm |a| |b|]

theorem almostGt_eq (e a b : ℚ) : almostGt e a b = almostLt e b a := by
  rw [almostGt, almostLt, almostEqual_comm e b a]

theorem almostGe_eq (e a b : ℚ) : almostGe e a b = almostLe e b a := by
  rw [almostGe, almostLe, almostEqual_comm e b a]

variable {e : ℚ}

theorem almostLt_iff (nonneg : 0 ≤ e) {a b : ℚ} : almostLt e a b = true ↔ Exceeds e a b := by
  have equal := @almostEqual_iff e a b
  simp only [almostLt, Bool.and_eq_true, decide_eq_true_eq, Bool.not_eq_true', ← Bool.not_eq_true,
    equal, not_or, not_le]
  constructor
  · rintro ⟨less, absolute, relative⟩
    rw [abs_sub_comm, abs_of_pos (sub_pos.mpr less)] at absolute relative
    exact ⟨absolute, relative⟩
  · intro exceeds
    have less := exceeds.lt nonneg
    rw [abs_sub_comm, abs_of_pos (sub_pos.mpr less)]
    exact ⟨less, exceeds.absolute, exceeds.relative⟩

/-- `almost_le` the other way round is the opposite of `almost_lt`. -/
theorem almostLe_eq_not (nonneg : 0 ≤ e) (a b : ℚ) : almostLe e a b = !almostLt e b a := by
  rw [almostLe, almostLt, almostEqual_comm e b a]
  rcases lt_trichotomy a b with less | rfl | greater
  · simp [less, less.le]
  · have equal : almostEqual e a a = true := almostEqual_iff.mpr (.inl (by simpa using nonneg))
    simp [equal]
  · simp [greater, greater.le]

/-- The step `e` is within the tolerance of small numbers, and two of them are not. -/
theorem almostEqual_not_trans (positive : 0 < e) (small : e < 1) :
    almostEqual e 0 e = true ∧ almostEqual e e (2 * e) = true ∧
      ¬ almostEqual e 0 (2 * e) = true := by
  refine ⟨almostEqual_iff.mpr (.inl ?_), almostEqual_iff.mpr (.inl ?_), ?_⟩
  · rw [zero_sub, abs_neg, abs_of_pos positive]
  · rw [two_mul, sub_add_cancel_left, abs_neg, abs_of_pos positive]
  · have double : 0 < 2 * e := by linarith
    rw [almostEqual_iff, zero_sub, abs_neg, abs_zero, abs_of_pos double,
      max_eq_right double.le]
    rintro (absolute | relative)
    · linarith
    · have below := mul_lt_of_lt_one_left double small
      linarith

/-- The comparison is monotone in both arguments, and so a strict order; `almost_le` is its
opposite with the arguments exchanged. -/
theorem almost_lt_strict_order (e : ℚ) (positive : 0 < e) (small : e < 1) :
    (∀ {lower a b upper : ℚ}, lower ≤ a → b ≤ upper → almostLt e a b = true →
      almostLt e lower upper = true) ∧
    (∀ {lower a b upper : ℚ}, lower ≤ a → b ≤ upper → almostLe e upper lower = true →
      almostLe e b a = true) ∧
    (∀ a b, almostLe e b a = !almostLt e a b) ∧
    (∀ {a b c : ℚ}, almostLt e a b = true → almostLt e b c = true → almostLt e a c = true) ∧
    (∀ a, ¬ almostLt e a a = true) ∧
    ∃ a b c, almostEqual e a b = true ∧ almostEqual e b c = true ∧
      ¬ almostEqual e a c = true := by
  have nonneg := positive.le
  have mono : ∀ {lower a b upper : ℚ}, lower ≤ a → b ≤ upper → almostLt e a b = true →
      almostLt e lower upper = true := by
    intro lower a b upper left right less
    rw [almostLt_iff nonneg] at less ⊢
    exact less.mono nonneg small.le left right
  refine ⟨mono, ?_, fun a b => almostLe_eq_not nonneg b a, ?_, ?_, 0, e, 2 * e,
    almostEqual_not_trans positive small⟩
  · intro lower a b upper left right
    rw [almostLe_eq_not nonneg, almostLe_eq_not nonneg, Bool.not_eq_true', Bool.not_eq_true',
      ← Bool.not_eq_true, ← Bool.not_eq_true]
    exact mt (mono left right)
  · intro a b c first second
    rw [almostLt_iff nonneg] at first second ⊢
    exact first.trans nonneg small.le second
  · intro a
    rw [almostLt_iff nonneg]
    exact not_exceeds_self nonneg

theorem almost_lt_strict_order_half :
    almostLt (1 / 2) 0 3 = true ∧ almostLe (1 / 2) 3 1 = false ∧ almostLe (1 / 2) 1 1 = true := by
  have far : almostLt (1 / 2) 1 3 = true := by
    rw [almostLt_iff (by norm_num)]
    exact ⟨by norm_num, by norm_num⟩
  obtain ⟨mono, monoLe, opposite, _⟩ :=
    almost_lt_strict_order (1 / 2) (by norm_num) (by norm_num)
  have near : almostLe (1 / 2) 1 (1 / 2) = true := by
    have absolute : almostEqual (1 / 2) 1 (1 / 2) = true := by
      rw [almostEqual_iff]
      left
      norm_num [abs_of_pos]
    rw [almostLe, absolute, Bool.or_true]
  refine ⟨mono zero_le_one (le_refl 3) far, ?_, monoLe (by norm_num) (le_refl 1) near⟩
  rw [opposite, far]
  rfl

end Libpreempt.Base
