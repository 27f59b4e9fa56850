import Libpreempt.Arithmetic.Subtraction
import Libpreempt.Base.DoubleProperties
import Libpreempt.Base.Tolerance

/-! The tolerant comparisons as they are computed, with the difference rounded
to a `double`. -/

set_option autoImplicit false

namespace Libpreempt.Base

open Libpreempt.Arithmetic

namespace Double

theorem value_fabs_sub (a b : Double) :
    (fabs (a - b)).value = nearest 53 |a.value - b.value| := by
  rw [value_fabs, value_sub, nearest_abs]

/-- The product with a power of two is exact. -/
theorem value_tolerance (a b : Double) :
    (epsilon * fmax (fabs a) (fabs b)).value =
      max |a.value| |b.value| * 2 ^ (-52 : Int) := by
  have exactly := ((fmax (fabs a) (fabs b)).fits.mul_zpow (-52)).nearest_eq (by decide)
  rw [value_mul, value_epsilon, mul_comm, exactly, value_fmax, value_fabs, value_fabs]

theorem almostEqual_iff (a b : Double) :
    almostEqual a b = true ↔
      |a.value - b.value| ≤ 2 ^ (-52 : Int) + 2 ^ (-105 : Int) ∨
        |a.value - b.value| ≤ max |a.value| |b.value| * 2 ^ (-52 : Int) := by
  have absolute := nearest_le_zpow_iff (x := |a.value - b.value|) (show 1 < 53 by decide) (-52)
  have relative := nearest_sub_le_iff (by decide) a.fits b.fits (show (-52 : Int) ≤ -2 by decide)
  rw [show -52 - ((53 : ℕ) : Int) = -105 by norm_num] at absolute
  rw [← absolute, ← relative, ← value_tolerance, ← value_fabs_sub, ← value_epsilon]
  simp only [almostEqual]
  split
  · next near => exact iff_of_true rfl (.inl near)
  · next far => rw [decide_eq_true_eq, or_iff_right far]

theorem almostEqual_comm (a b : Double) : almostEqual a b = almostEqual b a := by
  rw [Bool.eq_iff_iff, almostEqual_iff, almostEqual_iff, abs_sub_comm, max_comm]

theorem almostGt_eq (a b : Double) : almostGt a b = almostLt b a := by
  rw [almostGt, almostLt, almostEqual_comm b a]

theorem almostGe_eq (a b : Double) : almostGe a b = almostLe b a := by
  rw [almostGe, almostLe, almostEqual_comm b a]

/-- The absolute tolerance is half a unit wider than the relative one at one. -/
theorem almostLt_iff (a b : Double) :
    almostLt a b = true ↔
      2 ^ (-52 : Int) + 2 ^ (-105 : Int) < b.value - a.value ∧
        Exceeds (2 ^ (-52 : Int)) a.value b.value := by
  have wide : (0 : ℚ) < 2 ^ (-105 : Int) := zpow_pos two_pos _
  have narrow : (0 : ℚ) < 2 ^ (-52 : Int) := zpow_pos two_pos _
  have equal := almostEqual_iff a b
  simp only [almostLt, Bool.and_eq_true, decide_eq_true_eq, Bool.not_eq_true', ← Bool.not_eq_true,
    equal, not_or, not_le]
  constructor
  · rintro ⟨less, absolute, relative⟩
    rw [abs_sub_comm, abs_of_pos (sub_pos.mpr less)] at absolute relative
    exact ⟨absolute, by linarith, by linarith⟩
  · rintro ⟨absolute, exceeds⟩
    have less := exceeds.lt narrow.le
    have relative := exceeds.relative
    rw [abs_sub_comm, abs_of_pos (sub_pos.mpr less)]
    exact ⟨less, absolute, by linarith⟩

theorem almostLe_eq_not (a b : Double) : almostLe a b = !almostLt b a := by
  rw [almostLe, almostLt, almostEqual_comm b a]
  rcases lt_trichotomy a.value b.value with less | same | greater
  · simp [less, less.le]
  · have equal : almostEqual a b = true := by
      rw [almostEqual_iff, same, sub_self, abs_zero]
      exact .inl (by positivity)
    simp [equal]
  · simp [greater, greater.le]

/-- Computed with `double`, the comparison still is a strict order that agrees with the order of
the values, and `almost_le` its opposite. -/
theorem almost_lt_rounded_order :
    (∀ {lower a b upper : Double}, lower.value ≤ a.value → b.value ≤ upper.value →
      almostLt a b = true → almostLt lower upper = true) ∧
    (∀ {a b c : Double}, almostLt a b = true → almostLt b c = true → almostLt a c = true) ∧
    (∀ a : Double, ¬ almostLt a a = true) ∧
    (∀ a b : Double, almostLe a b = !almostLt b a ∧ almostGt a b = almostLt b a ∧
      almostGe a b = !almostLt a b) := by
  have small : (2 : ℚ) ^ (-52 : Int) ≤ 1 := by norm_num
  have nonneg : (0 : ℚ) ≤ 2 ^ (-52 : Int) := (zpow_pos two_pos _).le
  have mono : ∀ {lower a b upper : Double}, lower.value ≤ a.value → b.value ≤ upper.value →
      almostLt a b = true → almostLt lower upper = true := by
    intro lower a b upper left right less
    rw [almostLt_iff] at less ⊢
    exact ⟨by linarith, less.2.mono nonneg small left right⟩
  refine ⟨mono, ?_, ?_, ?_⟩
  · intro a b c first second
    have order := ((almostLt_iff a b).mp first).2.lt nonneg
    exact mono order.le le_rfl second
  · intro a less
    exact not_exceeds_self nonneg ((almostLt_iff a a).mp less).2
  · intro a b
    exact ⟨almostLe_eq_not a b, almostGt_eq a b, by rw [almostGe_eq, almostLe_eq_not]⟩

theorem almost_lt_rounded_order_one : almostLt (ofInt (-1)) (ofInt 2) = true := by
  have zero : (ofInt 0).value = 0 := by exact_mod_cast value_ofInt (n := 0) (by decide)
  have one : (ofInt 1).value = 1 := by exact_mod_cast value_ofInt (n := 1) (by decide)
  have two : (ofInt 2).value = 2 := by exact_mod_cast value_ofInt (n := 2) (by decide)
  have minus : (ofInt (-1)).value = -1 := by exact_mod_cast value_ofInt (n := -1) (by decide)
  have first : almostLt (ofInt 0) (ofInt 1) = true := by
    rw [almostLt_iff, zero, one]
    exact ⟨by norm_num, by norm_num, by norm_num⟩
  have second : almostLt (ofInt 1) (ofInt 2) = true := by
    rw [almostLt_iff, one, two]
    exact ⟨by norm_num, by norm_num, by norm_num⟩
  exact almost_lt_rounded_order.1 (by rw [minus, zero]; norm_num) le_rfl
    (almost_lt_rounded_order.2.1 first second)

/-- The rounding of the difference widens the absolute tolerance by its half unit in the last
place, and leaves the relative one as it is. -/
theorem almost_equal_exact_iff (a b : Double) :
    almostEqual a b = true ↔
      Base.almostEqual (2 ^ (-52 : Int)) a.value b.value = true ∨
        2 ^ (-52 : Int) < |a.value - b.value| ∧
          |a.value - b.value| ≤ 2 ^ (-52 : Int) + 2 ^ (-105 : Int) := by
  have wide : (0 : ℚ) < 2 ^ (-105 : Int) := zpow_pos two_pos _
  rw [almostEqual_iff, Base.almostEqual_iff, mul_comm (2 ^ (-52 : Int) : ℚ)]
  constructor
  · rintro (absolute | relative)
    · rcases le_or_gt |a.value - b.value| (2 ^ (-52 : Int)) with near | far
      · exact .inl (.inl near)
      · exact .inr ⟨far, absolute⟩
    · exact .inl (.inr relative)
  · rintro ((near | relative) | ⟨_, absolute⟩)
    · exact .inl (by linarith)
    · exact .inr relative
    · exact .inl absolute

/-!
## Units of time forth and back
-/

theorem almostEqual_of_twice {a b : Double} {between : ℚ}
    (first : |between - a.value| ≤ |a.value| / 2 ^ 53)
    (second : |b.value - between| ≤ |between| / 2 ^ 53) : almostEqual b a = true := by
  rw [div_eq_inv_mul] at first second
  have error := abs_sub_le_of_twice (by positivity) (by norm_num) first second
  refine (almostEqual_iff b a).mpr (.inr ?_)
  rw [abs_sub_comm, max_comm]
  refine error.trans_eq ?_
  norm_num
  ring

/-- The relative error does not depend on the scale. -/
theorem abs_scaled_sub_le (x : ℚ) {scale : ℚ} (positive : 0 < scale) :
    |nearest 53 (x * scale) / scale - x| ≤ |x| / 2 ^ 53 := by
  have error := abs_nearest_sub_le_mul 53 (x * scale)
  have shape : nearest 53 (x * scale) / scale - x = (nearest 53 (x * scale) - x * scale) / scale := by
    rw [sub_div, mul_div_cancel_right₀ _ positive.ne']
  rw [shape, abs_div, abs_of_pos positive, div_le_iff₀ positive, div_mul_eq_mul_div]
  rwa [abs_mul, abs_of_pos positive] at error

section Units

variable (n : Double) {factor : Int}

theorem mul_div_almostEqual (positive : 0 < factor) (bound : factor ≤ 2 ^ 53) :
    almostEqual (n * ofInt factor / ofInt factor) n = true := by
  have above : (0 : ℚ) < factor := by exact_mod_cast positive
  have exactly : (ofInt factor).value = factor := value_ofInt (by rwa [abs_of_pos positive])
  have first := abs_scaled_sub_le n.value above
  refine almostEqual_of_twice first ?_
  rw [value_div, value_mul, exactly]
  exact abs_nearest_sub_le_mul 53 _

theorem div_mul_almostEqual (positive : 0 < factor) (bound : factor ≤ 2 ^ 53) :
    almostEqual (n / ofInt factor * ofInt factor) n = true := by
  have above : (0 : ℚ) < factor := by exact_mod_cast positive
  have exactly : (ofInt factor).value = factor := value_ofInt (by rwa [abs_of_pos positive])
  have first := abs_scaled_sub_le n.value (inv_pos.mpr above)
  rw [← div_eq_mul_inv, div_inv_eq_mul] at first
  refine almostEqual_of_twice first ?_
  rw [value_mul, value_div, exactly]
  exact abs_nearest_sub_le_mul 53 _

/-- A time in another unit and back is almost equal to itself. -/
theorem unit_round_trips :
    almostEqual (msecToSec (secToMsec n)) n = true ∧
      almostEqual (secToMsec (msecToSec n)) n = true ∧
      almostEqual (usecToSec (secToUsec n)) n = true ∧
      almostEqual (secToUsec (usecToSec n)) n = true ∧
      almostEqual (usecToMsec (msecToUsec n)) n = true ∧
      almostEqual (msecToUsec (usecToMsec n)) n = true :=
  ⟨n.mul_div_almostEqual (by decide) (by decide), n.div_mul_almostEqual (by decide) (by decide),
    n.mul_div_almostEqual (by decide) (by decide), n.div_mul_almostEqual (by decide) (by decide),
    n.mul_div_almostEqual (by decide) (by decide), n.div_mul_almostEqual (by decide) (by decide)⟩

end Units

end Double

end Libpreempt.Base
