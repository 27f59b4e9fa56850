import Mathlib.Algebra.Order.Ring.Abs
import Mathlib.Tactic.Linarith
import Mathlib.Tactic.Ring

/-! Numbers apart by more than a tolerance that is absolute near zero and
relative to the larger magnitude elsewhere. -/

set_option autoImplicit false

namespace Libpreempt.Arithmetic

variable {K : Type*} [CommRing K] [LinearOrder K] [IsStrictOrderedRing K] {e a b c : K}

/-- `b` exceeds `a` by more than the tolerance of the pair. -/
structure Exceeds (e a b : K) : Prop where
  absolute : e < b - a
  relative : e * max |a| |b| < b - a

theorem Exceeds.lt (nonneg : 0 ≤ e) (exceeds : Exceeds e a b) : a < b :=
  sub_pos.mp (nonneg.trans_lt exceeds.absolute)

theorem not_exceeds_self (nonneg : 0 ≤ e) : ¬ Exceeds e a a :=
  fun exceeds => lt_irrefl a (exceeds.lt nonneg)

theorem max_abs_le_add {lower upper : K} (left : lower ≤ a) (right : b ≤ upper) :
    max |lower| |upper| ≤ max |a| |b| + ((a - lower) + (upper - b)) := by
  have first := le_max_left |a| |b|
  have second := le_max_right |a| |b|
  apply max_le
  · have step : |lower| ≤ |a| + (a - lower) := by
      have triangle := abs_sub_abs_le_abs_sub lower a
      rw [abs_sub_comm, abs_of_nonneg (sub_nonneg.mpr left)] at triangle
      linarith
    linarith
  · have step : |upper| ≤ |b| + (upper - b) := by
      have triangle := abs_sub_abs_le_abs_sub upper b
      rw [abs_of_nonneg (sub_nonneg.mpr right)] at triangle
      linarith
    linarith

/-- Moving the numbers further apart raises the distance by more than the
tolerance. -/
theorem Exceeds.mono (nonneg : 0 ≤ e) (small : e ≤ 1) {lower upper : K} (left : lower ≤ a)
    (right : b ≤ upper) (exceeds : Exceeds e a b) : Exceeds e lower upper where
  absolute := by
    have apart := exceeds.absolute
    linarith
  relative := by
    have moved : 0 ≤ (a - lower) + (upper - b) :=
      add_nonneg (sub_nonneg.mpr left) (sub_nonneg.mpr right)
    calc
      e * max |lower| |upper| ≤ e * (max |a| |b| + ((a - lower) + (upper - b))) :=
        mul_le_mul_of_nonneg_left (max_abs_le_add left right) nonneg
      _ = e * max |a| |b| + e * ((a - lower) + (upper - b)) := mul_add ..
      _ ≤ e * max |a| |b| + ((a - lower) + (upper - b)) := by
        have tolerance := mul_le_of_le_one_left moved small
        linarith
      _ < (b - a) + ((a - lower) + (upper - b)) := by
        have apart := exceeds.relative
        linarith
      _ = upper - lower := by ring

theorem Exceeds.trans (nonneg : 0 ≤ e) (small : e ≤ 1) (first : Exceeds e a b)
    (second : Exceeds e b c) : Exceeds e a c :=
  second.mono nonneg small (first.lt nonneg).le le_rfl

end Libpreempt.Arithmetic
