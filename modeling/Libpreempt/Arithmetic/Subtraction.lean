import Libpreempt.Arithmetic.FloatingPoint

/-! Differences in floating point: exact between numbers that are near to each
other, and otherwise on the right side of the bounds they are compared with. -/

set_option autoImplicit false

namespace Libpreempt.Arithmetic

variable {K : Type*} [Field K] [LinearOrder K] [IsStrictOrderedRing K] [FloorRing K] {bits : ℕ}

theorem nearest_abs (bits : ℕ) (x : K) : nearest bits |x| = |nearest bits x| := by
  rcases le_total 0 x with nonneg | nonpos
  · rw [abs_of_nonneg nonneg, abs_of_nonneg (nearest_nonneg bits nonneg)]
  · have mirrored := nearest_nonneg bits (neg_nonneg.mpr nonpos)
    rw [nearest_neg] at mirrored
    rw [abs_of_nonpos nonpos, nearest_neg, abs_of_nonpos (neg_nonneg.mp mirrored)]

/-- A number and one at most half as far from it as from zero have an exact difference. -/
theorem Fits.sub_of_near (some : 0 < bits) {x y : K} (left : Fits bits x) (right : Fits bits y)
    (near : |x - y| ≤ |x| / 2) : Fits bits (x - y) := by
  rcases eq_or_ne x 0 with rfl | nonzero
  · simpa using right.neg
  · have positive := abs_pos.mpr nonzero
    have lower : (2 : K) ^ Int.log 2 |x| ≤ |x| := by
      exact_mod_cast Int.zpow_log_le_self (b := 2) one_lt_two positive
    have upper : |x| < (2 : K) ^ (Int.log 2 |x| + 1) := by
      exact_mod_cast Int.lt_zpow_succ_log_self (b := 2) one_lt_two |x|
    have half : (2 : K) ^ (Int.log 2 |x| - 1) * 2 = 2 ^ Int.log 2 |x| := by
      rw [← zpow_add_one₀ two_ne_zero, sub_add_cancel]
    have triangle := abs_sub_abs_le_abs_sub x y
    obtain ⟨m, first⟩ := left.grid some (e := Int.log 2 |x| - 1) (by linarith)
    obtain ⟨n, second⟩ := right.grid some (e := Int.log 2 |x| - 1) (by linarith)
    refine ⟨m - n, Int.log 2 |x| - 1 + 1 - bits, ?_, ?_⟩
    · have width : (0 : K) < 2 ^ (Int.log 2 |x| - 1 + 1 - bits) := zpow_pos two_pos _
      have shape : x - y = ((m - n : ℤ) : K) * 2 ^ (Int.log 2 |x| - 1 + 1 - bits) := by
        rw [Int.cast_sub, sub_mul, ← first, ← second]
      have bound : |((m - n : ℤ) : K)| * 2 ^ (Int.log 2 |x| - 1 + 1 - bits) ≤
          2 ^ bits * 2 ^ (Int.log 2 |x| - 1 + 1 - bits) := by
        rw [← abs_of_pos width, ← abs_mul, ← shape, abs_of_pos width, ← zpow_natCast,
          ← zpow_add₀ two_ne_zero, show (bits : ℤ) + (Int.log 2 |x| - 1 + 1 - bits) =
            Int.log 2 |x| by ring]
        rw [zpow_add_one₀ two_ne_zero] at upper
        linarith
      exact_mod_cast le_of_mul_le_mul_right bound width
    · rw [Int.cast_sub, sub_mul, ← first, ← second]

theorem nearest_sub_of_near (some : 0 < bits) {x y : K} (left : Fits bits x)
    (right : Fits bits y) (near : |x - y| ≤ max |x| |y| / 2) : nearest bits |x - y| = |x - y| := by
  rcases le_total |y| |x| with larger | smaller
  · rw [max_eq_left larger] at near
    exact (left.sub_of_near some right near).abs.nearest_eq some
  · rw [max_eq_right smaller, abs_sub_comm] at near
    rw [abs_sub_comm]
    exact (right.sub_of_near some left near).abs.nearest_eq some

/-- Rounding does not move a difference past a bound relative to the larger magnitude: one as
small as the bound is exact. -/
theorem nearest_sub_le_iff (some : 0 < bits) {x y : K} (left : Fits bits x)
    (right : Fits bits y) {k : ℤ} (small : k ≤ -2) :
    nearest bits |x - y| ≤ max |x| |y| * 2 ^ k ↔ |x - y| ≤ max |x| |y| * 2 ^ k := by
  have larger : Fits bits (max |x| |y|) := by
    rcases max_choice |x| |y| with first | second
    · rw [first]
      exact left.abs
    · rw [second]
      exact right.abs
  have nonneg : 0 ≤ max |x| |y| := (abs_nonneg x).trans (le_max_left ..)
  have quarter : (2 : K) ^ k ≤ 1 / 4 := by
    refine (zpow_le_zpow_right₀ one_le_two small).trans_eq ?_
    norm_num
  constructor
  · intro rounded
    rcases le_or_gt |x - y| (max |x| |y| / 2) with near | far
    · rwa [nearest_sub_of_near some left right near] at rounded
    · have half : Fits bits (max |x| |y| / 2) := by
        have scaled := larger.mul_zpow (-1)
        rwa [zpow_neg_one, ← div_eq_mul_inv] at scaled
      have above := half.le_nearest some far.le
      have bound := mul_le_mul_of_nonneg_left quarter nonneg
      have none : max |x| |y| = 0 := by linarith
      have triangle := abs_sub x y
      have first := le_max_left |x| |y|
      have second := le_max_right |x| |y|
      linarith
  · exact (larger.mul_zpow k).nearest_le some

/-- Right above a power of two a number is rounded to it up to one half of a unit; the tie is
even. -/
theorem nearest_le_zpow_of_level (some : 1 < bits) {x : K} {e : ℤ} (lower : 2 ^ e ≤ x)
    (upper : x < 2 ^ (e + 1)) : nearest bits x ≤ 2 ^ e ↔ x ≤ 2 ^ e + 2 ^ (e - bits) := by
  have positive : 0 < x := (zpow_pos two_pos e).trans_le lower
  have width : spacing bits x = 2 ^ (e - bits) * 2 := by
    rw [spacing_eq bits (by rwa [abs_of_pos positive]) (by rwa [abs_of_pos positive]),
      ← zpow_add_one₀ two_ne_zero]
    congr 1
    ring
  have unit : (0 : K) < 2 ^ (e - bits) * 2 := mul_pos (zpow_pos two_pos _) two_pos
  have power : (2 : K) ^ e = ((2 ^ (bits - 1) : ℤ) : K) * (2 ^ (e - bits) * 2) := by
    push_cast
    rw [← zpow_natCast, ← zpow_add_one₀ two_ne_zero, ← zpow_add₀ two_ne_zero]
    congr 1
    omega
  have apart : x / (2 ^ (e - bits) * 2) - ((2 ^ (bits - 1) : ℤ) : K) =
      (x - 2 ^ e) / (2 ^ (e - bits) * 2) := by
    rw [sub_div, power, mul_div_cancel_right₀ _ unit.ne']
  rw [nearest, width, power, mul_le_mul_iff_left₀ unit, Int.cast_le, ← power]
  constructor
  · intro rounded
    have error := abs_le.mp (abs_nearestEven_sub_le (x / (2 ^ (e - bits) * 2)))
    have cast : (nearestEven (x / (2 ^ (e - bits) * 2)) : K) ≤ ((2 ^ (bits - 1) : ℤ) : K) := by
      exact_mod_cast rounded
    have half : (x - 2 ^ e) / (2 ^ (e - bits) * 2) ≤ 1 / 2 := by linarith
    rw [div_le_div_iff₀ unit two_pos] at half
    linarith
  · intro close
    have half : (x - 2 ^ e) / (2 ^ (e - bits) * 2) ≤ 1 / 2 := by
      rw [div_le_div_iff₀ unit two_pos]
      linarith
    have nonneg : 0 ≤ (x - 2 ^ e) / (2 ^ (e - bits) * 2) :=
      div_nonneg (sub_nonneg.mpr lower) unit.le
    refine (nearestEven_eq ?_ fun _ => dvd_pow_self 2 (by omega)).le
    rw [abs_sub_comm, apart, abs_of_nonneg nonneg]
    exact half

theorem nearest_le_zpow_iff (some : 1 < bits) {x : K} (e : ℤ) :
    nearest bits x ≤ 2 ^ e ↔ x ≤ 2 ^ e + 2 ^ (e - bits) := by
  have power : ∀ place : ℤ, Fits bits ((2 : K) ^ place) :=
    fun place => ⟨1, place, one_le_pow₀ one_le_two, by simp⟩
  have small : (2 : K) ^ (e - bits) < 2 ^ e := zpow_lt_zpow_right₀ one_lt_two (by omega)
  have unit : (0 : K) < 2 ^ (e - bits) := zpow_pos two_pos _
  have double : (2 : K) ^ (e + 1) = 2 ^ e * 2 := zpow_add_one₀ two_ne_zero e
  rcases lt_or_ge x (2 ^ e) with below | lower
  · exact iff_of_true ((power e).nearest_le (by omega) below.le) (by linarith)
  · rcases lt_or_ge x (2 ^ (e + 1)) with upper | above
    · exact nearest_le_zpow_of_level some lower upper
    · refine iff_of_false (not_le.mpr ?_) (by linarith)
      refine lt_of_lt_of_le ?_ ((power (e + 1)).le_nearest (by omega) above)
      linarith

/-- Two relative errors in turn stay below twice the bound of one, relative to the larger end. -/
theorem abs_sub_le_of_twice {x y z bound : K} (nonneg : 0 ≤ bound) (small : bound ≤ 1)
    (first : |y - x| ≤ bound * |x|) (second : |z - y| ≤ bound * |y|) :
    |x - z| ≤ 2 * bound * max |x| |z| := by
  have triangle := abs_sub_le x y z
  rw [abs_sub_comm x y, abs_sub_comm y z] at triangle
  have largest := le_max_left |x| |z|
  have scaled := mul_le_mul_of_nonneg_left largest nonneg
  rcases le_or_gt |y| (max |x| |z|) with between | outside
  · have other := mul_le_mul_of_nonneg_left between nonneg
    linarith
  · -- both ends lie on one side of `y`
    obtain ⟨left, right⟩ := max_lt_iff.mp outside
    have far : |y| ≤ 2 * |x| := by
      have grown := abs_sub_abs_le_abs_sub y x
      have unit := mul_le_mul_of_nonneg_right small (abs_nonneg x)
      linarith
    have last : |z - y| ≤ 2 * bound * max |x| |z| := by
      have wide := mul_le_mul_of_nonneg_left far nonneg
      linarith
    have start : |y - x| ≤ 2 * bound * max |x| |z| := by
      have other := mul_nonneg nonneg ((abs_nonneg x).trans largest)
      linarith
    rcases le_total 0 y with above | below
    · rw [abs_of_nonneg above] at left right
      have first := neg_abs_le (z - y)
      have second := le_abs_self (y - x)
      rw [abs_le]
      constructor <;> linarith [le_abs_self x, le_abs_self z]
    · rw [abs_of_nonpos below] at left right
      have first := le_abs_self (z - y)
      have second := neg_abs_le (y - x)
      rw [abs_le]
      constructor <;> linarith [neg_abs_le x, neg_abs_le z]

end Libpreempt.Arithmetic
