import Libpreempt.Arithmetic.FloatingPoint

/-! The floor of `x + 1/2` where the sum is one of floating point. -/

set_option autoImplicit false

namespace Libpreempt.Arithmetic

variable {K : Type*} [Field K] [LinearOrder K] [IsStrictOrderedRing K]

/-- Different numbers of a grid are at least its width apart. -/
theorem add_le_of_grid {x y width : K} (positive : 0 < width) {m n : ℤ} (left : x = m * width)
    (right : y = n * width) (less : x < y) : x + width ≤ y := by
  have order : m < n := by
    rw [left, right] at less
    exact_mod_cast lt_of_mul_lt_mul_right less positive.le
  have step : (m : K) + 1 ≤ n := by exact_mod_cast order
  rw [left, right]
  linarith [mul_le_mul_of_nonneg_right step positive.le]

theorem half_grid {p : ℕ} {e : ℤ} (below : e < p) (q : ℤ) :
    ∃ n : ℤ, (q : K) + 1 / 2 = n * 2 ^ (e - p) := by
  obtain ⟨shift, same⟩ := Int.eq_ofNat_of_zero_le (show 0 ≤ p - e - 1 by omega)
  refine ⟨(2 * q + 1) * 2 ^ shift, ?_⟩
  push_cast
  rw [← zpow_natCast, ← same, mul_assoc, ← zpow_add₀ two_ne_zero,
    show (p : ℤ) - e - 1 + (e - p) = -1 by ring, zpow_neg_one]
  ring

variable [FloorRing K] {p : ℕ} {x : K}

/-- From `2 ^ p` on the values are whole. -/
theorem Fits.whole (fits : Fits (p + 1) x) (large : 2 ^ p ≤ |x|) : ∃ n : ℤ, x = n := by
  obtain ⟨n, shape⟩ := fits.grid p.succ_pos (e := p) (by rwa [zpow_natCast])
  exact ⟨n, by simpa using shape⟩

theorem floor_half_intCast (n : ℤ) :
    ⌊nearest (p + 1) ((n : K) + 1 / 2)⌋ = round (p + 1) (2 * n + 1) / 2 := by
  have shape : (n : K) + 1 / 2 = ((2 * n + 1 : ℤ) : K) * 2 ^ (-1 : ℤ) := by
    push_cast
    rw [zpow_neg_one]
    ring
  rw [shape, nearest_mul_zpow, nearest_intCast p.succ_pos, zpow_neg_one, ← div_eq_mul_inv]
  have floor := Int.floor_div_natCast ((round (p + 1) (2 * n + 1) : ℤ) : K) 2
  rw [Int.floor_intCast] at floor
  exact floor

/-- A sum that is rounded up to an integer, `level` being the place of its first bit. -/
structure Crosses (p : ℕ) (x : K) (level : ℤ) : Prop where
  below : x < ⌊x + 1 / 2⌋ + 1 / 2
  close : ⌊x + 1 / 2⌋ + 1 / 2 - x ≤ 2 ^ (level - p) / 2
  lower : 2 ^ level ≤ |x + 1 / 2|
  upper : |x + 1 / 2| < 2 ^ (level + 1)

theorem crosses_of_le (crosses : (⌊x + 1 / 2⌋ : K) + 1 ≤ nearest (p + 1) (x + 1 / 2)) :
    Crosses p x (Int.log 2 |x + 1 / 2|) := by
  have below := Int.lt_floor_add_one (x + 1 / 2)
  have nonzero : x + 1 / 2 ≠ 0 := by
    intro zero
    rw [zero, nearest_zero, Int.floor_zero] at crosses
    norm_num at crosses
  have error := abs_nearest_sub_le (p + 1) (x + 1 / 2)
  have width : spacing (p + 1) (x + 1 / 2) = 2 ^ (Int.log 2 |x + 1 / 2| - p) := by
    rw [spacing]
    congr 1
    push_cast
    ring
  rw [width] at error
  have gap := (le_abs_self _).trans error
  refine ⟨by linarith, by linarith, ?_, ?_⟩
  · exact_mod_cast Int.zpow_log_le_self (b := 2) one_lt_two (abs_pos.mpr nonzero)
  · exact_mod_cast Int.lt_zpow_succ_log_self (b := 2) one_lt_two |x + 1 / 2|

variable {level : ℤ}

/-- The number and the next half lie on one grid if the number is no smaller than the sum. -/
theorem Crosses.not_large (fits : Fits (p + 1) x) (small : |x| < 2 ^ p)
    (crosses : Crosses p x level) : |x| < 2 ^ level := by
  by_contra large
  rw [not_lt] at large
  have order : level < p := by
    rw [← zpow_natCast] at small
    exact (zpow_lt_zpow_iff_right₀ one_lt_two).mp (large.trans_lt small)
  obtain ⟨n, left⟩ := fits.grid p.succ_pos large
  obtain ⟨m, right⟩ := half_grid (K := K) order ⌊x + 1 / 2⌋
  have same : level + 1 - ((p + 1 : ℕ) : ℤ) = level - p := by
    push_cast
    ring
  rw [same] at left
  have width : (0 : K) < 2 ^ (level - p) := zpow_pos two_pos _
  have apart := add_le_of_grid width left right crosses.below
  have close := crosses.close
  linarith

theorem Crosses.positive (fits : Fits (p + 1) x) (small : |x| < 2 ^ p)
    (crosses : Crosses p x level) : 0 < x + 1 / 2 := by
  by_contra left
  rw [not_lt] at left
  have inside := crosses.not_large fits small
  have lower := crosses.lower
  rw [abs_of_nonpos left] at lower
  have magnitude := neg_le_abs x
  linarith

/-- From one on an integer stands between the number and its sum. -/
theorem Crosses.level_neg (fits : Fits (p + 1) x) (small : |x| < 2 ^ p)
    (crosses : Crosses p x level) : level < 0 := by
  by_contra nonneg
  rw [not_lt] at nonneg
  have inside := lt_of_abs_lt (crosses.not_large fits small)
  have lower := crosses.lower
  have close := crosses.close
  rw [abs_of_pos (crosses.positive fits small)] at lower
  have whole : (2 : K) ^ level ≤ ⌊x + 1 / 2⌋ := by
    obtain ⟨place, rfl⟩ := Int.eq_ofNat_of_zero_le nonneg
    rw [zpow_natCast] at lower ⊢
    exact_mod_cast Int.le_floor.mpr (by push_cast; exact lower : ((2 ^ place : ℤ) : K) ≤ _)
  have wide : (2 : K) ^ (0 : ℤ) < 2 ^ (level - p) := by
    rw [zpow_zero]
    linarith
  have beyond := (zpow_lt_zpow_iff_right₀ one_lt_two).mp wide
  have double : (2 : K) ^ ((p : ℤ) + 1) ≤ 2 ^ level :=
    zpow_le_zpow_right₀ one_le_two (by omega)
  rw [zpow_add_one₀ two_ne_zero, zpow_natCast] at double
  have unit : (1 : K) ≤ 2 ^ p := one_le_pow₀ one_le_two
  have bound := lt_of_abs_lt small
  linarith

/-- Below `2 ^ p` a sum that is rounded up to an integer is that of the number just below
one half. -/
theorem eq_of_nearest_crosses (some : 0 < p) (fits : Fits (p + 1) x) (small : |x| < 2 ^ p)
    (rounded : (⌊x + 1 / 2⌋ : K) + 1 ≤ nearest (p + 1) (x + 1 / 2)) :
    x = 1 / 2 - 2 ^ (-(p : ℤ) - 2) := by
  obtain ⟨level, crosses⟩ : ∃ level, Crosses p x level := ⟨_, crosses_of_le rounded⟩
  have negative := crosses.level_neg fits small
  have positive := crosses.positive fits small
  have upper : x + 1 / 2 < 1 := by
    have top := crosses.upper
    rw [abs_of_pos positive] at top
    calc
      x + 1 / 2 < 2 ^ (level + 1) := top
      _ ≤ 2 ^ (0 : ℤ) := zpow_le_zpow_right₀ one_le_two (by omega)
      _ = 1 := zpow_zero 2
  have floor : ⌊x + 1 / 2⌋ = 0 := Int.floor_eq_zero_iff.mpr ⟨positive.le, upper⟩
  have near : 1 / 2 - x ≤ 2 ^ (-(p : ℤ) - 2) := by
    have close := crosses.close
    rw [floor] at close
    have width : (2 : K) ^ (level - p) ≤ 2 ^ (-(p : ℤ) - 1) :=
      zpow_le_zpow_right₀ one_le_two (by omega)
    have half : (2 : K) ^ (-(p : ℤ) - 1) = 2 ^ (-(p : ℤ) - 2) * 2 := by
      rw [← zpow_add_one₀ two_ne_zero]
      congr 1
      ring
    push_cast at close
    linarith
  have tiny : (2 : K) ^ (-(p : ℤ) - 2) ≤ 2 ^ (-3 : ℤ) := zpow_le_zpow_right₀ one_le_two (by omega)
  rw [show (2 : K) ^ (-3 : ℤ) = 1 / 8 by norm_num] at tiny
  have quarter : (2 : K) ^ (-2 : ℤ) ≤ |x| := by
    have shape : (2 : K) ^ (-2 : ℤ) = 1 / 4 := by norm_num
    rw [shape]
    exact le_trans (by linarith) (le_abs_self x)
  obtain ⟨n, left⟩ := fits.grid p.succ_pos quarter
  have right : (1 / 2 : K) = ((2 ^ (p + 1) : ℤ) : K) * 2 ^ (-(p : ℤ) - 2) := by
    push_cast
    rw [← zpow_natCast, ← zpow_add₀ two_ne_zero]
    push_cast
    rw [show (p : ℤ) + 1 + (-(p : ℤ) - 2) = -1 by ring, zpow_neg_one, one_div]
  have same : (-2 : ℤ) + 1 - ((p + 1 : ℕ) : ℤ) = -(p : ℤ) - 2 := by
    push_cast
    ring
  rw [same] at left
  have apart := add_le_of_grid (zpow_pos two_pos _) left right (by linarith)
  linarith

/-- The number just below one half: its sum is a tie, which goes up to one. -/
theorem nearest_below_half (p : ℕ) :
    nearest (p + 1) ((1 / 2 - 2 ^ (-(p : ℤ) - 2) : K) + 1 / 2) = 1 := by
  have tiny : (2 : K) ^ (-(p : ℤ) - 2) ≤ 2 ^ (-2 : ℤ) := zpow_le_zpow_right₀ one_le_two (by omega)
  rw [show (2 : K) ^ (-2 : ℤ) = 1 / 4 by norm_num] at tiny
  have small : (0 : K) < 2 ^ (-(p : ℤ) - 2) := zpow_pos two_pos _
  have sum : (1 / 2 - 2 ^ (-(p : ℤ) - 2) : K) + 1 / 2 = 1 - 2 ^ (-(p : ℤ) - 2) := by ring
  have positive : (0 : K) < 1 - 2 ^ (-(p : ℤ) - 2) := by linarith
  have width : spacing (p + 1) (1 - 2 ^ (-(p : ℤ) - 2) : K) = 2 ^ (-(p : ℤ) - 2) * 2 := by
    rw [spacing_eq (p + 1) (e := -1), ← zpow_add_one₀ two_ne_zero]
    · congr 1
      push_cast
      ring
    · rw [abs_of_pos positive, zpow_neg_one]
      linarith
    · rw [abs_of_pos positive, neg_add_cancel, zpow_zero]
      linarith
  have whole : (2 : K) ^ (p + 1) * (2 ^ (-(p : ℤ) - 2) * 2) = 1 := by
    rw [← zpow_natCast, ← zpow_add_one₀ two_ne_zero, ← zpow_add₀ two_ne_zero]
    push_cast
    rw [show (p : ℤ) + 1 + (-(p : ℤ) - 2 + 1) = 0 by ring, zpow_zero]
  have quotient : (1 - 2 ^ (-(p : ℤ) - 2) : K) / (2 ^ (-(p : ℤ) - 2) * 2) =
      2 ^ (p + 1) - 1 / 2 := by
    rw [div_eq_iff (by positivity), sub_mul, whole]
    ring
  have distance : |((2 ^ (p + 1) : ℤ) : K) - (2 ^ (p + 1) - 1 / 2)| = 1 / 2 := by
    push_cast
    rw [sub_sub_cancel, abs_of_pos one_half_pos]
  have found : nearestEven ((2 : K) ^ (p + 1) - 1 / 2) = 2 ^ (p + 1) :=
    nearestEven_eq distance.le fun _ => dvd_pow_self 2 p.succ_ne_zero
  rw [sum, nearest, width, quotient, found]
  push_cast
  exact whole

theorem floor_intCast_add_half (n : ℤ) : ⌊(n : K) + 1 / 2⌋ = n := by
  rw [Int.floor_intCast_add, Int.floor_eq_zero_iff.mpr ⟨by positivity, one_half_lt_one⟩, add_zero]

theorem floor_half_intCast_iff (some : 0 < p) {n : ℤ} (fits : Fits (p + 1) (n : K)) :
    ⌊nearest (p + 1) ((n : K) + 1 / 2)⌋ = ⌊(n : K) + 1 / 2⌋ ↔ 2 ∣ n ∨ n.natAbs < 2 ^ p := by
  have short : Representable (p + 1) n := by
    have same := fits.nearest_eq p.succ_pos
    rw [nearest_intCast p.succ_pos] at same
    exact round_eq_self_iff.mp (by exact_mod_cast same)
  rw [floor_half_intCast, floor_intCast_add_half, round_half_div_eq_iff some short]

/-- Rounding does not pass an integer below. -/
theorem floor_le_floor_nearest (small : |x| < 2 ^ p) :
    ⌊x + 1 / 2⌋ ≤ ⌊nearest (p + 1) (x + 1 / 2)⌋ := by
  obtain ⟨left, right⟩ := abs_lt.mp small
  have lower := Int.floor_le (x + 1 / 2)
  have upper := Int.lt_floor_add_one (x + 1 / 2)
  have bound : |⌊x + 1 / 2⌋| ≤ 2 ^ (p + 1) := by
    have above : (⌊x + 1 / 2⌋ : K) < ((2 ^ p + 1 : ℤ) : K) := by
      push_cast
      linarith
    have below : ((-2 ^ p - 1 : ℤ) : K) < ⌊x + 1 / 2⌋ := by
      push_cast
      linarith
    have one : (1 : ℤ) ≤ 2 ^ p := one_le_pow₀ one_le_two
    rw [Int.cast_lt] at above below
    rw [abs_le, pow_succ]
    omega
  exact Int.le_floor.mpr ((fits_intCast bound).le_nearest p.succ_pos lower)

/-- The floor is that of the exact sum, but for the number just below one half and for the
odd integers that fill the significand. -/
theorem floor_nearest_half_iff (some : 0 < p) (fits : Fits (p + 1) x) :
    ⌊nearest (p + 1) (x + 1 / 2)⌋ = ⌊x + 1 / 2⌋ ↔
      x ≠ 1 / 2 - 2 ^ (-(p : ℤ) - 2) ∧ ∀ n : ℤ, x = n → 2 ∣ n ∨ n.natAbs < 2 ^ p := by
  constructor
  · intro same
    refine ⟨?_, ?_⟩
    · rintro rfl
      rw [nearest_below_half, Int.floor_one] at same
      have small : (0 : K) < 2 ^ (-(p : ℤ) - 2) := zpow_pos two_pos _
      have lower := Int.floor_le ((1 / 2 - 2 ^ (-(p : ℤ) - 2) : K) + 1 / 2)
      rw [← same, Int.cast_one] at lower
      linarith
    · rintro n rfl
      exact (floor_half_intCast_iff some fits).mp same
  · rintro ⟨different, integers⟩
    rcases lt_or_ge |x| (2 ^ p) with small | large
    · refine le_antisymm ?_ (floor_le_floor_nearest small)
      rw [← Int.lt_add_one_iff, Int.floor_lt]
      by_contra crosses
      push_cast at crosses
      exact different (eq_of_nearest_crosses some fits small (not_lt.mp crosses))
    · obtain ⟨n, rfl⟩ := fits.whole large
      exact (floor_half_intCast_iff some fits).mpr (integers n rfl)

end Libpreempt.Arithmetic
