import Libpreempt.Arithmetic.Significand
import Mathlib.Data.Int.Log
import Mathlib.Algebra.Order.Floor.Ring
import Mathlib.Tactic.Linarith
import Mathlib.Tactic.Positivity
import Mathlib.Tactic.Ring

/-! Binary floating point with a number of significant bits and without bounds
on the exponent: the nearest value to a number of an ordered field, ties to
even. -/

set_option autoImplicit false

namespace Libpreempt.Arithmetic

variable {K : Type*} [Field K]

/-- The values that have at most `bits` significant bits. -/
def Fits (bits : ℕ) (x : K) : Prop := ∃ m e : ℤ, |m| ≤ 2 ^ bits ∧ x = m * 2 ^ e

theorem Fits.neg {bits : ℕ} {x : K} (fits : Fits bits x) : Fits bits (-x) := by
  obtain ⟨m, e, bound, rfl⟩ := fits
  exact ⟨-m, e, by rwa [abs_neg], by push_cast; ring⟩

theorem fits_intCast {bits : ℕ} {n : ℤ} (bound : |n| ≤ 2 ^ bits) : Fits bits (n : K) :=
  ⟨n, 0, bound, by simp⟩

variable [LinearOrder K]

theorem Fits.abs {bits : ℕ} {x : K} (fits : Fits bits x) : Fits bits |x| := by
  rcases abs_choice x with same | mirrored
  · rwa [same]
  · rw [mirrored]
    exact fits.neg

variable [IsStrictOrderedRing K]

theorem Fits.mul_zpow {bits : ℕ} {x : K} (fits : Fits bits x) (k : ℤ) :
    Fits bits (x * 2 ^ k) := by
  obtain ⟨m, e, bound, rfl⟩ := fits
  exact ⟨m, e + k, bound, by rw [zpow_add₀ two_ne_zero, mul_assoc]⟩

/-- A full significand is that of a power of two, and one bit is enough. -/
theorem Fits.strict {bits : ℕ} (some : 0 < bits) {x : K} (fits : Fits bits x) :
    ∃ m e : ℤ, |m| < 2 ^ bits ∧ x = m * 2 ^ e := by
  obtain ⟨m, e, bound, rfl⟩ := fits
  rcases bound.lt_or_eq with below | full
  · exact ⟨m, e, below, rfl⟩
  · have whole : ((m.sign : ℤ) : K) * 2 ^ bits = m := by
      have shape := Int.sign_mul_abs m
      rw [full] at shape
      exact_mod_cast shape
    refine ⟨m.sign, e + bits, ?_, ?_⟩
    · calc
        |m.sign| ≤ 1 := by
          rcases Int.sign_trichotomy m with one | none | minus
          · rw [one]; decide
          · rw [none]; decide
          · rw [minus]; decide
        _ < 2 ^ bits := one_lt_pow₀ one_lt_two some.ne'
    · rw [← whole, zpow_add₀ two_ne_zero, zpow_natCast]
      ring

variable [FloorRing K]

def nearestEven (x : K) : ℤ :=
  if 2 * Int.fract x < 1 ∨ 2 * Int.fract x = 1 ∧ 2 ∣ ⌊x⌋ then ⌊x⌋ else ⌊x⌋ + 1

/-- The distance of neighbouring values at `x`. -/
def spacing (bits : ℕ) (x : K) : K := 2 ^ (Int.log 2 |x| + 1 - bits)

def nearest (bits : ℕ) (x : K) : K := nearestEven (x / spacing bits x) * spacing bits x

/-!
## The nearest integer
-/

theorem abs_nearestEven_sub_le (x : K) : |(nearestEven x : K) - x| ≤ 1 / 2 := by
  have split := Int.floor_add_fract x
  have nonneg := Int.fract_nonneg x
  have below := Int.fract_lt_one x
  rw [nearestEven]
  split
  · next down =>
      have half : 2 * Int.fract x ≤ 1 := by
        rcases down with less | ⟨tie, _⟩
        · exact less.le
        · exact tie.le
      rw [abs_le]
      constructor <;> linarith
  · next up =>
      have half : 1 ≤ 2 * Int.fract x := by
        by_contra less
        exact up (.inl (not_le.mp less))
      push_cast
      rw [abs_le]
      constructor <;> linarith

theorem even_nearestEven_of_tie {x : K} (tie : |(nearestEven x : K) - x| = 1 / 2) :
    2 ∣ nearestEven x := by
  have split := Int.floor_add_fract x
  have nonneg := Int.fract_nonneg x
  rw [nearestEven] at tie ⊢
  split
  · next down =>
      rw [if_pos down, abs_sub_comm, abs_of_nonneg (by linarith)] at tie
      rcases down with less | ⟨_, even⟩
      · linarith
      · exact even
  · next up =>
      have below := Int.fract_lt_one x
      rw [if_neg up] at tie
      push_cast at tie
      rw [abs_of_nonneg (by linarith)] at tie
      have half : 2 * Int.fract x = 1 := by linarith
      have odd : ¬ 2 ∣ ⌊x⌋ := fun even => up (.inr ⟨half, even⟩)
      omega

/-- Two integers at most one half away from `x` are neighbours, and not both even. -/
theorem nearestEven_eq {x : K} {n : ℤ} (near : |(n : K) - x| ≤ 1 / 2)
    (tie : |(n : K) - x| = 1 / 2 → 2 ∣ n) : nearestEven x = n := by
  have found := abs_nearestEven_sub_le x
  by_contra different
  have apart : (1 : K) ≤ |(nearestEven x : K) - n| := by
    exact_mod_cast Int.one_le_abs (sub_ne_zero.mpr different)
  have triangle := abs_sub_le (nearestEven x : K) x n
  rw [abs_sub_comm x] at triangle
  have even := even_nearestEven_of_tie (le_antisymm found (by linarith))
  have other := tie (le_antisymm near (by linarith))
  have close : |(nearestEven x : K) - n| = 1 := le_antisymm (by linarith) apart
  have neighbours : |nearestEven x - n| = 1 := by exact_mod_cast close
  rcases (abs_eq zero_le_one).mp neighbours with above | below
  · omega
  · omega

@[simp] theorem nearestEven_intCast (n : ℤ) : nearestEven (n : K) = n :=
  nearestEven_eq (by simp) (by simp)

theorem nearestEven_neg (x : K) : nearestEven (-x) = -nearestEven x := by
  have mirrored : |((-nearestEven x : ℤ) : K) - -x| = |(nearestEven x : K) - x| := by
    rw [Int.cast_neg, neg_sub_neg, abs_sub_comm]
  refine nearestEven_eq (mirrored ▸ abs_nearestEven_sub_le x) ?_
  intro tie
  exact Int.dvd_neg.mpr (even_nearestEven_of_tie (mirrored ▸ tie))

theorem nearestEven_mono {x y : K} (order : x ≤ y) : nearestEven x ≤ nearestEven y := by
  by_contra less
  have step : (nearestEven y : K) + 1 ≤ nearestEven x := by
    exact_mod_cast not_le.mp less
  have first := abs_le.mp (abs_nearestEven_sub_le x)
  have second := abs_le.mp (abs_nearestEven_sub_le y)
  have same : x = y := by linarith
  exact less (same ▸ le_rfl)

theorem nearestEven_le {x : K} {n : ℤ} (bound : x ≤ n) : nearestEven x ≤ n :=
  (nearestEven_mono bound).trans_eq (nearestEven_intCast n)

theorem le_nearestEven {x : K} {n : ℤ} (bound : n ≤ x) : n ≤ nearestEven x :=
  (nearestEven_intCast n).symm.trans_le (nearestEven_mono bound)

/-!
## The spacing
-/

theorem spacing_pos (bits : ℕ) (x : K) : 0 < spacing bits x := zpow_pos two_pos _

theorem spacing_eq (bits : ℕ) {x : K} {e : ℤ} (lower : 2 ^ e ≤ |x|) (upper : |x| < 2 ^ (e + 1)) :
    spacing bits x = 2 ^ (e + 1 - bits) := by
  have positive : 0 < |x| := (zpow_pos two_pos e).trans_le lower
  have above := (Int.zpow_le_iff_le_log (b := 2) one_lt_two (x := e) positive).mp
    (by exact_mod_cast lower)
  have below := (Int.lt_zpow_iff_log_lt (b := 2) one_lt_two (x := e + 1) positive).mp
    (by exact_mod_cast upper)
  rw [spacing]
  congr 1
  omega

/-- In units of the spacing a number has `bits` digits before the point. -/
theorem abs_div_spacing_lt (bits : ℕ) (x : K) : |x| / spacing bits x < 2 ^ bits := by
  rw [div_lt_iff₀ (spacing_pos bits x), spacing, ← zpow_natCast, ← zpow_add₀ two_ne_zero]
  convert Int.lt_zpow_succ_log_self (b := 2) one_lt_two |x| using 2
  · norm_num
  · ring

theorem le_abs_div_spacing (bits : ℕ) {x : K} (nonzero : x ≠ 0) :
    2 ^ ((bits : ℤ) - 1) ≤ |x| / spacing bits x := by
  rw [le_div_iff₀ (spacing_pos bits x), spacing, ← zpow_add₀ two_ne_zero]
  convert Int.zpow_log_le_self (b := 2) one_lt_two (abs_pos.mpr nonzero) using 2
  · norm_num
  · ring

/-- The magnitude with its sign. -/
theorem abs_div_spacing (bits : ℕ) (x : K) : |x / spacing bits x| = |x| / spacing bits x := by
  rw [abs_div, abs_of_pos (spacing_pos bits x)]

theorem log_mul_zpow {x : K} (positive : 0 < x) (k : ℤ) :
    Int.log 2 (x * 2 ^ k) = Int.log 2 x + k := by
  have scaled : 0 < x * 2 ^ k := mul_pos positive (zpow_pos two_pos k)
  have shift : ∀ e : ℤ, (2 : K) ^ e ≤ x * 2 ^ k ↔ (2 : K) ^ (e - k) ≤ x := by
    intro e
    rw [zpow_sub₀ two_ne_zero, div_le_iff₀ (zpow_pos two_pos k)]
  have level : ∀ e : ℤ, e ≤ Int.log 2 (x * 2 ^ k) ↔ e - k ≤ Int.log 2 x := by
    intro e
    have first := Int.zpow_le_iff_le_log (b := 2) one_lt_two (x := e) scaled
    have second := Int.zpow_le_iff_le_log (b := 2) one_lt_two (x := e - k) positive
    rw [Nat.cast_ofNat] at first second
    rw [← first, ← second, shift]
  refine le_antisymm ?_ ((level _).mpr (by omega))
  have upper := (level _).mp le_rfl
  omega

/-!
## The nearest value
-/

@[simp] theorem nearest_zero (bits : ℕ) : nearest bits (0 : K) = 0 := by
  rw [nearest, zero_div, show nearestEven (0 : K) = 0 from by simpa using nearestEven_intCast 0]
  simp

theorem nearest_neg (bits : ℕ) (x : K) : nearest bits (-x) = -nearest bits x := by
  rw [nearest, nearest, spacing, spacing, abs_neg, neg_div, nearestEven_neg, Int.cast_neg,
    neg_mul]

theorem nearest_mul_zpow (bits : ℕ) (x : K) (k : ℤ) :
    nearest bits (x * 2 ^ k) = nearest bits x * 2 ^ k := by
  rcases eq_or_ne x 0 with rfl | nonzero
  · simp
  · have scale : (2 : K) ^ k ≠ 0 := zpow_ne_zero k two_ne_zero
    have spread : spacing bits (x * 2 ^ k) = spacing bits x * 2 ^ k := by
      rw [spacing, abs_mul, abs_of_pos (zpow_pos two_pos k : (0 : K) < 2 ^ k),
        log_mul_zpow (abs_pos.mpr nonzero), spacing, ← zpow_add₀ two_ne_zero]
      congr 1
      ring
    rw [nearest, nearest, spread, mul_div_mul_right _ _ scale, mul_assoc]

theorem fits_nearest (bits : ℕ) (x : K) : Fits bits (nearest bits x) := by
  refine ⟨nearestEven (x / spacing bits x), Int.log 2 |x| + 1 - bits, ?_, rfl⟩
  have bound := abs_div_spacing_lt bits x
  rw [← abs_div_spacing, abs_lt] at bound
  rw [abs_le]
  constructor
  · exact le_nearestEven (by push_cast; exact bound.1.le)
  · exact nearestEven_le (by push_cast; exact bound.2.le)

theorem Fits.nearest_eq {bits : ℕ} (some : 0 < bits) {x : K} (fits : Fits bits x) :
    nearest bits x = x := by
  rcases eq_or_ne x 0 with rfl | nonzero
  · exact nearest_zero bits
  · obtain ⟨m, e, bound, shape⟩ := fits.strict some
    have level : Int.log 2 |x| < bits + e := by
      rw [← Int.lt_zpow_iff_log_lt one_lt_two (abs_pos.mpr nonzero), shape, abs_mul,
        abs_of_pos (zpow_pos two_pos e : (0 : K) < 2 ^ e), Nat.cast_ofNat,
        zpow_add₀ two_ne_zero, zpow_natCast]
      exact mul_lt_mul_of_pos_right (by exact_mod_cast bound) (zpow_pos two_pos e)
    obtain ⟨shift, same⟩ := Int.eq_ofNat_of_zero_le
      (show 0 ≤ e - (Int.log 2 |x| + 1 - bits) by omega)
    have whole : x / spacing bits x = ((m * 2 ^ shift : ℤ) : K) := by
      rw [div_eq_iff (spacing_pos bits x).ne', spacing]
      push_cast
      rw [← zpow_natCast, ← same, mul_assoc, ← zpow_add₀ two_ne_zero, sub_add_cancel]
      exact shape
    rw [nearest, whole, nearestEven_intCast, ← whole, div_mul_cancel₀ _ (spacing_pos bits x).ne']

/-!
## Order
-/

theorem nearest_nonneg (bits : ℕ) {x : K} (nonneg : 0 ≤ x) : 0 ≤ nearest bits x := by
  refine mul_nonneg ?_ (spacing_pos bits x).le
  exact_mod_cast le_nearestEven (by push_cast; exact div_nonneg nonneg (spacing_pos bits x).le)

theorem zpow_log_le_nearest {bits : ℕ} (some : 0 < bits) {x : K} (positive : 0 < x) :
    2 ^ Int.log 2 x ≤ nearest bits x := by
  have lower := le_abs_div_spacing bits positive.ne'
  have power : (2 : K) ^ ((bits : ℤ) - 1) = ((2 ^ (bits - 1) : ℤ) : K) := by
    push_cast
    rw [← zpow_natCast]
    congr 1
    omega
  have rounded : (2 : K) ^ ((bits : ℤ) - 1) ≤ nearestEven (x / spacing bits x) := by
    rw [power]
    rw [abs_of_pos positive, power] at lower
    exact_mod_cast le_nearestEven lower
  calc
    (2 : K) ^ Int.log 2 x = 2 ^ ((bits : ℤ) - 1) * spacing bits x := by
      rw [spacing, abs_of_pos positive, ← zpow_add₀ two_ne_zero]
      congr 1
      ring
    _ ≤ nearest bits x := mul_le_mul_of_nonneg_right rounded (spacing_pos bits x).le

theorem nearest_le_zpow_log (bits : ℕ) {x : K} (positive : 0 < x) :
    nearest bits x ≤ 2 ^ (Int.log 2 x + 1) := by
  have upper := abs_div_spacing_lt bits x
  rw [abs_of_pos positive] at upper
  have rounded : (nearestEven (x / spacing bits x) : K) ≤ 2 ^ bits := by
    exact_mod_cast nearestEven_le (by push_cast; exact upper.le)
  calc
    nearest bits x ≤ 2 ^ bits * spacing bits x :=
      mul_le_mul_of_nonneg_right rounded (spacing_pos bits x).le
    _ = 2 ^ (Int.log 2 x + 1) := by
      rw [spacing, abs_of_pos positive, ← zpow_natCast, ← zpow_add₀ two_ne_zero]
      congr 1
      ring

theorem nearest_mono_of_pos {bits : ℕ} (some : 0 < bits) {x y : K} (positive : 0 < x)
    (order : x ≤ y) : nearest bits x ≤ nearest bits y := by
  have above := positive.trans_le order
  rcases (Int.log_mono_right (b := 2) positive order).lt_or_eq with less | same
  · calc
      nearest bits x ≤ 2 ^ (Int.log 2 x + 1) := nearest_le_zpow_log bits positive
      _ ≤ 2 ^ Int.log 2 y := zpow_le_zpow_right₀ one_le_two less
      _ ≤ nearest bits y := zpow_log_le_nearest some above
  · have spread : spacing bits x = spacing bits y := by
      rw [spacing, spacing, abs_of_pos positive, abs_of_pos above, same]
    rw [nearest, nearest, spread]
    refine mul_le_mul_of_nonneg_right ?_ (spacing_pos bits y).le
    exact_mod_cast nearestEven_mono (div_le_div_of_nonneg_right order (spacing_pos bits y).le)

theorem nearest_mono {bits : ℕ} (some : 0 < bits) {x y : K} (order : x ≤ y) :
    nearest bits x ≤ nearest bits y := by
  rcases lt_or_ge 0 x with positive | left
  · exact nearest_mono_of_pos some positive order
  · have below : nearest bits x ≤ 0 := by
      rw [← neg_nonneg, ← nearest_neg]
      exact nearest_nonneg bits (neg_nonneg.mpr left)
    rcases le_or_gt 0 y with right | negative
    · exact below.trans (nearest_nonneg bits right)
    · have mirrored := nearest_mono_of_pos some (neg_pos.mpr negative) (neg_le_neg order)
      rw [nearest_neg, nearest_neg] at mirrored
      exact neg_le_neg_iff.mp mirrored

theorem Fits.nearest_le {bits : ℕ} (some : 0 < bits) {x y : K} (fits : Fits bits y)
    (bound : x ≤ y) : nearest bits x ≤ y :=
  (nearest_mono some bound).trans_eq (fits.nearest_eq some)

theorem Fits.le_nearest {bits : ℕ} (some : 0 < bits) {x y : K} (fits : Fits bits x)
    (bound : x ≤ y) : x ≤ nearest bits y :=
  (fits.nearest_eq some).symm.trans_le (nearest_mono some bound)

/-!
## The error
-/

theorem abs_nearest_sub_le (bits : ℕ) (x : K) : |nearest bits x - x| ≤ spacing bits x / 2 := by
  have positive := spacing_pos bits x
  have shape : nearest bits x - x =
      (nearestEven (x / spacing bits x) - x / spacing bits x) * spacing bits x := by
    rw [nearest, sub_mul, div_mul_cancel₀ _ positive.ne']
  rw [shape, abs_mul, abs_of_pos positive]
  have half := mul_le_mul_of_nonneg_right (abs_nearestEven_sub_le (x / spacing bits x)) positive.le
  linarith

/-- The error relative to the magnitude is at most one half in the last of the bits. -/
theorem abs_nearest_sub_le_mul (bits : ℕ) (x : K) : |nearest bits x - x| ≤ |x| / 2 ^ bits := by
  rcases eq_or_ne x 0 with rfl | nonzero
  · simp
  · have positive := spacing_pos bits x
    have lower := le_abs_div_spacing bits nonzero
    rw [le_div_iff₀ positive, zpow_sub_one₀ two_ne_zero, zpow_natCast] at lower
    refine (abs_nearest_sub_le bits x).trans ?_
    rw [div_le_div_iff₀ two_pos (pow_pos two_pos bits)]
    linarith

theorem abs_nearest_sub_le_of_lt (bits : ℕ) {x : K} {e : ℤ} (bound : |x| < 2 ^ e) :
    |nearest bits x - x| ≤ 2 ^ (e - bits) / 2 := by
  rcases eq_or_ne x 0 with rfl | nonzero
  · rw [nearest_zero, sub_zero, abs_zero]
    exact (half_pos (zpow_pos two_pos _)).le
  · have level := (Int.lt_zpow_iff_log_lt (b := 2) one_lt_two (x := e) (abs_pos.mpr nonzero)).mp
      (by exact_mod_cast bound)
    refine (abs_nearest_sub_le bits x).trans (div_le_div_of_nonneg_right ?_ two_pos.le)
    exact zpow_le_zpow_right₀ one_le_two (by omega)

theorem abs_nearest_sub_le_of_le {bits : ℕ} (some : 0 < bits) {x : K} {e : ℤ}
    (bound : |x| ≤ 2 ^ e) : |nearest bits x - x| ≤ 2 ^ (e - bits) / 2 := by
  rcases bound.lt_or_eq with below | power
  · exact abs_nearest_sub_le_of_lt bits below
  · have fits : Fits bits x := by
      have one : |(1 : ℤ)| ≤ 2 ^ bits := one_le_pow₀ one_le_two
      have value : Fits bits ((2 : K) ^ e) := ⟨1, e, one, by simp⟩
      rcases (abs_eq (zpow_pos two_pos e).le).mp power with same | mirrored
      · rwa [same]
      · rw [mirrored]
        exact value.neg
    rw [fits.nearest_eq some, sub_self, abs_zero]
    exact (half_pos (zpow_pos two_pos _)).le

/-!
## Values
-/

/-- Above a power of two the values lie on a grid. -/
theorem Fits.grid {bits : ℕ} (some : 0 < bits) {x : K} (fits : Fits bits x) {e : ℤ}
    (large : 2 ^ e ≤ |x|) : ∃ n : ℤ, x = n * 2 ^ (e + 1 - bits) := by
  obtain ⟨m, place, bound, shape⟩ := fits.strict some
  have level : e < bits + place := by
    have below : |x| < 2 ^ ((bits : ℤ) + place) := by
      rw [shape, abs_mul, abs_of_pos (zpow_pos two_pos place : (0 : K) < 2 ^ place),
        zpow_add₀ two_ne_zero, zpow_natCast]
      exact mul_lt_mul_of_pos_right (by exact_mod_cast bound) (zpow_pos two_pos place)
    exact (zpow_lt_zpow_iff_right₀ one_lt_two).mp (large.trans_lt below)
  obtain ⟨shift, same⟩ := Int.eq_ofNat_of_zero_le (show 0 ≤ place - (e + 1 - bits) by omega)
  refine ⟨m * 2 ^ shift, ?_⟩
  push_cast
  rw [← zpow_natCast, ← same, mul_assoc, ← zpow_add₀ two_ne_zero, sub_add_cancel]
  exact shape

/-!
## Integers
-/

theorem log_natCast {n : ℕ} (nonzero : n ≠ 0) : Int.log 2 (n : K) = (n.size : ℤ) - 1 := by
  have positive : 0 < n := Nat.pos_of_ne_zero nonzero
  have above : (0 : K) < n := by exact_mod_cast positive
  have some : 0 < n.size := Nat.size_pos.mpr positive
  refine le_antisymm ?_ ?_
  · have upper := Nat.lt_size_self n
    have below : (n : K) < ((2 : ℕ) : K) ^ (n.size : ℤ) := by
      rw [zpow_natCast]
      exact_mod_cast upper
    have level := (Int.lt_zpow_iff_log_lt one_lt_two above).mp below
    omega
  · have lower : 2 ^ (n.size - 1) ≤ n := Nat.lt_size.mp (by omega)
    refine (Int.zpow_le_iff_le_log one_lt_two above).mp ?_
    rw [show (n.size : ℤ) - 1 = ((n.size - 1 : ℕ) : ℤ) by omega, zpow_natCast]
    exact_mod_cast lower

theorem spacing_natCast {bits n : ℕ} (long : bits < n.size) :
    spacing bits (n : K) = unit bits n := by
  have nonzero : n ≠ 0 := by
    rintro rfl
    simp at long
  rw [spacing, Nat.abs_cast, log_natCast nonzero, unit,
    show (n.size : ℤ) - 1 + 1 - bits = ((n.size - bits : ℕ) : ℤ) by omega, zpow_natCast]
  push_cast
  rfl

theorem nearestEven_div {n divisor quotient rest : ℕ}
    (shape : rest + divisor * quotient = n) (small : rest < divisor) :
    nearestEven ((n : K) / divisor) =
      if 2 * rest < divisor ∨ 2 * rest = divisor ∧ quotient % 2 = 0 then (quotient : ℤ)
      else quotient + 1 := by
  have positive : (0 : K) < divisor := by exact_mod_cast Nat.zero_lt_of_lt small
  have value : (n : K) / divisor = quotient + rest / divisor := by
    rw [← shape, div_eq_iff positive.ne']
    push_cast
    rw [add_mul, div_mul_cancel₀ _ positive.ne']
    ring
  have below : (rest : K) / divisor ≤ 1 := by
    rw [div_le_one positive]
    exact_mod_cast small.le
  have nonneg : (0 : K) ≤ rest / divisor := by positivity
  rw [value]
  split
  · next down =>
      have distance : |((quotient : ℤ) : K) - (quotient + rest / divisor)| = rest / divisor := by
        rw [Int.cast_natCast, sub_add_cancel_left, abs_neg, abs_of_nonneg nonneg]
      refine nearestEven_eq ?_ ?_
      · rw [distance, div_le_div_iff₀ positive two_pos]
        exact_mod_cast (by omega : rest * 2 ≤ 1 * divisor)
      · intro tie
        rw [distance, div_eq_div_iff positive.ne' two_ne_zero] at tie
        have half : rest * 2 = 1 * divisor := by exact_mod_cast tie
        omega
  · next up =>
      have distance : |((quotient + 1 : ℤ) : K) - (quotient + rest / divisor)| =
          1 - rest / divisor := by
        rw [Int.cast_add, Int.cast_natCast, Int.cast_one, add_sub_add_left_eq_sub,
          abs_of_nonneg (by linarith)]
      refine nearestEven_eq ?_ ?_
      · rw [distance, sub_le_iff_le_add, ← sub_le_iff_le_add', le_div_iff₀ positive]
        have half : divisor ≤ 2 * rest := by omega
        have cast : (divisor : K) ≤ 2 * rest := by exact_mod_cast half
        linarith
      · intro tie
        rw [distance, sub_eq_iff_eq_add, ← sub_eq_iff_eq_add', eq_div_iff positive.ne'] at tie
        have cast : (divisor : K) = 2 * rest := by linarith
        have half : divisor = 2 * rest := by exact_mod_cast cast
        omega

theorem nearest_natCast {bits : ℕ} (some : 0 < bits) (n : ℕ) :
    nearest bits (n : K) = roundNat bits n := by
  rcases Nat.lt_or_ge bits n.size with long | short
  · rw [nearest, spacing_natCast long, roundNat,
      nearestEven_div (Nat.mod_add_div n (unit bits n)) (Nat.mod_lt n (unit_pos bits n))]
    split
    · rw [Int.cast_natCast, Nat.cast_mul]
    · rw [Int.cast_add, Int.cast_natCast, Int.cast_one, Nat.cast_mul, Nat.cast_add, Nat.cast_one]
  · have bound : n < 2 ^ bits := Nat.size_le.mp short
    rw [roundNat_of_lt bound]
    have fits : Fits bits ((n : ℤ) : K) := fits_intCast (by
      rw [Nat.abs_cast]
      exact_mod_cast bound.le)
    rw [Int.cast_natCast] at fits
    exact fits.nearest_eq some

theorem nearest_intCast {bits : ℕ} (some : 0 < bits) (n : ℤ) :
    nearest bits (n : K) = round bits n := by
  rw [round]
  split
  · next sign =>
      obtain ⟨m, rfl⟩ := Int.eq_ofNat_of_zero_le sign
      exact_mod_cast nearest_natCast (K := K) some m
  · next sign =>
      obtain ⟨m, same⟩ := Int.eq_ofNat_of_zero_le (show 0 ≤ -n by omega)
      obtain rfl : n = -m := by omega
      rw [Int.cast_neg, nearest_neg, Int.natAbs_neg]
      exact_mod_cast congrArg Neg.neg (nearest_natCast (K := K) some m)

end Libpreempt.Arithmetic
