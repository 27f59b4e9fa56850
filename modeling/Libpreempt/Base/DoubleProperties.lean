import Libpreempt.Arithmetic.HalfUp
import Libpreempt.Base.Double
import Libpreempt.Base.NumericProperties

/-! Where rounding to a `double` shows in the integers and the times that
`base/numeric.h` and `base/chrono.h` compute. -/

set_option autoImplicit false

namespace Libpreempt.Base

open Libpreempt.Arithmetic

namespace Double

@[simp] theorem value_round (x : ℚ) : (round x).value = nearest 53 x := rfl

theorem value_add (a b : Double) : (a + b).value = nearest 53 (a.value + b.value) := rfl

theorem value_sub (a b : Double) : (a - b).value = nearest 53 (a.value - b.value) := rfl

theorem value_mul (a b : Double) : (a * b).value = nearest 53 (a.value * b.value) := rfl

theorem value_div (a b : Double) : (a / b).value = nearest 53 (a.value / b.value) := rfl

theorem value_ofInt {n : Int} (bound : |n| ≤ 2 ^ 53) : (ofInt n).value = n :=
  (fits_intCast bound).nearest_eq (by decide)

@[simp] theorem value_half : half.value = 1 / 2 := by
  have fits : Fits 53 (1 / 2 : ℚ) := ⟨1, -1, by norm_num, by norm_num⟩
  exact fits.nearest_eq (by decide)

@[simp] theorem value_epsilon : epsilon.value = 2 ^ (-52 : Int) := by
  have fits : Fits 53 (2 ^ (-52 : Int) : ℚ) := ⟨1, -52, by norm_num, by norm_num⟩
  exact fits.nearest_eq (by decide)

@[simp] theorem value_fabs (a : Double) : (fabs a).value = |a.value| := rfl

theorem value_fmax (a b : Double) : (fmax a b).value = max a.value b.value := by
  rw [fmax]
  split
  · next less => exact (max_eq_right less).symm
  · next more => exact (max_eq_left (not_le.mp more).le).symm

/-!
## Rounding to an integer
-/

theorem roundToNearest_eq {ReturnT : Type} (staticCast : Int → Option ReturnT) (n : Double) :
    n.roundToNearest staticCast = staticCast ⌊nearest 53 (n.value + 1 / 2)⌋ := by
  rw [roundToNearest, value_add, value_half]

/-- At an integer this is the function of whole numbers. -/
theorem roundToNearest_of_whole {ReturnT : Type} (staticCast : Int → Option ReturnT)
    {n : Double} {m : Int} (whole : n.value = m) :
    n.roundToNearest staticCast = Base.roundToNearest staticCast m := by
  rw [roundToNearest_eq, whole, floor_half_intCast, Base.roundToNearest, toDouble]

theorem value_ofInt_eq (n : Int) : (ofInt n).value = toDouble n :=
  nearest_intCast (by decide) n

theorem timespecToNsec_eq (ts : Timespec) :
    timespecToNsec ts = (ofInt ts.tvSec.toInt * ofInt 1000000000).roundToInt64.bind
      fun seconds => toInt64 (seconds.toInt + ts.tvNsec.toInt) := by
  have product : (ofInt ts.tvSec.toInt * ofInt 1000000000).value =
      toDouble (toDouble ts.tvSec.toInt * 1000000000) := by
    rw [value_mul, value_ofInt_eq, value_ofInt (by norm_num), ← Int.cast_mul,
      nearest_intCast (by decide)]
    rfl
  rw [roundToInt64, roundToNearest_of_whole toInt64 product]
  rfl

/-- The result is the floor of the exact sum for every `double` but the one just below one
half and the odd integers from 2⁵² on. -/
theorem round_to_nearest_iff (n : Double) :
    (∀ {ReturnT : Type} (staticCast : Int → Option ReturnT),
      n.roundToNearest staticCast = staticCast ⌊n.value + 1 / 2⌋) ↔
      n.value ≠ 1 / 2 - 2 ^ (-54 : Int) ∧
        ∀ m : Int, n.value = m → 2 ∣ m ∨ m.natAbs < 2 ^ 52 := by
  have law := floor_nearest_half_iff (p := 52) (by decide) n.fits
  rw [show -((52 : ℕ) : Int) - 2 = -54 by norm_num] at law
  rw [← law]
  constructor
  · intro rounds
    have same := rounds some
    rw [roundToNearest_eq] at same
    exact Option.some.inj same
  · intro same ReturnT staticCast
    rw [roundToNearest_eq, same]

/-!
## Order
-/

theorem mul_mono {a b factor : Double} (nonneg : 0 ≤ factor.value) (order : a.value ≤ b.value) :
    (a * factor).value ≤ (b * factor).value :=
  nearest_mono (by decide) (mul_le_mul_of_nonneg_right order nonneg)

theorem floor_half_mono {a b : Double} (order : a.value ≤ b.value) :
    ⌊(a + half).value⌋ ≤ ⌊(b + half).value⌋ :=
  Int.floor_le_floor (nearest_mono (by decide) (add_le_add_left order _))

/-- Results are in the order of the arguments, and defined between defined ones. -/
structure KeepsOrder (convert : Double → Option Nsec) : Prop where
  mono : ∀ {a b : Double} {left right : Nsec}, a.value ≤ b.value → convert a = some left →
    convert b = some right → left.toInt ≤ right.toInt
  between : ∀ {a b c : Double} {left right : Nsec}, a.value ≤ b.value → b.value ≤ c.value →
    convert a = some left → convert c = some right → ∃ middle, convert b = some middle

theorem keepsOrder_of_mono {scale : Double → Double}
    (mono : ∀ {a b : Double}, a.value ≤ b.value → (scale a).value ≤ (scale b).value) :
    KeepsOrder fun n => roundToInt64 (scale n) where
  mono order first second := by
    have floors := floor_half_mono (mono order)
    rwa [toInt64_eq_some_iff.mp first, toInt64_eq_some_iff.mp second] at floors
  between {a b c left right} lower upper first second := by
    have below := floor_half_mono (mono lower)
    have above := floor_half_mono (mono upper)
    rw [toInt64_eq_some_iff.mp first] at below
    rw [toInt64_eq_some_iff.mp second] at above
    obtain ⟨middle, found, _⟩ := toInt64_of_range (left.le_toInt.trans below)
      (above.trans_lt right.toInt_lt)
    exact ⟨middle, found⟩

theorem keepsOrder_scaled {factor : Int} (nonneg : 0 ≤ factor) (bound : factor ≤ 2 ^ 53) :
    KeepsOrder fun n => roundToInt64 (n * ofInt factor) := by
  refine keepsOrder_of_mono fun order => mul_mono ?_ order
  rw [value_ofInt (by rwa [abs_of_nonneg nonneg])]
  exact_mod_cast nonneg

/-- No conversion of a later time gives an earlier one. -/
theorem to_nsec_keeps_order :
    KeepsOrder roundToInt64 ∧ KeepsOrder secToNsec ∧ KeepsOrder msecToNsec ∧
      KeepsOrder usecToNsec :=
  ⟨keepsOrder_of_mono id, keepsOrder_scaled (by decide) (by decide),
    keepsOrder_scaled (by decide) (by decide), keepsOrder_scaled (by decide) (by decide)⟩

/-!
## Nanoseconds to a fraction and back
-/

/-- The quotient is off by less than a quarter of a nanosecond, counted in nanoseconds. -/
theorem abs_quotient_sub_lt {n divisor : Int} {digits : ℕ} (few : digits ≤ 52)
    (positive : 0 < divisor) (short : divisor < 2 ^ digits)
    (bound : |n| ≤ 2 ^ (52 - digits) * divisor) :
    |nearest 53 ((n : ℚ) / divisor) * divisor - n| < 1 / 4 := by
  have above : (0 : ℚ) < divisor := by exact_mod_cast positive
  have quotient : |(n : ℚ) / divisor| ≤ 2 ^ (52 - digits : Int) := by
    rw [abs_div, abs_of_pos above, div_le_iff₀ above, show (52 - digits : Int) =
      ((52 - digits : ℕ) : Int) by omega, zpow_natCast]
    exact_mod_cast bound
  have error : |nearest 53 ((n : ℚ) / divisor) - n / divisor| ≤ _ :=
    abs_nearest_sub_le_of_le (by decide) quotient
  have shape : nearest 53 ((n : ℚ) / divisor) * divisor - n =
      (nearest 53 ((n : ℚ) / divisor) - n / divisor) * divisor := by
    rw [sub_mul, div_mul_cancel₀ _ above.ne']
  rw [shape, abs_mul, abs_of_pos above]
  have width : (2 : ℚ) ^ (52 - (digits : Int) - (53 : ℕ)) / 2 * 2 ^ digits = 1 / 4 := by
    rw [← zpow_natCast, div_mul_eq_mul_div, ← zpow_add₀ two_ne_zero]
    push_cast
    rw [show 52 - (digits : Int) - 53 + digits = -1 by ring]
    norm_num
  calc
    |nearest 53 ((n : ℚ) / divisor) - n / divisor| * divisor ≤
        2 ^ (52 - (digits : Int) - (53 : ℕ)) / 2 * divisor :=
      mul_le_mul_of_nonneg_right error above.le
    _ < 2 ^ (52 - (digits : Int) - (53 : ℕ)) / 2 * 2 ^ digits := by
      refine mul_lt_mul_of_pos_left ?_ (half_pos (zpow_pos two_pos _))
      exact_mod_cast short
    _ = 1 / 4 := width

theorem floor_half_of_near {z : Double} {n : Int} (small : n.natAbs < 2 ^ 52)
    (near : |z.value - n| < 1 / 2) (zero : n = 0 → z.value = 0) : ⌊(z + half).value⌋ = n := by
  obtain ⟨lower, upper⟩ := abs_lt.mp near
  have floor : ⌊z.value + 1 / 2⌋ = n := by
    rw [Int.floor_eq_iff]
    constructor
    · linarith
    · linarith
  have law := (floor_nearest_half_iff (p := 52) (by decide) z.fits).mpr
  rw [value_add, value_half, law, floor]
  constructor
  · intro same
    have tiny : (2 : ℚ) ^ (-((52 : ℕ) : Int) - 2) = 1 / 18014398509481984 := by norm_num
    rw [tiny] at same
    have none : n = 0 := by
      have above : (-1 : ℚ) < n := by linarith
      have below : (n : ℚ) < 1 := by linarith
      have left : -1 < n := by exact_mod_cast above
      have right : n < 1 := by exact_mod_cast below
      omega
    rw [zero none] at same
    norm_num at same
  · intro m whole
    rw [whole] at lower upper
    have left : (m : ℚ) < ((n + 1 : Int) : ℚ) := by
      push_cast
      linarith
    have right : ((n - 1 : Int) : ℚ) < m := by
      push_cast
      linarith
    rw [Int.cast_lt] at left right
    exact .inr (by omega)

/-- As long as the quotient has few enough bits before the point. -/
theorem scaled_round_trip {n : Nsec} {divisor : Int} (digits : ℕ) (few : digits ≤ 52)
    (positive : 0 < divisor) (short : divisor < 2 ^ digits)
    (bound : |n.toInt| ≤ 2 ^ (52 - digits) * divisor) :
    roundToInt64 (ofInt n.toInt / ofInt divisor * ofInt divisor) = some n := by
  have power : (2 : Int) ^ digits * 2 ^ (52 - digits) = 2 ^ 52 := by
    rw [← pow_add]
    congr 1
    omega
  have small : |n.toInt| < 2 ^ 52 := by
    calc
      |n.toInt| ≤ 2 ^ (52 - digits) * divisor := bound
      _ < 2 ^ (52 - digits) * 2 ^ digits := mul_lt_mul_of_pos_left short (by positivity)
      _ = 2 ^ 52 := by rw [mul_comm, power]
  have narrow : divisor ≤ 2 ^ 53 :=
    short.le.trans (pow_le_pow_right₀ one_le_two (by omega))
  have exactly : (ofInt n.toInt).value = n.toInt := value_ofInt (by omega)
  have factor : (ofInt divisor).value = divisor := value_ofInt (by rwa [abs_of_pos positive])
  have room : n.toInt.natAbs < 2 ^ 52 := by
    rw [Int.abs_eq_natAbs] at small
    exact_mod_cast small
  rw [roundToInt64, roundToNearest, floor_half_of_near room]
  · exact toInt64_eq_some_iff.mpr rfl
  · rw [value_mul, value_div, exactly, factor]
    have close := abs_quotient_sub_lt few positive short bound
    have inside : |nearest 53 ((n.toInt : ℚ) / divisor) * divisor| ≤ 2 ^ (52 : Int) := by
      have whole : |(n.toInt : ℚ)| ≤ 2 ^ 52 - 1 := by
        exact_mod_cast Int.le_sub_one_of_lt small
      have triangle := abs_sub_abs_le_abs_sub
        (nearest 53 ((n.toInt : ℚ) / divisor) * divisor) n.toInt
      rw [show (2 : ℚ) ^ (52 : Int) = 2 ^ 52 by norm_num]
      linarith
    have error : |nearest 53 (nearest 53 ((n.toInt : ℚ) / divisor) * divisor) - _| ≤ _ :=
      abs_nearest_sub_le_of_le (by decide) inside
    have triangle := abs_sub_le
      (nearest 53 (nearest 53 ((n.toInt : ℚ) / divisor) * divisor))
      (nearest 53 ((n.toInt : ℚ) / divisor) * divisor) n.toInt
    norm_num at error
    linarith
  · intro none
    rw [value_mul, value_div, exactly, none]
    simp

/-- More than 48 days of nanoseconds survive as a `double` of seconds, milliseconds or
microseconds. -/
theorem nsec_fraction_round_trip (n : Nsec) :
    (|n.toInt| ≤ 2 ^ 22 * 1000000000 → secToNsec (nsecToSec n) = some n) ∧
      (|n.toInt| ≤ 2 ^ 32 * 1000000 → msecToNsec (nsecToMsec n) = some n) ∧
      (|n.toInt| ≤ 2 ^ 42 * 1000 → usecToNsec (nsecToUsec n) = some n) :=
  ⟨scaled_round_trip 30 (by decide) (by decide) (by decide),
    scaled_round_trip 20 (by decide) (by decide) (by decide),
    scaled_round_trip 10 (by decide) (by decide) (by decide)⟩

theorem nsec_fraction_round_trip_day :
    secToNsec (nsecToSec 86400000000001) = some 86400000000001 :=
  (nsec_fraction_round_trip 86400000000001).1 (by decide)

end Double

end Libpreempt.Base
