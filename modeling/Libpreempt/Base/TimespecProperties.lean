import Mathlib.Data.Nat.GCD.Basic
import Libpreempt.Base.Timespec

/-! Nanoseconds to `timespec` and back, and the other way round. -/

set_option autoImplicit false

namespace Libpreempt.Base

open Libpreempt.Arithmetic

/-!
## The product with 10⁹
-/

/-- Nine factors of two of 10⁹ absorb the rounding, and one more of even seconds. -/
theorem unit_dvd_seconds_iff {seconds : Nat} (bound : seconds ≤ 9223372036) :
    unit 53 (seconds * 1000000000) ∣ seconds * 1000000000 ↔
      2 ∣ seconds ∨ seconds ≤ 4611686018 := by
  have shape : seconds * 1000000000 = 2 ^ 9 * (seconds * 1953125) :=
    (Nat.mul_left_comm (2 ^ 9) seconds 1953125).symm
  by_cases small : seconds ≤ 4611686018
  · exact iff_of_true (unit_dvd_of_dvd 9 ⟨_, shape⟩ (by omega)) (.inr small)
  · have factors : 2 ^ 10 ∣ seconds * 1000000000 ↔ 2 ∣ seconds := by
      have odd : Nat.Coprime 2 1953125 := by decide
      rw [shape, Nat.pow_succ, Nat.mul_dvd_mul_iff_left (Nat.two_pow_pos 9),
        Nat.Coprime.dvd_mul_right odd]
    have lower : 2 ^ (53 + 9) ≤ seconds * 1000000000 := by omega
    have upper : seconds * 1000000000 < 2 ^ (53 + 10) := by omega
    rw [or_iff_left small, ← factors]
    exact ⟨fun whole => dvd_of_unit_dvd 9 whole lower, fun even => unit_dvd_of_dvd 10 even upper⟩

theorem toDouble_product_iff {seconds : Int} (bound : seconds.natAbs ≤ 9223372036) :
    toDouble (seconds * 1000000000) = seconds * 1000000000 ↔
      2 ∣ seconds ∨ seconds.natAbs ≤ 4611686018 := by
  have parity : 2 ∣ seconds ↔ 2 ∣ seconds.natAbs := by omega
  rw [toDouble, round_eq_self_iff, Representable, Int.natAbs_mul, parity]
  exact unit_dvd_seconds_iff bound

theorem toDouble_of_seconds {seconds : Int} (bound : seconds.natAbs ≤ 9223372036) :
    toDouble seconds = seconds :=
  round_eq_self_iff.mpr (representable_of_lt (by omega))

theorem roundToInt64_seconds (seconds : Int) :
    roundToInt64 (toDouble (seconds * 1000000000)) =
      toInt64 (toDouble (seconds * 1000000000)) :=
  roundToNearest_even _ (even_round (Int.dvd_trans (by decide) (Int.dvd_mul_left ..)))
    (toDouble_toDouble _)

theorem timespecToNsec_eq_some_iff {ts : Timespec} {ns : Nsec}
    (bound : ts.tvSec.toInt.natAbs ≤ 9223372036) :
    timespecToNsec ts = some ns ↔
      ∃ seconds : Int64, toDouble (ts.tvSec.toInt * 1000000000) = seconds.toInt ∧
        seconds.toInt + ts.tvNsec.toInt = ns.toInt := by
  simp only [timespecToNsec, toDouble_of_seconds bound, roundToInt64_seconds,
    Option.bind_eq_bind, Option.bind_eq_some_iff, toInt64_eq_some_iff]

/-!
## Splitting nanoseconds
-/

theorem toInt_nsecToTimespec (ns : Nsec) :
    (nsecToTimespec ns).tvSec.toInt = ns.toInt.tdiv 1000000000 ∧
    (nsecToTimespec ns).tvNsec.toInt = ns.toInt.tmod 1000000000 :=
  ⟨Int64.toInt_div_of_ne_right ns 1000000000 (by decide), Int64.toInt_mod ns 1000000000⟩

theorem nsecToTimespec_eq_iff {ns : Nsec} {ts : Timespec} :
    nsecToTimespec ns = ts ↔
      ns.toInt.tdiv 1000000000 = ts.tvSec.toInt ∧ ns.toInt.tmod 1000000000 = ts.tvNsec.toInt := by
  obtain ⟨seconds, nanoseconds⟩ := toInt_nsecToTimespec ns
  rw [← seconds, ← nanoseconds, Int64.toInt_inj, Int64.toInt_inj]
  constructor
  · rintro rfl
    exact ⟨rfl, rfl⟩
  · intro same
    cases ts
    exact congrArg₂ Timespec.mk same.1 same.2

theorem seconds_bound (ns : Nsec) :
    (ns.toInt.tdiv 1000000000).natAbs ≤ 9223372036 ∧
    -2 ^ 63 ≤ ns.toInt.tdiv 1000000000 * 1000000000 ∧
      ns.toInt.tdiv 1000000000 * 1000000000 < 2 ^ 63 := by
  have lower := ns.le_toInt
  have upper := ns.toInt_lt
  have quotient : (ns.toInt.tdiv 1000000000).natAbs = ns.toInt.natAbs / 1000000000 :=
    Int.natAbs_tdiv ..
  omega

/-!
## Round trips
-/

/-- The law of the nanoseconds holds where the seconds are even or below 2⁶² nanoseconds. -/
theorem nsec_round_trip_iff (ns : Nsec) :
    timespecToNsec (nsecToTimespec ns) = some ns ↔
      2 ∣ ns.toInt.tdiv 1000000000 ∨ (ns.toInt.tdiv 1000000000).natAbs ≤ 4611686018 := by
  obtain ⟨whole, rest⟩ := toInt_nsecToTimespec ns
  obtain ⟨bound, fits⟩ := seconds_bound ns
  have split := Int.tdiv_mul_add_tmod ns.toInt 1000000000
  rw [timespecToNsec_eq_some_iff (by rw [whole]; exact bound), whole, rest,
    ← toDouble_product_iff bound]
  constructor
  · rintro ⟨seconds, product, total⟩
    omega
  · intro exactly
    obtain ⟨seconds, -, same⟩ := toInt64_of_range fits.1 fits.2
    exact ⟨seconds, by rw [exactly, same], by rw [same, split]⟩

theorem nsec_round_trip_odd_seconds :
    ∃ result, timespecToNsec (nsecToTimespec 4611686019000000000) = some result ∧
      result ≠ 4611686019000000000 :=
  ⟨4611686019000000512, by decide⟩

theorem truncate_sum_iff {seconds rest : Int} (normalised : 0 ≤ rest ∧ rest < 1000000000) :
    (seconds * 1000000000 + rest).tdiv 1000000000 = seconds ∧
        (seconds * 1000000000 + rest).tmod 1000000000 = rest ↔
      0 ≤ seconds ∨ rest = 0 := by
  by_cases sign : 0 ≤ seconds
  · rw [Int.tdiv_tmod_unique (by omega) (by decide)]
    omega
  · rw [Int.tdiv_tmod_unique' (by omega) (by decide)]
    omega

/-- A negative total that is not whole seconds leaves a negative remainder. -/
theorem eq_of_normalised {ts : Timespec} {ns : Nsec} (normalised : ts.Normalised)
    (total : ns.toInt = ts.tvSec.toInt * 1000000000 + ts.tvNsec.toInt)
    (result : (nsecToTimespec ns).Normalised) : nsecToTimespec ns = ts := by
  obtain ⟨whole, rest⟩ := toInt_nsecToTimespec ns
  have split := Int.tdiv_mul_add_tmod ns.toInt 1000000000
  rw [Timespec.Normalised, rest] at result
  rw [Timespec.Normalised] at normalised
  rw [nsecToTimespec_eq_iff]
  omega

theorem timespecToNsec_of_small {ts : Timespec} (normalised : ts.Normalised)
    (bound : ts.tvSec.toInt.natAbs ≤ 4000000000) :
    ∃ ns, timespecToNsec ts = some ns ∧
      ns.toInt = ts.tvSec.toInt * 1000000000 + ts.tvNsec.toInt := by
  obtain ⟨lower, upper⟩ := normalised
  have small : ts.tvSec.toInt.natAbs ≤ 9223372036 := by omega
  have product := (toDouble_product_iff small).mpr (.inr (by omega))
  obtain ⟨seconds, -, same⟩ := toInt64_of_range (n := ts.tvSec.toInt * 1000000000)
    (by omega) (by omega)
  obtain ⟨ns, -, total⟩ := toInt64_of_range
    (n := ts.tvSec.toInt * 1000000000 + ts.tvNsec.toInt) (by omega) (by omega)
  refine ⟨ns, (timespecToNsec_eq_some_iff small).mpr ⟨seconds, ?_, ?_⟩, total⟩
  · rw [product, same]
  · rw [same, total]

/-- A normalised time comes back, and comes back normalised, unless it is negative with a
fraction of a second: the truncated remainder of such a total is negative. -/
theorem timespec_round_trip_iff (ts : Timespec) (normalised : ts.Normalised)
    (bound : ts.tvSec.toInt.natAbs ≤ 4000000000) :
    ((timespecToNsec ts).map nsecToTimespec = some ts ↔
      0 ≤ ts.tvSec.toInt ∨ ts.tvNsec.toInt = 0) ∧
    ((∃ result, (timespecToNsec ts).map nsecToTimespec = some result ∧ result.Normalised) ↔
      0 ≤ ts.tvSec.toInt ∨ ts.tvNsec.toInt = 0) := by
  obtain ⟨ns, encoded, total⟩ := timespecToNsec_of_small normalised bound
  have same : nsecToTimespec ns = ts ↔ 0 ≤ ts.tvSec.toInt ∨ ts.tvNsec.toInt = 0 := by
    rw [nsecToTimespec_eq_iff, total]
    exact truncate_sum_iff normalised
  simp only [encoded, Option.map_some, Option.some_inj, exists_eq_left']
  refine ⟨same, Iff.trans ⟨eq_of_normalised normalised total, ?_⟩ same⟩
  intro back
  rw [back]
  exact normalised

theorem timespec_round_trip_iff_half :
    ((timespecToNsec { tvSec := 1, tvNsec := 500000000 }).map nsecToTimespec =
      some { tvSec := 1, tvNsec := 500000000 } ↔
        0 ≤ Int64.toInt 1 ∨ Int64.toInt 500000000 = 0) ∧
    ((∃ result, (timespecToNsec { tvSec := 1, tvNsec := 500000000 }).map nsecToTimespec =
      some result ∧ result.Normalised) ↔
        0 ≤ Int64.toInt 1 ∨ Int64.toInt 500000000 = 0) :=
  timespec_round_trip_iff { tvSec := 1, tvNsec := 500000000 } (by decide) (by decide)

theorem timespec_round_trip_negative :
    ∃ result,
      (timespecToNsec { tvSec := -1, tvNsec := 500000000 }).map nsecToTimespec = some result ∧
      result ≠ { tvSec := -1, tvNsec := 500000000 } ∧ ¬result.Normalised :=
  ⟨{ tvSec := 0, tvNsec := -500000000 }, by decide⟩

end Libpreempt.Base
