import Libpreempt.Arithmetic.Significand

/-! `round_to_nearest` of `base/numeric.h` at arguments that are whole numbers.
A `double` has 53 significant bits. -/

set_option autoImplicit false

namespace Libpreempt.Base

open Libpreempt.Arithmetic

/-- The operations on `double` round to the nearest value, ties to even. -/
def toDouble (n : Int) : Int := round 53 n

/-- The conversion to `int64_t`; out of range it is undefined. -/
def toInt64 (n : Int) : Option Int64 :=
  if -2 ^ 63 ≤ n ∧ n < 2 ^ 63 then some (Int64.ofInt n) else none

/-- `static_cast<ReturnT>(std::floor(n + .5))`. The sum is counted in halves,
`2 * n + 1`, and the floor is the division by two. -/
def roundToNearest {ReturnT : Type} (staticCast : Int → Option ReturnT) (n : Int) :
    Option ReturnT :=
  staticCast (toDouble (2 * n + 1) / 2)

def roundToInt64 (n : Int) : Option Int64 := roundToNearest toInt64 n

theorem toInt64_eq_some_iff {n : Int} {result : Int64} :
    toInt64 n = some result ↔ n = result.toInt := by
  have lower := result.le_toInt
  have upper := result.toInt_lt
  rw [toInt64]
  split
  · next range =>
      rw [Option.some_inj, ← Int64.toInt_inj, Int64.toInt_ofInt_of_le range.1 range.2]
  · next outside =>
      constructor
      · exact fun absent => nomatch absent
      · rintro rfl
        exact absurd ⟨lower, upper⟩ outside

theorem toInt64_of_range {n : Int} (lower : -2 ^ 63 ≤ n) (upper : n < 2 ^ 63) :
    ∃ result, toInt64 n = some result ∧ result.toInt = n :=
  ⟨Int64.ofInt n, if_pos ⟨lower, upper⟩, Int64.toInt_ofInt_of_le lower upper⟩

theorem roundToNearest_even {ReturnT : Type} (staticCast : Int → Option ReturnT) {n : Int}
    (even : 2 ∣ n) (exactly : toDouble n = n) : roundToNearest staticCast n = staticCast n := by
  rw [roundToNearest, toDouble, round_half_div even (round_eq_self_iff.mp exactly)]

theorem toDouble_toDouble (n : Int) : toDouble (toDouble n) = toDouble n :=
  round_eq_self_iff.mpr (representable_round (by decide) n)

end Libpreempt.Base
