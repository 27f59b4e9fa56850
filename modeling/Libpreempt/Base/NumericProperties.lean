import Libpreempt.Base.Numeric

/-! Where `round_to_nearest` leaves whole numbers as they are. -/

set_option autoImplicit false

namespace Libpreempt.Base

open Libpreempt.Arithmetic

theorem toDouble_half_div_eq_iff {n : Int} (short : Representable 53 n) :
    toDouble (2 * n + 1) / 2 = n ↔ 2 ∣ n ∨ n.natAbs < 2 ^ 52 :=
  round_half_div_eq_iff (by decide) short

/-- An odd number of 53 significant bits is rounded to the even number above. -/
theorem roundToNearest_odd {ReturnT : Type} (staticCast : Int → Option ReturnT) {n : Int}
    (odd : ¬ 2 ∣ n) (short : Representable 53 n) (large : 2 ^ 52 ≤ n.natAbs) :
    roundToNearest staticCast n = staticCast (n + 1) := by
  rw [roundToNearest, toDouble, round_half_div_of_odd (by decide) odd short, if_neg (by omega)]

theorem round_to_int64_eq_iff (n : Int) (bound : n.natAbs < 2 ^ 63)
    (short : Representable 53 n) :
    (roundToInt64 n).map Int64.toInt = some n ↔ 2 ∣ n ∨ n.natAbs < 2 ^ 52 := by
  rw [← toDouble_half_div_eq_iff short, roundToInt64, roundToNearest]
  constructor
  · intro returned
    obtain ⟨result, cast, same⟩ := Option.map_eq_some_iff.mp returned
    rw [toInt64_eq_some_iff.mp cast, same]
  · intro exactly
    obtain ⟨result, cast, same⟩ := toInt64_of_range (n := n) (by omega) (by omega)
    rw [exactly, cast, Option.map_some, same]

theorem round_to_int64_eq_iff_seven :
    (roundToInt64 7).map Int64.toInt = some 7 :=
  (round_to_int64_eq_iff 7 (by decide) (by decide)).mpr (.inr (by decide))

theorem round_to_int64_odd :
    Representable 53 4503599627370497 ∧
      (roundToInt64 4503599627370497).map Int64.toInt = some 4503599627370498 ∧
      (roundToInt64 4503599627370497).map Int64.toInt ≠ some 4503599627370497 := by
  have odd : ¬ 2 ∣ (4503599627370497 : Int) := by decide
  have short : Representable 53 4503599627370497 := representable_of_lt (by decide)
  have rounded : roundToInt64 4503599627370497 = some 4503599627370498 := by
    rw [roundToInt64, roundToNearest_odd toInt64 odd short (by decide)]
    decide
  rw [rounded]
  exact ⟨short, rfl, by decide⟩

end Libpreempt.Base
