import Mathlib.Algebra.Group.Nat.Defs
import Mathlib.Algebra.Ring.Int.Defs
import Mathlib.Data.Nat.Size

/-! Rounding of integers to a number of significant bits, to the nearest and
ties to even, as binary floating point does where neither overflow nor
subnormal numbers come into play. -/

set_option autoImplicit false

namespace Libpreempt.Arithmetic

/-- The distance of neighbouring values at `n`. -/
def unit (bits n : Nat) : Nat := 2 ^ (n.size - bits)

def roundNat (bits n : Nat) : Nat :=
  let quotient := n / unit bits n
  let rest := n % unit bits n
  if 2 * rest < unit bits n ∨ 2 * rest = unit bits n ∧ quotient % 2 = 0 then
    quotient * unit bits n
  else (quotient + 1) * unit bits n

def round (bits : Nat) (n : Int) : Int :=
  if 0 ≤ n then roundNat bits n.natAbs else -roundNat bits n.natAbs

/-- `n` has at most `bits` significant bits. -/
def Representable (bits : Nat) (n : Int) : Prop := unit bits n.natAbs ∣ n.natAbs

instance (bits : Nat) (n : Int) : Decidable (Representable bits n) :=
  inferInstanceAs (Decidable (_ ∣ _))

theorem unit_pos (bits n : Nat) : 0 < unit bits n := Nat.two_pow_pos _

theorem unit_dvd_roundNat (bits n : Nat) : unit bits n ∣ roundNat bits n := by
  simp only [roundNat]
  split
  · exact Nat.dvd_mul_left ..
  · exact Nat.dvd_mul_left ..

theorem roundNat_eq_self_iff {bits n : Nat} : roundNat bits n = n ↔ unit bits n ∣ n := by
  constructor
  · intro same
    rw [← same]
    exact same.symm ▸ unit_dvd_roundNat bits n
  · intro whole
    have none : n % unit bits n = 0 := Nat.mod_eq_zero_of_dvd whole
    simp only [roundNat, none, Nat.mul_zero, unit_pos, true_or, if_true]
    exact Nat.div_mul_cancel whole

theorem round_eq_self_iff {bits : Nat} {n : Int} : round bits n = n ↔ Representable bits n := by
  rw [Representable, ← roundNat_eq_self_iff, round]
  split
  · omega
  · omega

/-!
## Representable integers
-/

theorem unit_dvd_of_dvd {bits n : Nat} (shift : Nat) (whole : 2 ^ shift ∣ n)
    (bound : n < 2 ^ (bits + shift)) : unit bits n ∣ n := by
  have size : n.size ≤ bits + shift := Nat.size_le.mpr bound
  exact Nat.dvd_trans (Nat.pow_dvd_pow 2 (by omega)) whole

theorem dvd_of_unit_dvd {bits n : Nat} (shift : Nat) (whole : unit bits n ∣ n)
    (bound : 2 ^ (bits + shift) ≤ n) : 2 ^ (shift + 1) ∣ n := by
  have size : bits + shift < n.size := Nat.lt_size.mpr bound
  exact Nat.dvd_trans (Nat.pow_dvd_pow 2 (by omega)) whole

theorem representable_of_lt {bits : Nat} {n : Int} (bound : n.natAbs < 2 ^ bits) :
    Representable bits n :=
  unit_dvd_of_dvd 0 (Nat.one_dvd _) bound

theorem div_unit_lt (bits n : Nat) : n / unit bits n < 2 ^ bits := by
  apply Nat.div_lt_of_lt_mul
  rw [unit, ← Nat.pow_add]
  exact Nat.lt_of_lt_of_le (Nat.lt_size_self n) (Nat.pow_le_pow_right Nat.two_pos (by omega))

theorem unit_dvd_of_mul {bits factor : Nat} (shift : Nat) (some : 0 < bits)
    (bound : factor ≤ 2 ^ bits) : unit bits (factor * 2 ^ shift) ∣ factor * 2 ^ shift := by
  by_cases full : factor = 2 ^ bits
  · have shape : factor * 2 ^ shift = 2 ^ (bits + shift) := by rw [full, Nat.pow_add]
    rw [shape]
    exact unit_dvd_of_dvd (shift + 1) (Nat.pow_dvd_pow 2 (by omega))
      (Nat.pow_lt_pow_right (by decide) (by omega))
  · apply unit_dvd_of_dvd shift (Nat.dvd_mul_left ..)
    rw [Nat.pow_add]
    exact Nat.mul_lt_mul_of_pos_right (Nat.lt_of_le_of_ne bound full) (Nat.two_pow_pos _)

theorem representable_round {bits : Nat} (some : 0 < bits) (n : Int) :
    Representable bits (round bits n) := by
  have magnitude : (round bits n).natAbs = roundNat bits n.natAbs := by
    rw [round]
    split
    · omega
    · omega
  have bound := div_unit_lt bits n.natAbs
  rw [Representable, magnitude, roundNat]
  split
  · exact unit_dvd_of_mul _ some (Nat.le_of_lt bound)
  · exact unit_dvd_of_mul _ some bound

theorem even_round {bits : Nat} {n : Int} (even : 2 ∣ n) : 2 ∣ round bits n := by
  have half : 2 ∣ roundNat bits n.natAbs := by
    by_cases short : n.natAbs.size ≤ bits
    · have whole : unit bits n.natAbs ∣ n.natAbs := by
        rw [unit, Nat.sub_eq_zero_of_le short]
        exact Nat.one_dvd _
      rw [roundNat_eq_self_iff.mpr whole]
      omega
    · have doubled : 2 ^ 1 ∣ unit bits n.natAbs := Nat.pow_dvd_pow 2 (by omega)
      exact Nat.dvd_trans doubled (unit_dvd_roundNat bits n.natAbs)
  rw [round]
  split
  · omega
  · omega

/-!
## One half more
-/

theorem unit_dvd_two_mul {bits m n : Nat} (whole : unit bits m ∣ m) (bound : n ≤ 2 * m + 1) :
    unit bits n ∣ 2 * m := by
  have size : n.size ≤ m.size + 1 := by
    rw [Nat.size_le, Nat.pow_succ]
    have below := Nat.lt_size_self m
    omega
  have doubled : unit bits n ∣ 2 * unit bits m := by
    rw [unit, unit, ← Nat.pow_succ']
    exact Nat.pow_dvd_pow 2 (by omega)
  exact Nat.dvd_trans doubled (Nat.mul_dvd_mul_left 2 whole)

theorem roundNat_of_split {bits n quotient rest : Nat}
    (shape : rest + unit bits n * quotient = n) (small : rest < unit bits n) :
    roundNat bits n =
      if 2 * rest < unit bits n ∨ 2 * rest = unit bits n ∧ quotient % 2 = 0 then
        quotient * unit bits n
      else (quotient + 1) * unit bits n := by
  obtain ⟨division, remainder⟩ :=
    (Nat.div_mod_unique (unit_pos bits n)).mpr ⟨shape, small⟩
  rw [roundNat, division, remainder]

theorem unit_cases (bits n : Nat) :
    unit bits n = 1 ∨ unit bits n = 2 ∨ 4 ≤ unit bits n := by
  obtain none | one | more : n.size - bits = 0 ∨ n.size - bits = 1 ∨ 2 ≤ n.size - bits := by
    omega
  · exact .inl (by simp [unit, none])
  · exact .inr (.inl (by simp [unit, one]))
  · exact .inr (.inr (Nat.pow_le_pow_right Nat.two_pos more))

theorem roundNat_succ {bits m : Nat} (even : 2 ∣ m) (whole : unit bits m ∣ m) :
    roundNat bits (2 * m + 1) = 2 * m ∨ roundNat bits (2 * m + 1) = 2 * m + 1 := by
  obtain ⟨count, shape⟩ := unit_dvd_two_mul whole (Nat.le_refl (2 * m + 1))
  have split : 1 + unit bits (2 * m + 1) * count = 2 * m + 1 := by omega
  obtain one | two | four := unit_cases bits (2 * m + 1)
  · exact .inr (roundNat_eq_self_iff.mpr (by rw [one]; exact Nat.one_dvd _))
  · left
    -- A tie, which goes to the even neighbour.
    rw [roundNat_of_split split (by omega), two, if_pos (by rw [two] at shape; omega)]
    rw [two] at shape
    omega
  · left
    rw [roundNat_of_split split (by omega), if_pos (by omega), Nat.mul_comm]
    exact shape.symm

theorem roundNat_pred {bits m : Nat} (even : 2 ∣ m) (positive : 0 < m)
    (whole : unit bits m ∣ m) :
    roundNat bits (2 * m - 1) = 2 * m ∨ roundNat bits (2 * m - 1) = 2 * m - 1 := by
  obtain ⟨count, shape⟩ := unit_dvd_two_mul whole (show 2 * m - 1 ≤ 2 * m + 1 by omega)
  obtain ⟨before, rfl⟩ : ∃ before, count = before + 1 := by
    cases count with
    | zero => omega
    | succ before => exact ⟨before, rfl⟩
  rw [Nat.mul_add, Nat.mul_one] at shape
  have spread := unit_pos bits (2 * m - 1)
  have split : unit bits (2 * m - 1) - 1 + unit bits (2 * m - 1) * before = 2 * m - 1 := by
    omega
  obtain one | two | four := unit_cases bits (2 * m - 1)
  · exact .inr (roundNat_eq_self_iff.mpr (by rw [one]; exact Nat.one_dvd _))
  · left
    rw [roundNat_of_split split (by omega), two, if_neg (by rw [two] at shape; omega)]
    rw [two] at shape
    omega
  · left
    rw [roundNat_of_split split (by omega), if_neg (by omega), Nat.mul_comm, Nat.mul_add]
    omega

/-- Adding one half, rounding and taking the floor changes no even integer. -/
theorem round_half_div {bits : Nat} {n : Int} (even : 2 ∣ n) (short : Representable bits n) :
    round bits (2 * n + 1) / 2 = n := by
  have half : 2 ∣ n.natAbs := by omega
  by_cases sign : 0 ≤ n
  · have magnitude : (2 * n + 1).natAbs = 2 * n.natAbs + 1 := by omega
    rw [round, if_pos (by omega), magnitude]
    obtain down | same := roundNat_succ half short
    · omega
    · omega
  · have magnitude : (2 * n + 1).natAbs = 2 * n.natAbs - 1 := by omega
    rw [round, if_neg (by omega), magnitude]
    obtain up | same := roundNat_pred half (by omega) short
    · omega
    · omega

theorem lt_of_odd_representable {bits m : Nat} (odd : ¬ 2 ∣ m) (whole : unit bits m ∣ m) :
    m < 2 ^ bits := by
  rw [← Nat.size_le]
  by_contra long
  have doubled : 2 ^ 1 ∣ unit bits m := Nat.pow_dvd_pow 2 (by omega)
  exact odd (Nat.dvd_trans doubled whole)

theorem unit_eq_two {bits n : Nat} (lower : 2 ^ bits ≤ n) (upper : n < 2 ^ (bits + 1)) :
    unit bits n = 2 := by
  have long : bits < n.size := Nat.lt_size.mpr lower
  have short : n.size ≤ bits + 1 := Nat.size_le.mpr upper
  rw [unit, show n.size - bits = 1 by omega, Nat.pow_one]

theorem roundNat_of_lt {bits n : Nat} (short : n < 2 ^ bits) : roundNat bits n = n :=
  roundNat_eq_self_iff.mpr (unit_dvd_of_dvd 0 (Nat.one_dvd _) short)

/-- The half of an odd number that fills the significand is a tie, which goes up. -/
theorem roundNat_succ_of_odd {bits m : Nat} (odd : ¬ 2 ∣ m) (lower : 2 ^ bits ≤ m)
    (upper : m < 2 ^ (bits + 1)) : roundNat (bits + 1) (2 * m + 1) = 2 * m + 2 := by
  have two : unit (bits + 1) (2 * m + 1) = 2 :=
    unit_eq_two (by rw [Nat.pow_succ]; omega) (by rw [Nat.pow_succ _ (bits + 1)]; omega)
  have split : 1 + unit (bits + 1) (2 * m + 1) * m = 2 * m + 1 := by rw [two, Nat.add_comm]
  rw [roundNat_of_split split (by omega), two, if_neg (by omega)]
  omega

theorem roundNat_pred_of_odd {bits m : Nat} (odd : ¬ 2 ∣ m) (lower : 2 ^ bits < m)
    (upper : m < 2 ^ (bits + 1)) : roundNat (bits + 1) (2 * m - 1) = 2 * m - 2 := by
  have two : unit (bits + 1) (2 * m - 1) = 2 :=
    unit_eq_two (by rw [Nat.pow_succ]; omega) (by rw [Nat.pow_succ _ (bits + 1)]; omega)
  have split : 1 + unit (bits + 1) (2 * m - 1) * (m - 1) = 2 * m - 1 := by rw [two]; omega
  rw [roundNat_of_split split (by omega), two, if_pos (by omega)]
  omega

theorem round_half_div_of_odd {bits : Nat} {n : Int} (some : 0 < bits) (odd : ¬ 2 ∣ n)
    (short : Representable (bits + 1) n) :
    round (bits + 1) (2 * n + 1) / 2 = if n.natAbs < 2 ^ bits then n else n + 1 := by
  have magnitudeOdd : ¬ 2 ∣ n.natAbs := by omega
  have upper := lt_of_odd_representable magnitudeOdd short
  have successor : 2 ^ (bits + 1) = 2 ^ bits * 2 := Nat.pow_succ ..
  by_cases sign : 0 ≤ n
  · have magnitude : (2 * n + 1).natAbs = 2 * n.natAbs + 1 := by omega
    rw [round, if_pos (by omega), magnitude]
    split
    · next exactly =>
        rw [roundNat_of_lt (by omega)]
        omega
    · next tie =>
        rw [roundNat_succ_of_odd magnitudeOdd (by omega) upper]
        omega
  · have magnitude : (2 * n + 1).natAbs = 2 * n.natAbs - 1 := by omega
    rw [round, if_neg (by omega), magnitude]
    split
    · next exactly =>
        rw [roundNat_of_lt (by omega)]
        omega
    · next tie =>
        have inside : 2 ^ bits ≠ n.natAbs := by
          intro same
          exact magnitudeOdd (same ▸ Nat.pow_dvd_pow 2 some)
        rw [roundNat_pred_of_odd magnitudeOdd (by omega) upper]
        omega

theorem round_half_div_eq_iff {bits : Nat} {n : Int} (some : 0 < bits)
    (short : Representable (bits + 1) n) :
    round (bits + 1) (2 * n + 1) / 2 = n ↔ 2 ∣ n ∨ n.natAbs < 2 ^ bits := by
  by_cases even : 2 ∣ n
  · exact iff_of_true (round_half_div even short) (.inl even)
  · rw [round_half_div_of_odd some even short, or_iff_right even]
    split
    · next small => exact iff_of_true rfl small
    · next large => exact iff_of_false (by omega) large

end Libpreempt.Arithmetic
