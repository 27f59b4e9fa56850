import Mathlib.Algebra.Group.Nat.Defs
import Mathlib.Algebra.Ring.Int.Defs
import Mathlib.Data.List.Infix

/-! Decimal numbers of a scale, the number of places behind the point, as
`bc` computes with them and prints them. -/

set_option autoImplicit false

namespace Libpreempt.Arithmetic

structure Decimal where
  unscaled : Int
  scale : Nat
deriving DecidableEq, Repr

namespace Decimal

def ofInt (n : Int) : Decimal := ⟨n, 0⟩

/-- The quotient, truncated to `scale` places. -/
def divide (scale : Nat) (a b : Decimal) : Decimal :=
  ⟨(a.unscaled * 10 ^ (scale + b.scale)).tdiv (b.unscaled * 10 ^ a.scale), scale⟩

/-- The product, which keeps its places up to the greatest of `scale` and the
scales of the factors. -/
def multiply (scale : Nat) (a b : Decimal) : Decimal :=
  let full := a.scale + b.scale
  let kept := min full (max scale (max a.scale b.scale))
  ⟨(a.unscaled * b.unscaled).tdiv (10 ^ (full - kept)), kept⟩

def padded (places n : Nat) : List Char :=
  let digits := Nat.toDigits 10 n
  List.replicate (places - digits.length) '0' ++ digits

/-- Zero is printed without its places, and a zero before the point is left out. -/
def text (d : Decimal) : List Char :=
  if d.unscaled = 0 then ['0']
  else
    let magnitude := d.unscaled.natAbs
    let whole := magnitude / 10 ^ d.scale
    (if d.unscaled < 0 then ['-'] else []) ++
      (if whole = 0 then [] else Nat.toDigits 10 whole) ++
      (if d.scale = 0 then [] else '.' :: padded d.scale (magnitude % 10 ^ d.scale))

theorem divide_ofInt (scale : Nat) (a b : Int) :
    divide scale (ofInt a) (ofInt b) = ⟨(a * 10 ^ scale).tdiv b, scale⟩ := by
  simp [divide, ofInt]

/-- The factor has no places, so that none of the product is lost. -/
theorem multiply_ofInt (n factor : Int) (places : Nat) :
    multiply places ⟨n, places⟩ (ofInt factor) = ⟨n * factor, places⟩ := by
  simp [multiply, ofInt]

/-- Below one nothing stands before the point. -/
theorem text_of_lt {n scale : Nat} (positive : 0 < n) (places : 0 < scale)
    (small : n < 10 ^ scale) : text ⟨n, scale⟩ = '.' :: padded scale n := by
  have sign : ¬ (n : Int) < 0 := by omega
  simp [text, sign, positive.ne', places.ne', Nat.div_eq_of_lt small, Nat.mod_eq_of_lt small]

theorem text_of_le {n scale : Nat} (places : 0 < scale) (large : 10 ^ scale ≤ n) :
    text ⟨n, scale⟩ =
      Nat.toDigits 10 (n / 10 ^ scale) ++ '.' :: padded scale (n % 10 ^ scale) := by
  have unit : 0 < 10 ^ scale := Nat.pow_pos (by decide)
  have whole : 0 < n / 10 ^ scale := Nat.div_pos large unit
  have sign : ¬ (n : Int) < 0 := by omega
  have nonzero : n ≠ 0 := by omega
  simp [text, sign, nonzero, places.ne', whole.ne']

theorem toDigits_two {n : Nat} (lower : 10 ≤ n) (upper : n < 100) :
    Nat.toDigits 10 n = [(n / 10).digitChar, (n % 10).digitChar] := by
  rw [Nat.toDigits_of_base_le (by decide) lower, Nat.toDigits_of_lt_base (by omega)]
  rfl

end Decimal

end Libpreempt.Arithmetic
