import Libpreempt.Arithmetic.FloatingPoint
import Libpreempt.Base.Timespec
import Mathlib.Data.Rat.Floor

/-! The functions of `base/numeric.h` and `base/chrono.h` that compute with
`double`, at every finite argument. The exponent is not bounded: a result too
large for a `double` is one that no integer type holds either, and one below the
normal range is far below every tolerance. -/

set_option autoImplicit false

namespace Libpreempt.Base

open Libpreempt.Arithmetic

/-- The value of a finite `double`. -/
structure Double where
  value : ℚ
  fits : Fits 53 value

namespace Double

/-- The result of an operation whose exact result is `x`. -/
def round (x : ℚ) : Double := ⟨nearest 53 x, fits_nearest 53 x⟩

/-- The conversion of an integer, and a literal that is one. -/
def ofInt (n : Int) : Double := round n

def half : Double := round (1 / 2)

/-- `std::numeric_limits<double>::epsilon()` -/
def epsilon : Double := round (2 ^ (-52 : Int))

instance : Add Double := ⟨fun a b => round (a.value + b.value)⟩
instance : Sub Double := ⟨fun a b => round (a.value - b.value)⟩
instance : Mul Double := ⟨fun a b => round (a.value * b.value)⟩
instance : Div Double := ⟨fun a b => round (a.value / b.value)⟩

/-!
## Rounding to an integer
-/

/-- `static_cast<ReturnT>(std::floor(n + .5))` -/
def roundToNearest {ReturnT : Type} (staticCast : Int → Option ReturnT) (n : Double) :
    Option ReturnT :=
  staticCast ⌊(n + half).value⌋

/-- The conversion to an integer type with these values; of another one it is undefined. -/
def toIntegral (lower upper : Int) (n : Int) : Option Int :=
  if lower ≤ n ∧ n < upper then some n else none

def roundToInt : Double → Option Int := roundToNearest (toIntegral (-2 ^ 31) (2 ^ 31))
def roundToUint : Double → Option Int := roundToNearest (toIntegral 0 (2 ^ 32))
def roundToLong : Double → Option Int := roundToNearest (toIntegral (-2 ^ 63) (2 ^ 63))
def roundToUlong : Double → Option Int := roundToNearest (toIntegral 0 (2 ^ 64))
def roundToInt64 : Double → Option Int64 := roundToNearest toInt64
def roundToUint64 : Double → Option Int := roundToNearest (toIntegral 0 (2 ^ 64))

/-!
## Conversions of time
-/

def secToNsec (n : Double) : Option Nsec := roundToInt64 (n * ofInt 1000000000)
def secToMsec (n : Double) : Double := n * ofInt 1000
def secToUsec (n : Double) : Double := n * ofInt 1000000

def msecToNsec (n : Double) : Option Nsec := roundToInt64 (n * ofInt 1000000)
def msecToSec (n : Double) : Double := n / ofInt 1000
def msecToUsec (n : Double) : Double := n * ofInt 1000

def usecToNsec (n : Double) : Option Nsec := roundToInt64 (n * ofInt 1000)
def usecToSec (n : Double) : Double := n / ofInt 1000000
def usecToMsec (n : Double) : Double := n / ofInt 1000

def nsecToSec (n : Nsec) : Double := ofInt n.toInt / ofInt 1000000000
def nsecToMsec (n : Nsec) : Double := ofInt n.toInt / ofInt 1000000
def nsecToUsec (n : Nsec) : Double := ofInt n.toInt / ofInt 1000

/-!
## Comparisons
-/

/-- `std::fabs` changes the sign alone. -/
def fabs (a : Double) : Double where
  value := |a.value|
  fits := a.fits.abs

def fmax (a b : Double) : Double := if a.value ≤ b.value then b else a

def almostEqual (a b : Double) : Bool :=
  let e := epsilon
  let x := fabs (a - b)
  if x.value ≤ e.value then true
  else decide (x.value ≤ (e * fmax (fabs a) (fabs b)).value)

def almostZero (a : Double) : Bool := almostEqual a (ofInt 0)

def almostLt (a b : Double) : Bool := decide (a.value < b.value) && !almostEqual a b

def almostLe (a b : Double) : Bool := decide (a.value < b.value) || almostEqual a b

def almostGt (a b : Double) : Bool := decide (a.value > b.value) && !almostEqual a b

def almostGe (a b : Double) : Bool := decide (a.value > b.value) || almostEqual a b

end Double

end Libpreempt.Base
