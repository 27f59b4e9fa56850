import Libpreempt.Base.Numeric

/-! The conversions of `base/chrono.h` between `timespec` and nanoseconds, with
`time_t` and `long` of 64 bits. -/

set_option autoImplicit false

namespace Libpreempt.Base

abbrev Nsec := Int64

structure Timespec where
  tvSec : Int64
  tvNsec : Int64
  deriving DecidableEq

/-- The normal form POSIX requires. -/
def Timespec.Normalised (ts : Timespec) : Prop :=
  0 ≤ ts.tvNsec.toInt ∧ ts.tvNsec.toInt < 1000000000

instance (ts : Timespec) : Decidable ts.Normalised := inferInstanceAs (Decidable (_ ∧ _))

/-- `round_to_nearest<nsec_t>(ts.tv_sec * 1e9) + ts.tv_nsec`. The seconds become a
`double` before the product; the sum is one of integers, whose overflow is undefined. -/
def timespecToNsec (ts : Timespec) : Option Nsec := do
  let seconds ← roundToInt64 (toDouble (toDouble ts.tvSec.toInt * 1000000000))
  toInt64 (seconds.toInt + ts.tvNsec.toInt)

def nsecToTimespec (ns : Nsec) : Timespec where
  tvSec := ns / 1000000000
  tvNsec := ns % 1000000000

end Libpreempt.Base
