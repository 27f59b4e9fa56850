import Libpreempt.Arithmetic.Decimal
import Libpreempt.Shell.Pattern

/-! The summary of `testmatrix.sh`: the percentage that `bc` prints, and the
patterns that decide on it. -/

set_option autoImplicit false

namespace Libpreempt.TestMatrix

open Libpreempt.Arithmetic Libpreempt.Shell

/-- `scale=3; $TotalGood / $TotalRuns * 100` -/
def totalGoodPercent (totalGood totalRuns : Int) : List Char :=
  if totalRuns ≠ 0 then
    ((Decimal.ofInt totalGood).divide 3 (.ofInt totalRuns) |>.multiply 3 (.ofInt 100)).text
  else ['1', '0', '0', '.', '0', '0', '0']

/-- `100*` -/
def allGood : Pattern := Pattern.literal ['1', '0', '0'] ++ [.star]

/-- `9[5-9]*` -/
def mostGood : Pattern := [.char '9', .bracket [('5', '9')], .star]

def expected (optrelax : Bool) : List Pattern :=
  if optrelax then [allGood, mostGood] else [allGood]

inductive Verdict where
  | success
  | error
deriving DecidableEq, Repr

def verdict (optrelax : Bool) (totalGood totalRuns : Int) : Verdict :=
  if (expected optrelax).any fun pattern => pattern.accepts (totalGoodPercent totalGood totalRuns)
  then .success else .error

/-- The status of the `exit` behind the report; after `SUCCESS` there is none. -/
def Verdict.exitStatus : Verdict → Option Nat
  | .success => none
  | .error => some 1

end Libpreempt.TestMatrix
