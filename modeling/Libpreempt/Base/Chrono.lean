import Libpreempt.Transition.Machine

/-! The stopwatch and the benchmark of `base/chrono.h`. Time points and
durations count nanoseconds; every reading of the clock is an argument. -/

set_option autoImplicit false

namespace Libpreempt.Base

open Libpreempt.Transition

/-- A default-constructed time point is the epoch, `0`. -/
structure Stopwatch where
  t0 : Int := 0
  deriving DecidableEq, Repr

namespace Stopwatch

/-- `duration_cast` truncates toward zero to whole periods. -/
def cast (period : Int) (watch : Stopwatch) (now : Int) : Int :=
  (now - watch.t0).tdiv period

def seconds : Stopwatch → Int → Int := cast 1000000000
def milliseconds : Stopwatch → Int → Int := cast 1000000
def microseconds : Stopwatch → Int → Int := cast 1000
def nanoseconds : Stopwatch → Int → Int := cast 1

/-- `stop()` reads the clock twice: to measure, then to reset. -/
def stop (watch : Stopwatch) (measured reset : Int) : Int × Stopwatch :=
  (watch.microseconds measured, { t0 := reset })

def construct (measured reset : Int) : Stopwatch :=
  (stop {} measured reset).2

@[simp] theorem nanoseconds_eq (watch : Stopwatch) (now : Int) :
    watch.nanoseconds now = now - watch.t0 := by
  simp [nanoseconds, cast]

@[simp] theorem t0_construct (measured reset : Int) :
    (construct measured reset).t0 = reset := rfl

end Stopwatch

/-- `sum` is `none` while the member `sum_` is uninitialised. -/
structure Benchmark where
  t0 : Stopwatch
  sum : Option Int
  deriving DecidableEq, Repr

namespace Benchmark

def reset (_ : Benchmark) (measured reset : Int) : Benchmark :=
  { t0 := Stopwatch.construct measured reset, sum := some 0 }

def count (benchmark : Benchmark) : Option Int := benchmark.sum

/-- `sum_ += t0_.nanoseconds(); return count();`. The time point `t0_` is not
moved. -/
def stop (benchmark : Benchmark) (now : Int) : Option Int × Benchmark :=
  let stopped := { benchmark with sum := benchmark.sum.map (· + benchmark.t0.nanoseconds now) }
  (stopped.count, stopped)

inductive Call where
  | reset (measured reset : Int)
  | stop (now : Int)
  deriving DecidableEq, Repr

structure Session where
  benchmark : Benchmark
  clock : Int
  resetAt : Int
  stops : List Int
  returned : Option Int
  deriving DecidableEq, Repr

/-- A reading earlier than the one before it is refused. -/
def Session.perform (session : Session) : Call → Option Session
  | .reset measured reset =>
      if session.clock ≤ measured ∧ measured ≤ reset then
        some { session with
          benchmark := session.benchmark.reset measured reset
          clock := reset
          resetAt := reset
          stops := [] }
      else none
  | .stop now =>
      if session.clock ≤ now then
        let (returned, benchmark) := session.benchmark.stop now
        some { session with benchmark, clock := now, stops := session.stops ++ [now], returned }
      else none

def machine (measured reset : Int) : Machine Session Call where
  initial := ⟨{ t0 := Stopwatch.construct measured reset, sum := none }, reset, reset, [], none⟩
  step session call := session.perform call

/-- The doc of `stop()`: the nanoseconds since the last `reset()` are returned
and counted. -/
def StopLaw (before : Session) : Call → Session → Prop
  | .reset _ _, _ => True
  | .stop now, after =>
      after.returned = some (now - before.resetAt) ∧
        after.benchmark.count = some (now - before.resetAt)

def StopGuard (session : Session) : Call → Prop
  | .reset _ _ => True
  | .stop _ => ∀ reading ∈ session.stops, reading = session.resetAt

end Benchmark

end Libpreempt.Base
