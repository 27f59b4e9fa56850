import Libpreempt.Base.Chrono
import Mathlib.Algebra.BigOperators.Group.List.Basic
import Mathlib.Algebra.Ring.Int.Defs

/-! Repeated calls of `stopwatch::stop()`. Every call loses the part of a
microsecond that the cast cuts off and the time between its two readings. -/

set_option autoImplicit false

namespace Libpreempt.Base.Stopwatch

/-- The two readings of the clock in one call of `stop()`. -/
structure Reading where
  measured : Int
  reset : Int
  deriving DecidableEq, Repr

def Reading.gap (reading : Reading) : Int := reading.reset - reading.measured

/-- The returned microseconds of the calls, and the stopwatch after them. -/
def stops (watch : Stopwatch) : List Reading → List Int × Stopwatch
  | [] => ([], watch)
  | reading :: rest =>
      let stopped := watch.stop reading.measured reading.reset
      let later := stopped.2.stops rest
      (stopped.1 :: later.1, later.2)

def readings (calls : List Reading) : List Int :=
  calls.flatMap fun call => [call.measured, call.reset]

theorem t0_stops (watch : Stopwatch) (calls : List Reading) :
    (watch.stops calls).2.t0 = (calls.map Reading.reset).getLastD watch.t0 := by
  induction calls generalizing watch with
  | nil => rfl
  | cons call rest ih =>
      rw [stops, List.map_cons, List.getLastD_cons, ih]
      rfl

/-- What one call returns, and what it loses. -/
theorem stop_bounds {watch : Stopwatch} {measured : Int} (reset : Int)
    (later : watch.t0 ≤ measured) :
    0 ≤ (watch.stop measured reset).1 ∧
      1000 * (watch.stop measured reset).1 ≤ measured - watch.t0 ∧
        measured - watch.t0 ≤ 1000 * (watch.stop measured reset).1 + 999 := by
  have elapsed : 0 ≤ measured - watch.t0 := Int.sub_nonneg_of_le later
  have floor : (watch.stop measured reset).1 = (measured - watch.t0) / 1000 :=
    Int.tdiv_eq_ediv_of_nonneg elapsed
  omega

theorem stops_bounds {watch : Stopwatch} {calls : List Reading}
    (ordered : (watch.t0 :: readings calls).IsChain (· ≤ ·)) :
    (∀ count ∈ (watch.stops calls).1, 0 ≤ count) ∧
      1000 * (watch.stops calls).1.sum ≤ (watch.stops calls).2.t0 - watch.t0 ∧
        (watch.stops calls).2.t0 - watch.t0 ≤
          1000 * (watch.stops calls).1.sum + 999 * calls.length + (calls.map Reading.gap).sum := by
  induction calls generalizing watch with
  | nil => simp [stops]
  | cons call rest ih =>
      simp only [readings, List.flatMap_cons, List.cons_append, List.nil_append,
        List.isChain_cons_cons] at ordered
      obtain ⟨later, settled, ordered⟩ := ordered
      obtain ⟨nonneg, below, above⟩ := stop_bounds call.reset later
      obtain ⟨others, restBelow, restAbove⟩ :=
        @ih (watch.stop call.measured call.reset).2 ordered
      have start : (watch.stop call.measured call.reset).2.t0 = call.reset := rfl
      rw [start] at restBelow restAbove
      simp only [stops, List.forall_mem_cons, List.sum_cons, List.map_cons, List.length_cons,
        Reading.gap] at restAbove ⊢
      exact ⟨⟨nonneg, others⟩, by omega, by omega⟩

/-- The calls return no negative time and together at most the time from the
construction to the last reset. Each of them loses less than a microsecond and
the time between its two readings. -/
theorem stops_total (measured reset : Int) (calls : List Reading)
    (ordered : (measured :: reset :: readings calls).IsChain (· ≤ ·)) :
    (∀ count ∈ ((construct measured reset).stops calls).1, 0 ≤ count) ∧
      1000 * ((construct measured reset).stops calls).1.sum ≤
        (calls.map Reading.reset).getLastD reset - reset ∧
      (calls.map Reading.reset).getLastD reset - reset -
          1000 * ((construct measured reset).stops calls).1.sum ≤
        999 * calls.length + (calls.map Reading.gap).sum ∧
      (calls ≠ [] →
        (calls.map Reading.reset).getLastD reset - reset -
            1000 * ((construct measured reset).stops calls).1.sum <
          1000 * calls.length + (calls.map Reading.gap).sum) := by
  have started : (construct measured reset).t0 = reset := t0_construct measured reset
  obtain ⟨nonneg, below, above⟩ := @stops_bounds (construct measured reset) calls
    (started.symm ▸ (List.isChain_cons_cons.mp ordered).2)
  rw [t0_stops, started] at below above
  refine ⟨nonneg, below, by omega, ?_⟩
  intro some
  have count : 0 < calls.length := List.length_pos_iff.mpr some
  omega

/-- 1999 ns and 2500 ns, with 1 ns between the readings of the first call. -/
theorem stops_total_two :
    [0, 0, 1999, 2000, 4500, 4500].IsChain (· ≤ ·) ∧
      1000 * ((construct 0 0).stops [⟨1999, 2000⟩, ⟨4500, 4500⟩]).1.sum ≤ 4500 - 0 :=
  ⟨by decide, (stops_total 0 0 [⟨1999, 2000⟩, ⟨4500, 4500⟩] (by decide)).2.1⟩

end Libpreempt.Base.Stopwatch
