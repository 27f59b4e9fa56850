import Libpreempt.Base.Chrono
import Mathlib.Algebra.BigOperators.Group.List.Basic
import Mathlib.Algebra.Ring.Int.Defs

/-! Since `benchmark::stop` keeps the reference point of `reset()`, each stop
counts the time of all earlier stops once more. -/

set_option autoImplicit false

namespace Libpreempt.Base.Benchmark

open Libpreempt.Transition

theorem sum_elapsed_eq_zero_iff {start : Int} {readings : List Int}
    (later : ∀ reading ∈ readings, start ≤ reading) :
    0 ≤ (readings.map (· - start)).sum ∧
      ((readings.map (· - start)).sum = 0 ↔ ∀ reading ∈ readings, reading = start) := by
  induction readings with
  | nil => simp
  | cons reading rest ih =>
      obtain ⟨nonneg, zero⟩ := ih fun other member => later other (List.mem_cons_of_mem _ member)
      have first := later reading (List.mem_cons_self ..)
      simp only [List.map_cons, List.sum_cons, List.forall_mem_cons]
      rw [← zero]
      omega

/-- What `sum_` really holds after a `reset()`: the time from the `reset()` to
each of the stops, added up. -/
structure Session.Summed (session : Session) : Prop where
  reference : session.benchmark.t0.t0 = session.resetAt
  later : ∀ reading ∈ session.stops, session.resetAt ≤ reading
  running : session.resetAt ≤ session.clock
  sum : session.benchmark.sum = some (session.stops.map (· - session.resetAt)).sum

theorem perform_reset {session next : Session} {measured reset : Int}
    (performed : session.perform (.reset measured reset) = some next) :
    next.Summed := by
  simp only [Session.perform] at performed
  split at performed
  · cases performed
    exact ⟨rfl, by simp, Int.le_refl _, rfl⟩
  · cases performed

theorem perform_stop {session next : Session} {now : Int} (summed : session.Summed)
    (performed : session.perform (.stop now) = some next) :
    next.Summed ∧ next.returned = next.benchmark.count ∧
      next.benchmark.count =
        some ((session.stops.map (· - session.resetAt)).sum + (now - session.resetAt)) := by
  simp only [Session.perform] at performed
  split at performed
  · rename_i forward
    cases performed
    have total : (session.benchmark.stop now).2.sum =
        some ((session.stops.map (· - session.resetAt)).sum + (now - session.resetAt)) := by
      simp [stop, summed.sum, summed.reference]
    refine ⟨⟨summed.reference, ?_, ?_, ?_⟩, rfl, total⟩
    · intro reading member
      rcases List.mem_append.mp member with earlier | last
      · exact summed.later reading earlier
      · have same : reading = now := List.mem_singleton.mp last
        have running := summed.running
        change session.resetAt ≤ reading
        omega
    · have running := summed.running
      change session.resetAt ≤ now
      omega
    · rw [total]
      simp
  · cases performed

theorem summed_perform {session next : Session} {call : Call} (summed : session.Summed)
    (performed : session.perform call = some next) : next.Summed := by
  cases call with
  | reset measured reset => exact perform_reset performed
  | stop now => exact (perform_stop summed performed).1

theorem stopLaw_iff {session next : Session} {call : Call} (summed : session.Summed)
    (performed : session.perform call = some next) :
    StopLaw session call next ↔ StopGuard session call := by
  cases call with
  | reset measured reset => simp [StopLaw, StopGuard]
  | stop now =>
      obtain ⟨_, returned, total⟩ := perform_stop summed performed
      have zero := (sum_elapsed_eq_zero_iff summed.later).2
      simp only [StopLaw, StopGuard, returned, total, Option.some.injEq, and_self]
      rw [← zero]
      omega

/-- In a run that begins with `reset()`, every `stop()` returns the time since
the last `reset()` exactly when no earlier `stop()` of the same measurement
read a later time than the `reset()`. -/
theorem stop_law_iff (constructed ready measured reset : Int) (calls : List Call) :
    (machine constructed ready).EachStep StopLaw (machine constructed ready).initial
        (.reset measured reset :: calls) ↔
      (machine constructed ready).EachStep (fun source call _ => StopGuard source call)
        (machine constructed ready).initial (.reset measured reset :: calls) := by
  rw [Machine.eachStep_cons, Machine.eachStep_cons]
  refine forall₂_congr fun next performed => and_congr (by simp [StopLaw, StopGuard]) ?_
  refine Machine.eachStep_iff_guarded Session.Summed ?_ ?_ (perform_reset performed) calls
  · intro source call target summed performed
    exact stopLaw_iff summed performed
  · intro source call target summed performed _
    exact summed_perform summed performed

/-- The second `stop()`, at 300 ns, returns 400 ns. -/
theorem stop_counts_twice :
    ¬ ∀ calls, (machine 0 0).EachStep StopLaw (machine 0 0).initial (.reset 0 0 :: calls) := by
  intro law
  have second := law [.stop 100, .stop 300] [.reset 0 0, .stop 100] (.stop 300) [] _ _ rfl rfl rfl
  exact absurd second.1 (by decide)

end Libpreempt.Base.Benchmark
