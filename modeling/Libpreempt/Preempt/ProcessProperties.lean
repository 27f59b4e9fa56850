import Libpreempt.Preempt.Process

/-! A second request while one is open takes the only reference to the first
descriptor away, and nothing can close it any more. -/

set_option autoImplicit false

namespace Libpreempt.Preempt.Process

open Libpreempt.Transition

/-- While the process runs, the open descriptor is the one in the variable. -/
inductive Accounted (process : Process) : Prop where
  | free (unset : process.gFdCpuDma = -1) (none : process.inForce = [])
  | held (set : process.gFdCpuDma ≠ -1) (cState : Option UInt32)
      (one : process.inForce = [⟨process.gFdCpuDma, cState⟩])

theorem Accounted.length {process : Process} (accounted : process.Accounted) :
    process.inForce.length = if process.gFdCpuDma ≠ -1 then 1 else 0 := by
  cases accounted with
  | free unset none => simp [unset, none]
  | held set cState one => simp [set, one]

theorem Accounted.reset {process : Process} (accounted : process.Accounted) (close : Int) :
    (process.resetCPULatency close).Accounted ∧
      (process.resetCPULatency close).inForce = [] := by
  cases accounted with
  | free unset none =>
      have same : process.resetCPULatency close = process := by simp [resetCPULatency, unset]
      rw [same]
      exact ⟨.free unset none, none⟩
  | held set cState one =>
      have closed : (process.resetCPULatency close).inForce = [] := by
        simp [resetCPULatency, set, one]
      refine ⟨.free ?_ closed, closed⟩
      simp [resetCPULatency, set]

theorem request_exited (process : Process) {calls : SystemCalls} (cState : UInt32)
    (failed : ¬ calls.Succeed) : (process.requestCPULatency cState calls).exited ≠ none := by
  unfold requestCPULatency
  split
  · exact Option.some_ne_none _
  · rename_i found
    simp only
    split
    · exact Option.some_ne_none _
    · rename_i opened
      split
      · exact Option.some_ne_none _
      · rename_i written
        exact absurd ⟨found, opened, Int.not_lt.mp written⟩ failed

theorem request_succeeded {process : Process} {calls : SystemCalls} (cState : UInt32)
    (succeeded : calls.Succeed) :
    process.requestCPULatency cState calls =
      { process with
        gFdCpuDma := calls.openFd
        inForce := ⟨calls.openFd, some cState⟩ :: process.inForce } := by
  obtain ⟨found, opened, written⟩ := succeeded
  simp [requestCPULatency, found, opened, Int.not_lt.mpr written]

theorem latencyLaw_request_iff {process : Process} {calls : SystemCalls} (cState : UInt32)
    (accounted : process.Accounted) (running : process.exited = none) :
    LatencyLaw process (.request cState calls) (process.requestCPULatency cState calls) ↔
      LatencyGuard process (.request cState calls) := by
  by_cases succeeded : calls.Succeed
  · have opened := succeeded.2.1
    rw [request_succeeded cState succeeded]
    cases accounted with
    | free unset none => simp [LatencyLaw, LatencyGuard, unset, none, opened]
    | held set cState one =>
        simp [LatencyLaw, LatencyGuard, running, set, one, opened, succeeded]
  · have left := request_exited process cState succeeded
    constructor
    · exact fun _ success => absurd success succeeded
    · exact fun _ alive => absurd alive left

theorem step_perform {source target : Process} {call : Call}
    (stepped : machine.step source call = some target) :
    source.exited = none ∧ source.perform call = some target := by
  simp only [machine] at stepped
  split at stepped
  · rename_i running
    exact ⟨running, stepped⟩
  · cases stepped

theorem perform_request {source target : Process} {cState : UInt32} {calls : SystemCalls}
    (performed : source.perform (.request cState calls) = some target) :
    target = source.requestCPULatency cState calls := by
  simp only [perform] at performed
  split at performed
  · exact (Option.some.inj performed).symm
  · cases performed

theorem latencyLaw_iff {source target : Process} {call : Call}
    (accounted : source.exited = none → source.Accounted)
    (stepped : machine.step source call = some target) :
    LatencyLaw source call target ↔ LatencyGuard source call := by
  obtain ⟨running, performed⟩ := step_perform stepped
  cases call with
  | request cState calls =>
      rw [perform_request performed]
      exact latencyLaw_request_iff cState (accounted running) running
  | reset close =>
      cases performed
      obtain ⟨after, none⟩ := (accounted running).reset close
      have law : LatencyLaw source (.reset close) (source.resetCPULatency close) :=
        fun _ => ⟨after.length, fun _ _ => none⟩
      exact ⟨fun _ => trivial, fun _ => law⟩

theorem accounted_step {source target : Process} {call : Call}
    (accounted : source.exited = none → source.Accounted)
    (stepped : machine.step source call = some target)
    (guarded : LatencyGuard source call) (alive : target.exited = none) : target.Accounted := by
  obtain ⟨running, performed⟩ := step_perform stepped
  cases call with
  | request cState calls =>
      rw [perform_request performed] at alive ⊢
      by_cases succeeded : calls.Succeed
      · have unset := guarded succeeded
        rw [request_succeeded cState succeeded]
        cases accounted running with
        | free _ none => exact .held succeeded.2.1 (some cState) (by simp [none])
        | held set _ _ => exact absurd unset set
      · exact absurd alive (request_exited source cState succeeded)
  | reset close =>
      cases performed
      exact ((accounted running).reset close).1

/-- The variable accounts for the open descriptors after every call exactly
when no request succeeds while an earlier one is open. -/
theorem cpu_latency_iff (calls : List Call) :
    machine.EachStep LatencyLaw machine.initial calls ↔
      machine.EachStep (fun source call _ => LatencyGuard source call) machine.initial calls := by
  apply Machine.eachStep_iff_guarded fun process => process.exited = none → process.Accounted
  · intro source call target accounted stepped
    exact latencyLaw_iff accounted stepped
  · intro source call target accounted stepped law
    exact accounted_step accounted stepped ((latencyLaw_iff accounted stepped).mp law)
  · exact fun _ => .free rfl rfl

/-- The reset closes descriptor 4; descriptor 3 stays open. -/
theorem cpu_latency_leak :
    ¬ ∀ calls, machine.EachStep LatencyLaw machine.initial calls := by
  intro law
  have last := law [.request 0 ⟨0, 3, 4, 0⟩, .request 0 ⟨0, 4, 4, 0⟩, .reset 0]
    [.request 0 ⟨0, 3, 4, 0⟩, .request 0 ⟨0, 4, 4, 0⟩] (.reset 0) [] _ _ rfl rfl rfl
  exact absurd ((last rfl).2 0 rfl) (by decide)

end Libpreempt.Preempt.Process
