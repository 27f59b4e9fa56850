import Libpreempt.Preempt.RealtimeStart

/-! The scheduling of a new thread is changed somewhere in its run. What it
executes before runs with the inherited scheduling, what it executes after with
the requested one, and the creating call returns in either case. -/

set_option autoImplicit false

namespace Libpreempt.Preempt

open Libpreempt.Base Libpreempt.Stdlib Libpreempt.Transition

theorem Request.create_active (request : Request) (id : ThreadId) :
    ∃ thread, request.create id = some thread ∧ ThreadType.joinable thread = true := by
  cases request with
  | thread policy priority steps => exact ⟨ThreadType.launched id, rfl, rfl⟩
  | criticalTask task priority steps =>
      obtain ⟨after, returned, known⟩ := task.spawn_returned (ThreadType.launched id)
      refine ⟨after.thread, by simp [create, returned], ?_⟩
      exact joinable_eq_true_iff.mpr ⟨id, known.trans (LawfulThreadType.getId_launched id)⟩

namespace Start

variable {strerror : Int → StdString} {request : Request} {id : ThreadId}
  {inherited : Scheduling}

/-- `pthread_setschedparam` reports `ESRCH`: the call returns, nothing changes. -/
theorem change_ended (requested : Scheduling) {start : Start} (ended : start.phase = .ended)
    (thread : Thread) :
    start.change strerror requested thread = { start with creator := .returned thread } := by
  have errnum : start.setSchedParam = esrch := if_pos ended
  have missed : ¬ (thread.joinable = true ∧ esrch = 0) := by simp [esrch]
  unfold change
  rw [errnum, Thread.changeScheduling_of_success strerror thread _ _ (.inr rfl)]
  simp only [missed, if_false]

theorem change_live (requested : Scheduling) {start : Start} (live : start.phase ≠ .ended)
    {thread : Thread} (active : ThreadType.joinable thread = true) :
    start.change strerror requested thread =
      { start with creator := .returned thread, scheduling := requested } := by
  have errnum : start.setSchedParam = 0 := if_neg live
  have changed : thread.joinable = true ∧ (0 : Int) = 0 := ⟨active, rfl⟩
  unfold change
  rw [errnum, Thread.changeScheduling_of_success strerror thread _ _ (.inl rfl)]
  simp only [changed, if_true, and_self]

inductive Effect (strerror : Int → StdString) (request : Request) (source : Start) :
    Action → Start → Prop where
  | created {thread : Thread} (before : source.creator = .before)
      (active : ThreadType.joinable thread = true) :
      Effect strerror request source .create
        { source with creator := .created thread, phase := .ready }
  | changed {thread : Thread} (created : source.creator = .created thread) :
      Effect strerror request source .change (source.change strerror request.scheduling thread)
  | begun (ready : source.phase = .ready) :
      Effect strerror request source .begin { source with phase := .running request.body }
  | executed {step : BodyStep} {rest : List BodyStep} (running : source.phase = .running (step :: rest)) :
      Effect strerror request source .execute
        { source with phase := .running rest, log := source.log ++ [⟨step, source.scheduling⟩] }
  | finished (running : source.phase = .running []) :
      Effect strerror request source .finish { source with phase := .ended }

theorem step_effect {source target : Start} {action : Action}
    (stepped : source.step strerror request id action = some target) :
    Effect strerror request source action target := by
  cases action with
  | create =>
      cases creator : source.creator with
      | before =>
          obtain ⟨thread, created, active⟩ := request.create_active id
          simp only [step, creator, created, Option.map_some, Option.some.injEq] at stepped
          subst target
          exact .created creator active
      | created thread | returned thread | exited descr => simp [step, creator] at stepped
  | change =>
      cases creator : source.creator with
      | created thread =>
          simp only [step, creator, Option.some.injEq] at stepped
          subst target
          exact .changed creator
      | before | returned thread | exited descr => simp [step, creator] at stepped
  | begin =>
      cases phase : source.phase with
      | ready =>
          simp only [step, phase, Option.some.injEq] at stepped
          subst target
          exact .begun phase
      | absent | running remaining | ended => simp [step, phase] at stepped
  | execute =>
      cases phase : source.phase with
      | running remaining =>
          cases remaining with
          | nil => simp [step, phase] at stepped
          | cons step rest =>
              simp only [Start.step, phase, Option.some.injEq] at stepped
              subst target
              exact .executed phase
      | absent | ready | ended => simp [step, phase] at stepped
  | finish =>
      cases phase : source.phase with
      | running remaining =>
          cases remaining with
          | nil =>
              simp only [step, phase, Option.some.injEq] at stepped
              subst target
              exact .finished phase
          | cons step rest => simp [Start.step, phase] at stepped
      | absent | ready | ended => simp [step, phase] at stepped

/-- How far the start of a thread is, with the scheduling its steps have had. -/
inductive Stage (request : Request) (inherited : Scheduling) : Start → Prop where
  | before : Stage request inherited ⟨.before, .absent, inherited, []⟩
  | created {thread : Thread} {phase : Phase} {log : List Executed}
      (active : ThreadType.joinable thread = true)
      (early : ∀ executed ∈ log, executed.scheduling = inherited) :
      Stage request inherited ⟨.created thread, phase, inherited, log⟩
  | changed {thread : Thread} {phase : Phase} {log : List Executed} :
      Stage request inherited ⟨.returned thread, phase, request.scheduling, log⟩
  | missed {thread : Thread} {log : List Executed}
      (early : ∀ executed ∈ log, executed.scheduling = inherited) :
      Stage request inherited ⟨.returned thread, .ended, inherited, log⟩

theorem Stage.advance {start : Start} (stage : Stage request inherited start)
    (present : start.phase ≠ .absent) (live : start.phase ≠ .ended) (phase : Phase)
    {later : List Executed} (same : ∀ executed ∈ later, executed.scheduling = start.scheduling) :
    Stage request inherited { start with phase, log := start.log ++ later } := by
  cases stage with
  | before => exact absurd rfl present
  | created active early =>
      refine .created active ?_
      intro executed member
      rcases List.mem_append.mp member with old | new
      · exact early executed old
      · exact same executed new
  | changed => exact .changed
  | missed early => exact absurd rfl live

theorem Stage.next {source target : Start} {action : Action}
    (stage : Stage request inherited source)
    (stepped : source.step strerror request id action = some target) :
    Stage request inherited target := by
  cases step_effect stepped with
  | created before active =>
      cases stage with
      | before => exact .created active (by simp)
      | created | changed | missed => cases before
  | changed created =>
      cases stage with
      | created active early =>
          rename_i phase log
          cases created
          by_cases ended : phase = .ended
          · subst phase
            rw [change_ended request.scheduling rfl]
            exact .missed early
          · rw [change_live request.scheduling ended active]
            exact .changed
      | before | changed | missed => cases created
  | begun ready =>
      have moved := stage.advance (by simp [ready]) (by simp [ready]) (.running request.body)
        (List.forall_mem_nil _)
      simpa using moved
  | executed running =>
      apply stage.advance (by simp [running]) (by simp [running]) _
      intro executed member
      rw [List.mem_singleton.mp member]
  | finished running =>
      have moved := stage.advance (by simp [running]) (by simp [running]) .ended
        (List.forall_mem_nil _)
      simpa using moved

/-!
## Runs
-/

theorem machine_step {start : Start} (alive : ∀ descr, start.creator ≠ .exited descr)
    (action : Action) :
    (realtimeStart strerror request id inherited).step start action =
      start.step strerror request id action := by
  cases creator : start.creator with
  | exited descr => exact absurd creator (alive descr)
  | before | created thread | returned thread => simp [realtimeStart, creator]

theorem step_of_machine {source target : Start} {action : Action}
    (stepped : (realtimeStart strerror request id inherited).step source action = some target) :
    source.step strerror request id action = some target := by
  cases creator : source.creator with
  | exited descr => simp [realtimeStart, creator] at stepped
  | before | created thread | returned thread => simpa [realtimeStart, creator] using stepped

theorem reachable_stage {start : Start}
    (reached : (realtimeStart strerror request id inherited).Reachable start) :
    Stage request inherited start := by
  apply reached.invariant (Stage request inherited) .before
  intro source action target _ stage stepped
  exact stage.next (step_of_machine stepped)

def remaining (request : Request) (start : Start) : List BodyStep :=
  match start.phase with
  | .absent | .ready => request.body
  | .running rest => rest
  | .ended => []

theorem change_frame (requested : Scheduling) (start : Start) (thread : Thread) :
    (start.change strerror requested thread).phase = start.phase ∧
      (start.change strerror requested thread).log = start.log := by
  unfold change
  split
  · exact ⟨rfl, rfl⟩
  · exact ⟨rfl, rfl⟩

theorem reachable_body {start : Start}
    (reached : (realtimeStart strerror request id inherited).Reachable start) :
    start.log.map Executed.step ++ start.remaining request = request.body := by
  refine reached.invariant (fun start => start.log.map Executed.step ++ start.remaining request =
    request.body) rfl ?_
  intro source action target reachedSource whole stepped
  cases step_effect (step_of_machine stepped) with
  | created before active =>
      cases reachable_stage reachedSource with
      | before => rfl
      | created | changed | missed => cases before
  | changed created =>
      rename_i thread
      obtain ⟨phase, log⟩ := change_frame request.scheduling source thread
      unfold remaining
      rw [phase, log]
      exact whole
  | begun ready =>
      simp only [remaining, ready] at whole ⊢
      exact whole
  | executed running =>
      simp only [remaining, running] at whole ⊢
      simpa using whole
  | finished running =>
      simp only [remaining, running] at whole ⊢
      exact whole

theorem run_returned {source target : Start} {actions : List Action} {thread : Thread}
    (ran : (realtimeStart strerror request id inherited).run source actions = some target)
    (returned : source.creator = .returned thread)
    (effective : source.scheduling = request.scheduling ∨ source.phase = .ended) :
    ∃ late, target.log = source.log ++ late ∧
      ∀ executed ∈ late, executed.scheduling = request.scheduling := by
  induction actions generalizing source with
  | nil =>
      cases ran
      exact ⟨[], (List.append_nil _).symm, List.forall_mem_nil _⟩
  | cons action actions ih =>
      obtain ⟨next, stepped, rest⟩ := Option.bind_eq_some_iff.mp ran
      cases step_effect (step_of_machine stepped) with
      | created before active => cases returned.symm.trans before
      | changed created => cases returned.symm.trans created
      | begun ready =>
          rcases effective with requested | ended
          · have later := ih rest returned (.inl requested)
            exact later
          · cases ready.symm.trans ended
      | executed running =>
          rcases effective with requested | ended
          · obtain ⟨late, log, same⟩ := ih rest returned (.inl requested)
            refine ⟨_ :: late, log.trans (List.append_assoc _ _ _), ?_⟩
            intro executed member
            rcases List.mem_cons.mp member with new | later
            · rw [new]
              exact requested
            · exact same executed later
          · cases running.symm.trans ended
      | finished running =>
          have later := ih rest returned (.inr rfl)
          exact later

theorem run_execute {creator : Creator} (alive : ∀ descr, creator ≠ .exited descr)
    (scheduling : Scheduling) (first rest : List BodyStep) (log : List Executed) :
    (realtimeStart strerror request id inherited).run
        ⟨creator, .running (first ++ rest), scheduling, log⟩
        (List.replicate first.length .execute) =
      some ⟨creator, .running rest, scheduling,
        log ++ first.map fun step => ⟨step, scheduling⟩⟩ := by
  induction first generalizing log with
  | nil => simp
  | cons head tail ih =>
      rw [List.length_cons, List.replicate_succ, Machine.run_cons, machine_step alive]
      simp only [step, List.cons_append, Option.bind_some]
      rw [ih]
      simp

theorem run_split (early : Nat) :
    ∃ actions final thread,
      (realtimeStart strerror request id inherited).run
        (realtimeStart strerror request id inherited).initial actions = some final ∧
      final.creator = .returned thread ∧ final.phase = .ended ∧
      final.log = ((request.body.take early).map fun step => ⟨step, inherited⟩) ++
        (request.body.drop early).map fun step => ⟨step, request.scheduling⟩ := by
  obtain ⟨thread, created, active⟩ := request.create_active id
  have opened : (realtimeStart strerror request id inherited).run
      (realtimeStart strerror request id inherited).initial [.create, .begin] =
      some ⟨.created thread, .running request.body, inherited, []⟩ := by
    simp [realtimeStart, step, created]
  have before := @run_execute strerror request id inherited (.created thread) (by simp) inherited
    (request.body.take early) (request.body.drop early) []
  rw [List.take_append_drop] at before
  have changed : (realtimeStart strerror request id inherited).step
      ⟨.created thread, .running (request.body.drop early), inherited,
        [] ++ (request.body.take early).map fun step => ⟨step, inherited⟩⟩ .change =
      some ⟨.returned thread, .running (request.body.drop early), request.scheduling,
        [] ++ (request.body.take early).map fun step => ⟨step, inherited⟩⟩ := by
    rw [machine_step (by simp)]
    exact congrArg some (change_live request.scheduling (by simp) active)
  have after := @run_execute strerror request id inherited (.returned thread) (by simp)
    request.scheduling (request.body.drop early) []
    ([] ++ (request.body.take early).map fun step => ⟨step, inherited⟩)
  rw [List.append_nil] at after
  refine ⟨[.create, .begin] ++ (List.replicate (request.body.take early).length .execute ++
    .change :: (List.replicate (request.body.drop early).length .execute ++ [.finish])),
    ⟨.returned thread, .ended, request.scheduling, _⟩, thread, ?_, rfl, rfl, rfl⟩
  rw [Machine.run_append, opened, Option.bind_some, Machine.run_append, before, Option.bind_some,
    Machine.run_cons, changed, Option.bind_some, Machine.run_append, after, Option.bind_some]
  rfl

theorem reachable_early {start : Start}
    (reached : (realtimeStart strerror request id inherited).Reachable start) :
    (∃ thread, start.creator = .returned thread) ∨
      ∀ executed ∈ start.log, executed.scheduling = inherited := by
  cases reachable_stage reached with
  | before => exact .inr (List.forall_mem_nil _)
  | created active early => exact .inr early
  | changed => exact .inl ⟨_, rfl⟩
  | missed early => exact .inl ⟨_, rfl⟩

theorem reachable_returned {start : Start} {thread : Thread}
    (reached : (realtimeStart strerror request id inherited).Reachable start)
    (returned : start.creator = .returned thread) :
    start.scheduling = request.scheduling ∨
      start.phase = .ended ∧ ∀ executed ∈ start.log, executed.scheduling = inherited := by
  cases reachable_stage reached with
  | before => cases returned
  | created active early => cases returned
  | changed => exact .inl rfl
  | missed early => exact .inr ⟨rfl, early⟩

theorem run_change {before after : List Action} {middle final : Start}
    (first : (realtimeStart strerror request id inherited).run
      (realtimeStart strerror request id inherited).initial before = some middle)
    (second : (realtimeStart strerror request id inherited).run middle (.change :: after) =
      some final) :
    (∀ executed ∈ middle.log, executed.scheduling = inherited) ∧
      ∃ late, final.log = middle.log ++ late ∧
        ∀ executed ∈ late, executed.scheduling = request.scheduling := by
  obtain ⟨next, stepped, rest⟩ := Option.bind_eq_some_iff.mp second
  cases reachable_stage ⟨before, first⟩ with
  | created active early =>
      rename_i thread phase log
      cases stepped
      refine ⟨early, ?_⟩
      by_cases ended : phase = .ended
      · subst phase
        rw [change_ended request.scheduling rfl] at rest
        have late := run_returned rest rfl (.inr rfl)
        exact late
      · rw [change_live request.scheduling ended active] at rest
        have late := run_returned rest rfl (.inl rfl)
        exact late
  | before | changed | missed => cases stepped

end Start

/-- The calls return whatever the interleaving. The new thread takes its first
steps with the inherited scheduling, as many as fall before the change, and
every other step with the requested one; only a thread that ends first is
never changed. -/
theorem realtime_start (strerror : Int → StdString) (request : Request) (id : ThreadId)
    (inherited : Scheduling) :
    (∀ start, (realtimeStart strerror request id inherited).Reachable start →
      (start.log.map Executed.step <+: request.body) ∧
      (∀ descr, start.creator ≠ .exited descr) ∧
      ((∃ thread, start.creator = .returned thread) ∨
        ∀ executed ∈ start.log, executed.scheduling = inherited) ∧
      (∀ thread, start.creator = .returned thread →
        start.scheduling = request.scheduling ∨
          start.phase = .ended ∧ ∀ executed ∈ start.log, executed.scheduling = inherited)) ∧
    (∀ before middle after final,
      (realtimeStart strerror request id inherited).run
        (realtimeStart strerror request id inherited).initial before = some middle →
      (realtimeStart strerror request id inherited).run middle (.change :: after) = some final →
      (∀ executed ∈ middle.log, executed.scheduling = inherited) ∧
        ∃ late, final.log = middle.log ++ late ∧
          ∀ executed ∈ late, executed.scheduling = request.scheduling) ∧
    ∀ early, ∃ actions final thread,
      (realtimeStart strerror request id inherited).run
        (realtimeStart strerror request id inherited).initial actions = some final ∧
      final.creator = .returned thread ∧ final.phase = .ended ∧
      final.log = ((request.body.take early).map fun step => ⟨step, inherited⟩) ++
        (request.body.drop early).map fun step => ⟨step, request.scheduling⟩ := by
  refine ⟨?_, ?_, Start.run_split⟩
  · intro start reached
    refine ⟨⟨_, Start.reachable_body reached⟩, ?_, Start.reachable_early reached, ?_⟩
    · intro descr exited
      cases Start.reachable_stage reached with
      | before | created | changed | missed => cases exited
    · intro thread returned
      exact Start.reachable_returned reached returned
  · intro before middle after final first second
    exact Start.run_change first second

/-- A critical task reads the clock before the change, and runs and reads it again behind it. -/
theorem realtime_start_late :
    ∃ middle final, (realtimeStart (fun _ => []) (.criticalTask MonoTask.empty 5 1) 3
        ⟨schedOther, 0⟩).run
          (realtimeStart (fun _ => []) (.criticalTask MonoTask.empty 5 1) 3 ⟨schedOther, 0⟩).initial
          [.create, .begin, .execute] = some middle ∧
      (realtimeStart (fun _ => []) (.criticalTask MonoTask.empty 5 1) 3 ⟨schedOther, 0⟩).run middle
        [.change, .execute, .execute, .finish] = some final ∧
      final.log.map Executed.step = [.readStart, .run, .readStop] ∧
      (∀ executed ∈ middle.log, executed.scheduling = ⟨schedOther, 0⟩) ∧
      ∃ late, final.log = middle.log ++ late ∧
        ∀ executed ∈ late, executed.scheduling = ⟨schedFifo, 5⟩ := by
  obtain ⟨middle, final, first, second, steps⟩ :
      ∃ middle final, (realtimeStart (fun _ => []) (.criticalTask MonoTask.empty 5 1) 3
          ⟨schedOther, 0⟩).run
            (realtimeStart (fun _ => []) (.criticalTask MonoTask.empty 5 1) 3
              ⟨schedOther, 0⟩).initial [.create, .begin, .execute] = some middle ∧
        (realtimeStart (fun _ => []) (.criticalTask MonoTask.empty 5 1) 3 ⟨schedOther, 0⟩).run middle
          [.change, .execute, .execute, .finish] = some final ∧
        final.log.map Executed.step = [.readStart, .run, .readStop] := ⟨_, _, rfl, rfl, rfl⟩
  exact ⟨middle, final, first, second, steps,
    (realtime_start (fun _ => []) (.criticalTask MonoTask.empty 5 1) 3 ⟨schedOther, 0⟩).2.1 _
      middle _ final first second⟩

/-- The function, or its first time measurement, runs with `SCHED_OTHER`. -/
theorem body_before_change :
    ¬ AlwaysRealtime (fun _ => []) (.thread schedFifo 1 1) 0 ⟨schedOther, 0⟩ ∧
      ¬ AlwaysRealtime (fun _ => []) (.criticalTask MonoTask.empty 1 1) 0 ⟨schedOther, 0⟩ := by
  constructor
  · intro always
    have ran := always _ ⟨[.create, .begin, .execute], rfl⟩ _ (List.mem_singleton_self _)
    exact absurd ran (by decide)
  · intro always
    have ran := always _ ⟨[.create, .begin, .execute], rfl⟩ _ (List.mem_singleton_self _)
    exact absurd ran (by decide)

end Libpreempt.Preempt
