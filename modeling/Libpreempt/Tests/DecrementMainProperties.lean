import Libpreempt.Tests.DecrementMain

/-! Which tables `main` can be called with: whatever the order of its threads, no check
fails, and it exits with `EXIT_FAILURE` only where a thread cannot be created. -/

set_option autoImplicit false

namespace Libpreempt.Tests.Decrement

open Libpreempt.Base Libpreempt.Scheduling Libpreempt.Transition

variable {strerror : Int → StdString} {accepts : Int → Bool} {highest : Nat}

/-- Every table passes, up to the first one whose first thread the system refuses. -/
def Suitable (highest : Nat) : List Call → Prop
  | [] => True
  | call :: calls =>
      Passes highest call.policy call.priorityTable ∧
        (Refused highest call.priorityTable ∨ Suitable highest calls)

instance decidableSuitable (highest : Nat) : (calls : List Call) → Decidable (Suitable highest calls)
  | [] => inferInstanceAs (Decidable True)
  | call :: calls =>
      have := decidableSuitable highest calls
      inferInstanceAs (Decidable (Passes highest call.policy call.priorityTable ∧
        (Refused highest call.priorityTable ∨ Suitable highest calls)))

/-!
## A failed check is not forgotten
-/

theorem decrement_unverified {priorityTable : List Int} {state next : State} {index : Nat}
    (stepped : state.decrement priorityTable index = some next)
    (failed : state.verified = false) : next.verified = false := by
  rw [State.decrement] at stepped
  cases point : state.point index with
  | absent | ended =>
      rw [point] at stepped
      cases stepped
  | entry | compared | loaded value | written =>
      rw [point] at stepped
      cases stepped
      simp [State.move, failed]

theorem stepAs_unverified {policy : Int} {priorityTable : List Int} {state next : State}
    {move : Move} (stepped : state.stepAs strerror accepts policy priorityTable move = some next)
    (failed : state.verified = false) : next.verified = false := by
  cases move with
  | act action =>
      obtain ⟨_, stepped⟩ := Option.ite_none_right_eq_some.mp stepped
      cases action with
      | set =>
          obtain ⟨_, performed⟩ := Option.ite_none_right_eq_some.mp stepped
          cases performed
          simp [failed]
      | create results =>
          obtain ⟨_, performed⟩ := Option.ite_none_right_eq_some.mp stepped
          obtain ⟨priority, _, rfl⟩ := Option.map_eq_some_iff.mp performed
          simp [State.create, failed]
      | join =>
          obtain ⟨_, performed⟩ := Option.ite_none_right_eq_some.mp stepped
          cases present : state.context[state.joined]? with
          | none =>
              rw [present] at performed
              cases performed
          | some handle =>
              rw [present] at performed
              obtain ⟨_, performed⟩ := Option.ite_none_right_eq_some.mp performed
              cases performed
              simp [failed]
      | finish =>
          obtain ⟨_, performed⟩ := Option.ite_none_right_eq_some.mp stepped
          cases performed
          simp [failed]
      | thread index =>
          obtain ⟨_, performed⟩ := Option.ite_none_right_eq_some.mp stepped
          exact decrement_unverified performed failed
  | expire =>
      cases current : state.current with
      | none => simp [State.stepAs, current] at stepped
      | some index =>
          simp only [State.stepAs, current] at stepped
          obtain ⟨_, performed⟩ := Option.ite_none_right_eq_some.mp stepped
          cases performed
          exact failed

/-!
## The calls are made one after the other
-/

namespace Main

variable {calls : List Call} {main : Main}

theorem run_move (globalValue : Int) (main : Main) (moves : List Move) :
    (Decrement.main strerror accepts calls).run main (moves.map .move) =
      ((runPolicy strerror accepts main.call.policy main.call.priorityTable globalValue).run
        main.state moves).map fun state => { main with state } := by
  induction moves generalizing main with
  | nil => rfl
  | cons move moves ih =>
      rw [List.map_cons, Machine.run_cons, Machine.run_cons]
      cases stepped : (runPolicy strerror accepts main.call.policy main.call.priorityTable
          globalValue).step main.state move with
      | none =>
          have refused : (Decrement.main strerror accepts calls).step main (.move move) = none :=
            congrArg (Option.map _) stepped
          rw [refused]
          rfl
      | some next =>
          have performed : (Decrement.main strerror accepts calls).step main (.move move) =
              some { main with state := next } := congrArg (Option.map _) stepped
          rw [performed]
          exact ih { main with state := next }

/-- The call that `main` is in goes on without a failure to create a thread. -/
structure Live (main : Main) : Prop where
  tidy : Tidy main.call.priorityTable main.state
  present : main.state.creator ≠ .exited

theorem live_enter (strerror : Int → StdString) (main : Main) (call : Call)
    (pending : List Call) : (main.enter strerror call pending).Live where
  tidy := tidy_initial strerror call.policy call.priorityTable main.state.globalValue
    main.state.verified
  present := by simp [enter, run]

/-- Some order of its threads ends the call that `main` is in; the process exits in it only if the
system refuses a priority of the table. -/
theorem Live.finish (strerror : Int → StdString) (accepts : Int → Bool) (calls : List Call)
    (live : main.Live) :
    ∃ labels state, (Decrement.main strerror accepts calls).run main labels =
        some { main with state } ∧
      (state.creator = .finished ∧ Live { main with state } ∨
        state.creator = .exited ∧ ∃ priority ∈ main.call.priorityTable, accepts priority = false) ∧
      (main.state.verified = false → state.verified = false) := by
  let call := main.call
  have progress : ∀ source : State,
      (Proper call.priorityTable source ∧
        (source.creator = .exited → ∃ priority ∈ call.priorityTable, accepts priority = false) ∧
        (main.state.verified = false → source.verified = false)) →
      (source.creator = .finished ∨ source.creator = .exited) ∨ ∃ move target,
        (runPolicy strerror accepts call.policy call.priorityTable 0).step source move =
          some target ∧
        (Proper call.priorityTable target ∧
          (target.creator = .exited → ∃ priority ∈ call.priorityTable, accepts priority = false) ∧
          (main.state.verified = false → target.verified = false)) ∧
        target.work call.priorityTable.length < source.work call.priorityTable.length := by
    rintro source ⟨proper, _, kept⟩
    by_cases exited : source.creator = .exited
    · exact .inl (.inr exited)
    · have tidy := proper.resolve_left exited
      rcases tidy.progress strerror accepts call.policy exited with done | ⟨move, next, stepped, why⟩
      · exact .inl (.inl done)
      · obtain ⟨still, used⟩ := tidy.step stepped
        exact .inr ⟨move, next, stepped, ⟨still, why,
          fun failed => stepAs_unverified stepped (kept failed)⟩, used⟩
  obtain ⟨moves, state, ran, ⟨proper, why, kept⟩, done⟩ :=
    Machine.exists_run_of_progress progress
      ⟨.inr live.tidy, fun exited => absurd exited live.present, id⟩
  refine ⟨moves.map .move, state, ?_, ?_, kept⟩
  · rw [run_move 0, ran, Option.map_some]
  · rcases done with finished | exited
    · have present : state.creator ≠ .exited := by simp [finished]
      exact .inl ⟨finished, proper.resolve_left present, present⟩
    · exact .inr ⟨exited, why exited⟩

theorem step_call (strerror : Int → StdString) (accepts : Int → Bool) (calls : List Call)
    (main : Main) {call : Call} {pending : List Call} (finished : main.state.creator = .finished)
    (next : main.pending = call :: pending) :
    (Decrement.main strerror accepts calls).step main .call =
      some (main.enter strerror call pending) := by
  simp [Decrement.main, Main.step, next, finished]

theorem enter_initial (strerror : Int → StdString) (accepts : Int → Bool) (call : Call)
    (pending : List Call) (verified : main.state.verified = true) :
    (main.enter strerror call pending).state =
      (runPolicy strerror accepts call.policy call.priorityTable main.state.globalValue).initial := by
  rw [enter, verified]
  rfl

/-!
## Suitable tables
-/

/-- `main` is before its first call, or in a run of one of its calls that no failed check
preceded. -/
inductive Sound (strerror : Int → StdString) (highest : Nat) (calls : List Call) (main : Main) :
    Prop where
  | begin (first : main = .begin calls)
  | inside (globalValue : Int)
      (reached : (runPolicy strerror (upTo highest) main.call.policy main.call.priorityTable
        globalValue).Reachable main.state)
      (realtime : Realtime main.call.policy)
      (suitable : Suitable highest (main.call :: main.pending))
      (later : ∀ call ∈ main.pending, Realtime call.policy)

theorem begin_move (strerror : Int → StdString) (accepts : Int → Bool) (calls : List Call)
    (move : Move) : (begin calls).step strerror accepts (.move move) = none := by
  cases move with
  | act action =>
      cases action with
      | set | create | join | finish => simp [Main.step, begin, State.stepAs, State.step, run]
      | thread index => simp [Main.step, begin, State.stepAs, State.step, State.decrement, run]
  | expire => rfl

theorem Sound.verified (sound : Sound strerror highest calls main) :
    main.state.verified = true := by
  cases sound with
  | begin first =>
      subst first
      rfl
  | inside globalValue reached realtime suitable _ =>
      exact (run_passes_iff strerror highest realtime main.call.priorityTable globalValue).mpr
        suitable.1 main.state reached

theorem Sound.step {next : Main} {progress : Progress}
    (realtime : ∀ call ∈ calls, Realtime call.policy) (suitable : Suitable highest calls)
    (sound : Sound strerror highest calls main)
    (stepped : main.step strerror (upTo highest) progress = some next) :
    Sound strerror highest calls next := by
  have verified := sound.verified
  cases progress with
  | call =>
      cases pending : main.pending with
      | nil => simp [Main.step, pending] at stepped
      | cons call rest =>
          simp only [Main.step, pending] at stepped
          obtain ⟨finished, entered⟩ := Option.ite_none_right_eq_some.mp stepped
          cases entered
          have left : Suitable highest (call :: rest) ∧
              ∀ other ∈ call :: rest, Realtime other.policy := by
            cases sound with
            | begin first =>
                subst first
                cases pending
                exact ⟨suitable, realtime⟩
            | inside _ reached _ suitable later =>
                rw [pending] at suitable later
                refine ⟨suitable.2.resolve_left fun refused => ?_, later⟩
                -- a call whose first thread is refused does not return
                exact (refused.reachable reached).1.not_finished finished
          refine .inside main.state.globalValue ?_ (left.2 call List.mem_cons_self) left.1
            fun other member => left.2 other (List.mem_cons_of_mem call member)
          rw [enter_initial strerror (upTo highest) call rest verified]
          exact Machine.reachable_initial
  | move move =>
      obtain ⟨state, moved, rfl⟩ := Option.map_eq_some_iff.mp stepped
      cases sound with
      | begin first =>
          subst first
          cases (begin_move strerror (upTo highest) calls move).symm.trans stepped
      | inside globalValue reached realtime suitable later =>
          exact .inside globalValue (reached.next moved) realtime suitable later

/-!
## Tables that are not
-/

/-- Behind a failed check some order of the threads leads to `EXIT_FAILURE`. -/
theorem Live.fails {pending : List Call} (live : main.Live)
    (reached : (Decrement.main strerror accepts calls).Reachable main)
    (failed : main.state.verified = false) (next : main.pending = pending) :
    ∃ final, (Decrement.main strerror accepts calls).Reachable final ∧
      final.exitStatus = some 1 ∧ final.state.verified = false := by
  induction pending generalizing main with
  | nil =>
      obtain ⟨labels, state, ran, outcome, kept⟩ := live.finish strerror accepts calls
      refine ⟨_, reached.run ran, ?_, kept failed⟩
      rcases outcome with ⟨finished, _⟩ | ⟨exited, _⟩
      · simp [exitStatus, finished, next, kept failed]
      · simp [exitStatus, exited]
  | cons call pending ih =>
      obtain ⟨labels, state, ran, outcome, kept⟩ := live.finish strerror accepts calls
      rcases outcome with ⟨finished, _⟩ | ⟨exited, _⟩
      · have entered := step_call strerror accepts calls { main with state } finished next
        exact ih (live_enter strerror { main with state } call pending)
          ((reached.run ran).next entered) (kept failed) rfl
      · exact ⟨_, reached.run ran, by simp [exitStatus, exited], kept failed⟩

/-- Where no check of the process ever fails, the calls that are still to come are suitable. -/
theorem suitable_of_passes {pending : List Call}
    (passes : ∀ main, (Decrement.main strerror (upTo highest) calls).Reachable main →
      main.exitStatus = some 1 → main.state.verified = true)
    (realtime : ∀ call ∈ pending, Realtime call.policy)
    (reached : (Decrement.main strerror (upTo highest) calls).Reachable main)
    (finished : main.state.creator = .finished) (verified : main.state.verified = true)
    (next : main.pending = pending) : Suitable highest pending := by
  have kept : ∀ later : Main, (Decrement.main strerror (upTo highest) calls).Reachable later →
      later.Live → later.state.verified = true := by
    intro later reached live
    by_contra failed
    obtain ⟨final, reachedFinal, exit, unverified⟩ :=
      live.fails reached (Bool.eq_false_iff.mpr failed) rfl
    cases (passes final reachedFinal exit).symm.trans unverified
  induction pending generalizing main with
  | nil => trivial
  | cons call pending ih =>
      have entered := step_call strerror (upTo highest) calls main finished next
      have inCall := reached.next entered
      have live := live_enter strerror main call pending
      have callPasses : Passes highest call.policy call.priorityTable := by
        refine (run_passes_iff strerror highest (realtime call List.mem_cons_self)
          call.priorityTable main.state.globalValue).mp ?_
        rintro state ⟨moves, went⟩
        have moved : (Decrement.main strerror (upTo highest) calls).run
            (main.enter strerror call pending) (moves.map .move) =
            some { main.enter strerror call pending with state } := by
          rw [run_move main.state.globalValue,
            enter_initial strerror (upTo highest) call pending verified]
          exact congrArg (Option.map _) went
        by_cases exited : state.creator = .exited
        · exact passes _ (inCall.run moved) (by simp [exitStatus, exited])
        · have tidy : Tidy call.priorityTable state :=
            (Machine.run_preserves (Proper call.priorityTable)
              (fun source move target proper stepped => (proper_step source move target proper
                stepped).1)
              (.inr (tidy_initial strerror call.policy call.priorityTable _ true)) went).resolve_left
              exited
          exact kept _ (inCall.run moved) ⟨tidy, exited⟩
      refine ⟨callPasses, ?_⟩
      by_cases refused : Refused highest call.priorityTable
      · exact .inl refused
      · right
        rw [Passes, if_neg refused] at callPasses
        obtain ⟨positive, sorted⟩ := callPasses
        have accepted := accepted_of_positive refused sorted.descending positive
        obtain ⟨labels, state, ran, outcome, _⟩ := live.finish strerror (upTo highest) calls
        rcases outcome with ⟨done, still⟩ | ⟨_, priority, member, denied⟩
        · exact ih (fun other member => realtime other (List.mem_cons_of_mem call member))
            (inCall.run ran) done (kept _ (inCall.run ran) still) rfl
        · cases (accepted priority member).symm.trans denied

end Main

/-- Whatever calls of `run` the process makes: in every order of its threads it exits with
`EXIT_FAILURE` only where a thread cannot be created and no check has failed, exactly when its tables
are suitable. -/
theorem main_passes_iff (strerror : Int → StdString) (highest : Nat) (calls : List Call)
    (realtime : ∀ call ∈ calls, Realtime call.policy) :
    (∀ main, (Decrement.main strerror (upTo highest) calls).Reachable main →
      main.exitStatus = some 1 → main.state.creator = .exited ∧ main.state.verified = true) ↔
      Suitable highest calls := by
  constructor
  · intro passes
    exact Main.suitable_of_passes (fun main reached exit => (passes main reached exit).2) realtime
      Machine.reachable_initial rfl rfl rfl
  · intro suitable main reached failed
    have sound : Main.Sound strerror highest calls main := by
      refine reached.invariant (Main.Sound strerror highest calls) (.begin rfl) ?_
      intro source progress target _ sound stepped
      exact sound.step realtime suitable stepped
    have verified := sound.verified
    refine ⟨?_, verified⟩
    rw [Main.exitStatus] at failed
    cases creator : main.state.creator with
    | exited => rfl
    | start | running =>
        rw [creator] at failed
        cases failed
    | finished =>
        rw [creator, verified] at failed
        simp at failed

/-- A table that suits `SCHED_FIFO`, under both policies. -/
theorem main_passes_iff_both :
    ¬ ∀ main, (Decrement.main (fun _ => []) (upTo 99)
        [⟨schedFifo, [10, 10]⟩, ⟨schedRr, [10, 10]⟩]).Reachable main →
      main.exitStatus = some 1 → main.state.creator = .exited ∧ main.state.verified = true := by
  intro passes
  have suitable := (main_passes_iff (fun _ => []) 99 [⟨schedFifo, [10, 10]⟩, ⟨schedRr, [10, 10]⟩]
    (by simp [Realtime])).mp passes
  exact absurd suitable (by decide)

/-- The calls of the source, on a system that accepts the priorities of POSIX. -/
example : Suitable 32 calls := by decide

end Libpreempt.Tests.Decrement
