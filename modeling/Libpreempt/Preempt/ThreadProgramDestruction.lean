import Libpreempt.Preempt.ThreadProgramProperties

/-! Calls on variables that return, and the destructors of all variables at the end of
their scope. -/

set_option autoImplicit false

namespace Libpreempt.Preempt

open Libpreempt.Base Libpreempt.Ownership Libpreempt.Stdlib Libpreempt.Transition

namespace ThreadProgram

/-!
## Calls that return
-/

variable {Var Object : Type} [DecidableEq Var] [ThreadObject Object]
variable {ndebug : Bool} {strerror : Int → StdString} {program : ThreadProgram Var Object}

theorem run_call {next : ThreadProgram Var Object} {call : ObjectCall Var}
    (running : program.ended = none) (performed : program.perform ndebug strerror call = some next)
    (calls : List (ObjectCall Var)) :
    (machine Var Object ndebug strerror).run program (call :: calls) =
      (machine Var Object ndebug strerror).run next calls := by
  have stepped : (machine Var Object ndebug strerror).step program call = some next :=
    (if_pos running).trans performed
  rw [Machine.run_cons, stepped, Option.bind_some]

theorem perform_launch {target : Var} (dead : program.object target = none) (constructed : Bool) :
    program.perform ndebug strerror (.launch target constructed) =
      some (if constructed then
        { program.assign target (ThreadType.launched program.created) with
          created := program.created + 1 }
      else program.throw .resourceUnavailable) := by
  cases constructed with
  | false => simp [perform, dead, launch, place, ThreadType.construct]
  | true => simp [perform, dead, launch, place, ThreadType.construct]

theorem perform_moveConstruct {target source : Var} {other : Object}
    (dead : program.object target = none) (alive : program.object source = some other) :
    program.perform ndebug strerror (.moveConstruct target source) =
      some ((program.assign source (ThreadObject.movedFrom other)).assign target
        (ThreadType.moveConstruct other)) := by
  simp [perform, dead, alive]

theorem perform_moveAssign {target source : Var} {object other assigned : Object}
    (alive : program.object target = some object) (filled : program.object source = some other)
    (moved : ThreadType.moveAssign object other = some assigned) :
    program.perform ndebug strerror (.moveAssign target source) =
      some ((program.assign source (ThreadObject.movedFrom other)).assign target assigned) := by
  simp [perform, alive, filled, moved]

variable [LawfulThreadObject Object]

theorem perform_destroy {target : Var} {object : Object}
    (alive : program.object target = some object) (vacant : ThreadType.joinable object = false) :
    program.perform ndebug strerror (.destroy target) = some (program.remove target) := by
  have passed := LawfulThreadObject.verifyDestructor_vacant ndebug object vacant
  simp [perform, alive, vacant, passed, verify]

/-!
## Variables are destroyed
-/

/-- The destructors of variables, in the order in which they are called. -/
theorem run_destroy {vars : List Var} (unique : vars.Nodup) (running : program.ended = none)
    (vacant : ∀ var ∈ vars, ∃ object, program.object var = some object ∧
      ThreadType.joinable object = false) :
    (machine Var Object ndebug strerror).run program (vars.map .destroy) =
      some { program with
        object := fun var => if var ∈ vars then none else program.object var } := by
  induction vars generalizing program with
  | nil =>
      simp only [List.not_mem_nil, if_false]
      rfl
  | cons var vars ih =>
      obtain ⟨other, unique⟩ := List.nodup_cons.mp unique
      obtain ⟨object, alive, idle⟩ := vacant var List.mem_cons_self
      have rest : ∀ later ∈ vars, ∃ object, (program.remove var).object later = some object ∧
          ThreadType.joinable object = false := by
        intro later present
        obtain ⟨object, alive, idle⟩ := vacant later (List.mem_cons_of_mem var present)
        have apart : later ≠ var := fun same => other (same ▸ present)
        exact ⟨object, by simpa [remove, Function.update_of_ne apart] using alive, idle⟩
      rw [List.map_cons, run_call running (perform_destroy alive idle),
        ih unique (by exact running) rest]
      have same : (fun later => if later ∈ vars then none else (program.remove var).object later) =
          fun later => if later ∈ var :: vars then none else program.object later := by
        funext later
        by_cases here : later = var
        · simp [here, remove]
        · simp [here, remove]
      rw [same]
      rfl

theorem advance_destroy {vars : List Var} (unique : vars.Nodup) (running : program.ended = none)
    (alive : ∀ var ∈ vars, ∃ object, program.object var = some object)
    (busy : ∃ var ∈ vars, ∃ object, program.object var = some object ∧
      ThreadType.joinable object = true) :
    ((machine Var Object ndebug strerror).advance program (vars.map .destroy)).ended =
      some .terminate := by
  induction vars generalizing program with
  | nil =>
      obtain ⟨var, absent, _⟩ := busy
      cases absent
  | cons var vars ih =>
      obtain ⟨other, unique⟩ := List.nodup_cons.mp unique
      obtain ⟨object, known⟩ := alive var List.mem_cons_self
      have kept : ∀ later ∈ vars, (program.remove var).object later = program.object later := by
        intro later present
        have apart : later ≠ var := fun same => other (same ▸ present)
        exact Function.update_of_ne apart _ _
      rw [List.map_cons]
      cases active : ThreadType.joinable object with
      | true =>
          have performed : (machine Var Object ndebug strerror).step program (.destroy var) =
              some ((program.verify (ThreadObject.verifyDestructor ndebug object)).finish
                .terminate) := by
            simp [machine, running, perform, known, active]
          rw [Machine.advance_of_step performed]
          cases vars with
          | nil => rfl
          | cons next vars =>
              rw [List.map_cons, Machine.advance_of_refused]
              · rfl
              · rfl
      | false =>
          have performed : (machine Var Object ndebug strerror).step program (.destroy var) =
              some (program.remove var) := (if_pos running).trans (perform_destroy known active)
          rw [Machine.advance_of_step performed]
          refine ih unique running ?_ ?_
          · intro later present
            rw [kept later present]
            exact alive later (List.mem_cons_of_mem var present)
          · obtain ⟨later, present, thread, held, joinable⟩ := busy
            rcases List.mem_cons.mp present with rfl | present
            · rw [known] at held
              cases held
              rw [active] at joinable
              cases joinable
            · exact ⟨later, present, thread, (kept later present).trans held, joinable⟩

/-- The variables are destroyed, and every thread was joined once. -/
structure AllJoined (program : ThreadProgram Var Object) : Prop where
  running : program.ended = none
  destroyed : ∀ var, program.object var = none
  joined : program.released.Perm ((List.range program.created).map (·, .joined))

theorem AllJoined.of_released (reached : (machine Var Object ndebug strerror).Reachable program)
    (running : program.ended = none) (destroyed : ∀ var, program.object var = none)
    (joined : ∀ release ∈ program.released, release.2 = .joined) : program.AllJoined where
  running := running
  destroyed := destroyed
  joined := by
    have same : (program.released.map Prod.fst).map (·, .joined) = program.released := by
      rw [List.map_map]
      refine (List.map_congr_left ?_).trans (List.map_id _)
      intro release present
      exact Prod.ext rfl (joined release present).symm
    rw [← same]
    exact (released_of_destroyed reached destroyed).map _

theorem destroy_law {vars : List Var} (unique : vars.Nodup) (running : program.ended = none)
    (alive : ∀ var, var ∈ vars ↔ ∃ object, program.object var = some object)
    (reached : (machine Var Object ndebug strerror).Reachable program)
    (joined : ∀ release ∈ program.released, release.2 = .joined) {joinable : Bool}
    (active : joinable = true ↔ ∃ var ∈ vars, ∃ object, program.object var = some object ∧
      ThreadType.joinable object = true) :
    let final := (machine Var Object ndebug strerror).advance program (vars.map .destroy)
    if joinable then final.ended = some .terminate else final.AllJoined := by
  cases joinable with
  | true =>
      exact advance_destroy unique running (fun var present => (alive var).mp present)
        (active.mp rfl)
  | false =>
      have vacant : ∀ var ∈ vars, ∃ object, program.object var = some object ∧
          ThreadType.joinable object = false := by
        intro var present
        obtain ⟨object, known⟩ := (alive var).mp present
        refine ⟨object, known, Bool.eq_false_iff.mpr ?_⟩
        intro held
        cases active.mpr ⟨var, present, object, known, held⟩
      have ran : (machine Var Object ndebug strerror).run program (vars.map .destroy) = _ :=
        run_destroy unique running vacant
      rw [Machine.advance_of_run ran]
      refine .of_released (reached.run ran) running ?_ joined
      intro var
      by_cases present : var ∈ vars
      · exact if_pos present
      · have dead := mt (alive var).mpr present
        refine (if_neg present).trans ?_
        exact Option.eq_none_iff_forall_ne_some.mpr fun object known => dead ⟨object, known⟩

end ThreadProgram

end Libpreempt.Preempt
