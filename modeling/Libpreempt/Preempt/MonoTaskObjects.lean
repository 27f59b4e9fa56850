import Libpreempt.Preempt.TaskObjects
import Libpreempt.Preempt.ThreadProgramDestruction
import Libpreempt.Transition.Simulation

/-! A `mono_task` does with thread objects what its own model says, and no call on it ends
the process before it is destroyed. -/

set_option autoImplicit false

namespace Libpreempt.Preempt

open Libpreempt.Base Libpreempt.Stdlib Libpreempt.Transition

namespace MonoTask

open ThreadProgram

/-!
## The member
-/

def layout (thread : Thread) (temporary : Option Thread) : Place → Option Thread
  | .temporary => temporary
  | .member => some thread
  | .element _ _ => none

theorem layout_temporary (thread : Thread) (temporary other : Option Thread) :
    Function.update (layout thread temporary) .temporary other = layout thread other := by
  funext place
  cases place with
  | temporary => rfl
  | member => rfl
  | element place index => rfl

theorem layout_member (thread other : Thread) (temporary : Option Thread) :
    Function.update (layout thread temporary) .member (some other) = layout other temporary := by
  funext place
  cases place with
  | temporary => rfl
  | member => rfl
  | element place index => rfl

/-- The member is the task's, no other object is alive, and the process goes on. -/
structure Represents (objects : Objects) (recorded : Recorded (MonoTask Thread)) : Prop where
  placed : objects.object = layout recorded.task.thread none
  created : objects.created = recorded.created
  running : objects.ended = none
  joined : ∀ release ∈ objects.released, release.2 = .joined

variable {ndebug : Bool} {strerror : Int → StdString} {objects : Objects}
variable {recorded : Recorded (MonoTask Thread)}

theorem join_represents (ndebug : Bool) (strerror : Int → StdString)
    (represents : Represents objects recorded) :
    ∃ after task, (ThreadProgram.machine Place Thread ndebug strerror).run objects
        (joinCalls objects) = some after ∧
      recorded.task.join = .returned task ∧ task.joinable = false ∧
      Represents after { recorded with task } := by
  obtain ⟨placed, created, running, joined⟩ := represents
  have alive : objects.object .member = some recorded.task.thread := by rw [placed, layout]
  have known : objects.joinable .member = recorded.task.joinable := by
    simp [Objects.joinable, alive, joinable]
  rw [joinCalls, known, MonoTask.join]
  cases active : recorded.task.joinable with
  | false => exact ⟨objects, recorded.task, rfl, rfl, active, placed, created, running, joined⟩
  | true =>
      obtain ⟨thread, returned, gone⟩ := LawfulThreadType.join_joinable _ active
      have performed : objects.perform ndebug strerror (.join .member) =
          some ((objects.release recorded.task.thread .joined).assign .member thread) := by
        simp [ThreadProgram.perform, alive, returned]
      have member := layout_member recorded.task.thread thread none
      rw [← placed] at member
      refine ⟨_, ⟨thread⟩, run_call running performed [], by simp [returned],
        joinable_eq_false_iff.mpr gone, member, created, running, ?_⟩
      intro release released
      rcases List.mem_append.mp released with new | old
      · obtain ⟨id, _, rfl⟩ := Option.map_eq_some_iff.mp (Option.mem_toList.mp new)
        rfl
      · exact joined release old

/-- The temporary is moved into the member, and destroyed. -/
theorem run_replace {thread temporary assigned : Thread} (running : objects.ended = none)
    (placed : objects.object = layout thread (some temporary))
    (moved : ThreadType.moveAssign thread temporary = some assigned) :
    (ThreadProgram.machine Place Thread ndebug strerror).run objects
        [.moveAssign .member .temporary, .destroy .temporary] =
      some { objects with object := layout assigned none } := by
  have member : objects.object .member = some thread := by rw [placed, layout]
  have filled : objects.object .temporary = some temporary := by rw [placed, layout]
  have vacant : ThreadType.joinable (ThreadObject.movedFrom temporary) = false :=
    joinable_eq_false_iff.mpr (LawfulThreadObject.getId_movedFrom _)
  rw [run_call running (perform_moveAssign member filled moved),
    run_call (by exact running) (perform_destroy (by exact rfl) vacant),
    ← layout_temporary assigned (some (ThreadObject.movedFrom temporary)),
    ← layout_member thread, ← layout_temporary thread (some temporary), ← placed]
  rfl

theorem launch_represents (ndebug : Bool) (strerror : Int → StdString)
    (represents : Represents objects recorded)
    (vacant : recorded.task.joinable = false) :
    ∃ after thread, (ThreadProgram.machine Place Thread ndebug strerror).run objects
        [.launch .temporary true, .moveAssign .member .temporary, .destroy .temporary] =
          some after ∧
      ThreadType.moveAssign recorded.task.thread (ThreadType.launched recorded.created) =
        some thread ∧
      Represents after { recorded with task := ⟨thread⟩, created := recorded.created + 1 } := by
  obtain ⟨placed, created, running, joined⟩ := represents
  obtain ⟨thread, assigned, _⟩ := LawfulThreadType.moveAssign_notJoinable recorded.task.thread
    (ThreadType.launched recorded.created) vacant
  have dead : objects.object .temporary = none := by rw [placed, layout]
  have launched := layout_temporary recorded.task.thread none
    (some (ThreadType.launched objects.created))
  rw [← placed] at launched
  rw [run_call running (perform_launch dead true), if_pos rfl,
    run_replace (by exact running) launched (created ▸ assigned)]
  exact ⟨_, thread, rfl, assigned, rfl, congrArg (· + 1) created, running, joined⟩

theorem launch_failed_represents (ndebug : Bool) (strerror : Int → StdString)
    (represents : Represents objects recorded) :
    ∃ after, (ThreadProgram.machine Place Thread ndebug strerror).run objects
        [.launch .temporary false] = some after ∧ Represents after recorded := by
  obtain ⟨placed, created, running, joined⟩ := represents
  have dead : objects.object .temporary = none := by rw [placed, layout]
  rw [run_call running (perform_launch dead false)]
  exact ⟨_, rfl, placed, created, running, joined⟩

theorem tryScheduling_represents (ndebug : Bool) (strerror : Int → StdString)
    (represents : Represents objects recorded) (policy priority errnum : Int)
    (failure : ThreadId → StdString) :
    ∃ after, (ThreadProgram.machine Place Thread ndebug strerror).run objects
        [.tryScheduling .member policy priority errnum] = some after ∧
      Represents after { recorded with
        task := ⟨(recorded.task.thread.tryScheduling strerror policy priority errnum).2⟩
        failure } := by
  obtain ⟨placed, created, running, joined⟩ := represents
  have alive : objects.object .member = some recorded.task.thread := by rw [placed, layout]
  have performed : objects.perform ndebug strerror (.tryScheduling .member policy priority errnum) =
      some (((objects.verify (verifyPriority policy priority)).answer
        (recorded.task.thread.tryScheduling strerror policy priority errnum).1).assign .member
        (recorded.task.thread.tryScheduling strerror policy priority errnum).2) := by
    simp only [ThreadProgram.perform, alive]
    rfl
  have tried := layout_member recorded.task.thread
    (recorded.task.thread.tryScheduling strerror policy priority errnum).2 none
  rw [← placed] at tried
  rw [run_call running performed]
  exact ⟨_, rfl, tried, created, running, joined⟩

theorem step_represents (represents : Represents objects recorded) (call : Call) :
    Option.Rel Represents ((objectMachine ndebug strerror).step objects call)
      ((errorMachine strerror).step recorded call) := by
  cases call with
  | spawn constructed =>
      obtain ⟨middle, task, ran, returned, vacant, still⟩ :=
        join_represents ndebug strerror represents
      cases constructed with
      | true =>
          obtain ⟨after, thread, launched, assigned, replaced⟩ :=
            launch_represents ndebug strerror still vacant
          have stepped : (objectMachine ndebug strerror).step objects (.spawn true) = some after := by
            simp only [objectMachine, objectCalls, Machine.run_append, ran]
            exact launched
          have followed : (errorMachine strerror).step recorded (.spawn true) =
              some { recorded with task := ⟨thread⟩, created := recorded.created + 1 } := by
            simp [errorMachine, perform, spawn, returned, ThreadType.construct, assigned]
          rw [stepped, followed]
          exact .some replaced
      | false =>
          obtain ⟨after, launched, same⟩ := launch_failed_represents ndebug strerror still
          have stepped : (objectMachine ndebug strerror).step objects (.spawn false) =
              some after := by
            simp only [objectMachine, objectCalls, Machine.run_append, ran]
            exact launched
          have followed : (errorMachine strerror).step recorded (.spawn false) =
              some { recorded with task } := by
            simp [errorMachine, perform, spawn, returned, ThreadType.construct]
          rw [stepped, followed]
          exact .some same
  | tryScheduling policy priority errnum =>
      obtain ⟨after, ran, still⟩ :=
        tryScheduling_represents ndebug strerror represents policy priority errnum _
      have stepped : (objectMachine ndebug strerror).step objects
          (.tryScheduling policy priority errnum) = some after := ran
      rw [stepped]
      exact .some still
  | join =>
      obtain ⟨after, task, ran, returned, _, still⟩ := join_represents ndebug strerror represents
      have stepped : (objectMachine ndebug strerror).step objects .join = some after := ran
      have followed : (errorMachine strerror).step recorded .join = some { recorded with task } := by
        simp [errorMachine, perform, returned]
      rw [stepped, followed]
      exact .some still

/-!
## The task is destroyed
-/

theorem reachable_objects (reached : (objectMachine ndebug strerror).Reachable objects) :
    (ThreadProgram.machine Place Thread ndebug strerror).Reachable objects := by
  refine reached.invariant (ThreadProgram.machine Place Thread ndebug strerror).Reachable ?_ ?_
  · exact ⟨[.default .member], rfl⟩
  · intro source call target _ known stepped
    exact known.run stepped

/-- What a `mono_task` does to the process that calls its members and destroys it. -/
def Lifecycle (ndebug : Bool) (strerror : Int → StdString) (objects : Objects)
    (recorded : Recorded (MonoTask Thread)) : Prop :=
  let final := (ThreadProgram.machine Place Thread ndebug strerror).advance objects destroyCalls
  Represents objects recorded ∧
    if recorded.task.joinable then final.ended = some .terminate else final.AllJoined

theorem lifecycle_of_represents (represents : Represents objects recorded)
    (reached : (objectMachine ndebug strerror).Reachable objects) :
    Lifecycle ndebug strerror objects recorded := by
  have alive : ∀ place, place ∈ [Place.member] ↔ ∃ thread, objects.object place = some thread := by
    intro place
    rw [represents.placed]
    cases place with
    | temporary => simp [layout]
    | member => simp [layout]
    | element place index => simp [layout]
  have active : recorded.task.joinable = true ↔ ∃ place ∈ [Place.member],
      ∃ thread, objects.object place = some thread ∧ ThreadType.joinable thread = true := by
    rw [represents.placed]
    simp [layout, joinable]
  exact ⟨represents, destroy_law (List.nodup_singleton _) represents.running alive
    (reachable_objects reached) represents.joined active⟩

/-- A run of calls on a `mono_task` is one of constructors, moves, joins and destructors of thread
objects that never ends the process. The destructor of the task then ends it exactly when the task
is joinable, and otherwise every thread was joined once. -/
theorem mono_task_lifecycle (ndebug : Bool) (strerror : Int → StdString) (calls : List Call) :
    Option.Rel (Lifecycle ndebug strerror)
      ((objectMachine ndebug strerror).run (objectMachine ndebug strerror).initial calls)
      ((errorMachine strerror).run (errorMachine strerror).initial calls) := by
  have start : Represents (objectMachine ndebug strerror).initial
      (errorMachine strerror).initial := by
    refine ⟨?_, rfl, rfl, ?_⟩
    · funext place
      cases place with
      | temporary => rfl
      | member => rfl
      | element place index => rfl
    · intro release released
      cases released
  have kept : ∀ objects recorded call, Represents objects recorded →
      Option.Rel Represents ((objectMachine ndebug strerror).step objects call)
        ((errorMachine strerror).step recorded call) :=
    fun _ _ call represents => step_represents represents call
  have together := run_rel kept start calls
  generalize ran : (objectMachine ndebug strerror).run (objectMachine ndebug strerror).initial
    calls = objects, (errorMachine strerror).run (errorMachine strerror).initial calls = recorded
    at together ⊢
  cases together with
  | none => exact .none
  | some represents => exact .some (lifecycle_of_represents represents ⟨calls, ran⟩)

end MonoTask

end Libpreempt.Preempt
