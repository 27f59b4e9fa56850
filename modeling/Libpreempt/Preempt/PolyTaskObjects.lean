import Libpreempt.Preempt.TaskObjects
import Libpreempt.Preempt.ThreadProgramDestruction
import Libpreempt.Transition.Simulation

/-! A `poly_task` does with thread objects what its own model says, and no call on it ends
the process before it is destroyed. -/

set_option autoImplicit false

namespace Libpreempt.Preempt

open Libpreempt.Base Libpreempt.Stdlib Libpreempt.Transition

namespace PolyTask

open ThreadProgram

/-- The objects while those of the first elements are in the new storage. -/
def layout (temporary : Option Thread) (storage moved : Nat) (threads : List Thread)
    (last : Option Thread) : Place → Option Thread
  | .temporary => temporary
  | .member => none
  | .element place index =>
      if place = storage then if index < moved then none else threads[index]?
      else if place = storage + 1 then
        if index < moved then threads[index]?.map ThreadType.moveConstruct
        else if index = threads.length then last else none
      else none

section Layout

variable (temporary : Option Thread) (storage : Nat) (threads : List Thread)

theorem layout_relocate {moved : Nat} {threads : List Thread} (last : Option Thread)
    {thread : Thread} (present : threads[moved]? = some thread) (emptied : Thread) :
    Function.update (Function.update (Function.update (layout temporary storage moved threads last)
        (.element storage moved) (some emptied))
      (.element (storage + 1) moved) (some (ThreadType.moveConstruct thread)))
      (.element storage moved) none = layout temporary storage (moved + 1) threads last := by
  have inside := (List.getElem?_eq_some_iff.mp present).1
  funext place
  cases place with
  | temporary => rfl
  | member => rfl
  | element place index =>
      simp only [Function.update_apply, layout, Place.element.injEq]
      grind

theorem layout_relocated (last : Thread) :
    layout temporary storage threads.length threads (some last) =
      layout temporary (storage + 1) 0 (threads.map ThreadType.moveConstruct ++ [last]) none := by
  funext place
  cases place with
  | temporary => rfl
  | member => rfl
  | element place index =>
      simp only [layout]
      grind

theorem layout_grow (last : Thread) :
    Function.update (layout temporary storage 0 threads none)
      (.element (storage + 1) threads.length) (some last) =
      layout temporary storage 0 threads (some last) := by
  funext place
  cases place with
  | temporary => rfl
  | member => rfl
  | element place index =>
      simp only [Function.update_apply, layout, Place.element.injEq]
      grind

theorem layout_append (last : Thread) :
    Function.update (layout temporary storage 0 threads none)
      (.element storage threads.length) (some last) =
      layout temporary storage 0 (threads ++ [last]) none := by
  funext place
  cases place with
  | temporary => rfl
  | member => rfl
  | element place index =>
      simp only [Function.update_apply, layout, Place.element.injEq]
      grind

theorem layout_set {index : Nat} (inside : index < threads.length) (thread : Thread) :
    Function.update (layout temporary storage 0 threads none) (.element storage index)
      (some thread) = layout temporary storage 0 (threads.set index thread) none := by
  funext place
  cases place with
  | temporary => rfl
  | member => rfl
  | element place other =>
      simp only [Function.update_apply, layout, Place.element.injEq]
      grind

theorem layout_temporary (other : Option Thread) (moved : Nat) (last : Option Thread) :
    Function.update (layout temporary storage moved threads last) .temporary other =
      layout other storage moved threads last := by
  funext place
  cases place with
  | temporary => rfl
  | member => rfl
  | element place index => rfl

theorem layout_element (index : Nat) :
    layout temporary storage 0 threads none (.element storage index) = threads[index]? := by
  simp [layout]

end Layout

/-!
## The vector grows
-/

section Calls

variable {ndebug : Bool} {strerror : Int → StdString}

theorem run_relocate {temporary last : Option Thread} {storage moved more : Nat}
    {threads : List Thread} (all : moved + more = threads.length) {objects : Objects}
    (running : objects.ended = none)
    (placed : objects.object = layout temporary storage moved threads last) :
    (ThreadProgram.machine Place Thread ndebug strerror).run objects
        (relocateCalls storage moved more) =
      some { objects with object := layout temporary storage threads.length threads last } := by
  induction more generalizing moved objects with
  | zero =>
      obtain rfl : moved = threads.length := all
      rw [← placed]
      rfl
  | succ more ih =>
      have inside : moved < threads.length := by omega
      have present := List.getElem?_eq_getElem inside
      have alive : objects.object (.element storage moved) = some threads[moved] := by
        simp [placed, layout, inside]
      have dead : objects.object (.element (storage + 1) moved) = none := by
        simp [placed, layout, Nat.ne_of_lt inside]
      have emptied : ((objects.assign (.element storage moved)
          (ThreadObject.movedFrom threads[moved])).assign (.element (storage + 1) moved)
          (ThreadType.moveConstruct threads[moved])).object (.element storage moved) =
          some (ThreadObject.movedFrom threads[moved]) := by
        simp [assign, Function.update_of_ne]
      have vacant : ThreadType.joinable (ThreadObject.movedFrom threads[moved]) = false :=
        joinable_eq_false_iff.mpr (LawfulThreadObject.getId_movedFrom _)
      have next := layout_relocate temporary storage last present
        (ThreadObject.movedFrom threads[moved])
      rw [← placed] at next
      rw [relocateCalls, run_call running (perform_moveConstruct dead alive),
        run_call (by exact running) (perform_destroy emptied vacant)]
      exact ih (show moved + 1 + more = threads.length by omega) running next

theorem run_destroy_temporary {objects : Objects} {temporary : Thread} {storage : Nat}
    {threads : List Thread} (running : objects.ended = none)
    (placed : objects.object = layout (some temporary) storage 0 threads none)
    (vacant : ThreadType.joinable temporary = false) :
    (ThreadProgram.machine Place Thread ndebug strerror).run objects [.destroy .temporary] =
      some { objects with object := layout none storage 0 threads none } := by
  have alive : objects.object .temporary = some temporary := by rw [placed, layout]
  rw [run_call running (perform_destroy alive vacant), ← layout_temporary (some temporary), ← placed]
  rfl

/-- The temporary is moved into the vector, and destroyed. -/
theorem run_emplace {stored : Stored} {objects : Objects} {temporary : Thread}
    {threads : List Thread} (running : objects.ended = none)
    (placed : objects.object = layout (some temporary) stored.storage 0 threads none)
    (size : stored.size = threads.length) :
    (ThreadProgram.machine Place Thread ndebug strerror).run objects
        (emplaceCalls stored ++ [.destroy .temporary]) =
      some { objects with
        object :=
          if stored.size = stored.capacity then
            layout none (stored.storage + 1) 0
              (threads.map ThreadType.moveConstruct ++ [ThreadType.moveConstruct temporary]) none
          else
            layout none stored.storage 0 (threads ++ [ThreadType.moveConstruct temporary]) none } := by
  have alive : objects.object .temporary = some temporary := by rw [placed, layout]
  have vacant : ThreadType.joinable (ThreadObject.movedFrom temporary) = false :=
    joinable_eq_false_iff.mpr (LawfulThreadObject.getId_movedFrom _)
  have moved := layout_temporary (some temporary) stored.storage threads
    (some (ThreadObject.movedFrom temporary)) 0 none
  rw [← placed] at moved
  rw [emplaceCalls, size]
  split
  · have dead : objects.object (.element (stored.storage + 1) threads.length) = none := by
      simp [placed, layout]
    have grown := layout_grow (some (ThreadObject.movedFrom temporary)) stored.storage threads
      (ThreadType.moveConstruct temporary)
    rw [← moved] at grown
    rw [List.cons_append, run_call running (perform_moveConstruct dead alive), Machine.run_append,
      run_relocate (Nat.zero_add _) (by exact running) grown, Option.bind_some, layout_relocated]
    exact run_destroy_temporary running rfl vacant
  · have dead : objects.object (.element stored.storage threads.length) = none := by
      simp [placed, layout]
    have appended := layout_append (some (ThreadObject.movedFrom temporary)) stored.storage threads
      (ThreadType.moveConstruct temporary)
    rw [← moved] at appended
    rw [List.singleton_append, run_call running (perform_moveConstruct dead alive)]
    exact run_destroy_temporary running appended vacant

/-!
## The vector is joined
-/

theorem run_join {objects : Objects} {storage : Nat} {before threads : List Thread}
    (running : objects.ended = none)
    (placed : objects.object = layout none storage 0 (before ++ threads) none)
    {known : Objects}
    (same : ∀ index, known.object (.element storage (before.length + index)) = threads[index]?) :
    (ThreadProgram.machine Place Thread ndebug strerror).run objects
        (joinCalls known storage before.length threads.length) =
      some { objects with
        object := layout none storage 0 (before ++ (joinEach threads).threads) none
        released := ((joinEach threads).joined.map (·, .joined)).reverse ++ objects.released
        thrown := (joinEach threads).error.toList ++ objects.thrown } := by
  induction threads generalizing before objects with
  | nil =>
      simp only [joinEach, ← placed]
      rfl
  | cons thread threads ih =>
      have alive : objects.object (.element storage before.length) = some thread := by
        simp [placed, layout]
      have first : known.joinable (.element storage before.length) = ThreadType.joinable thread := by
        have there := same 0
        rw [Nat.add_zero, List.getElem?_cons_zero] at there
        simp [Objects.joinable, there]
      rw [List.length_cons, joinCalls, first]
      cases active : ThreadType.joinable thread with
      | false =>
          have thrown := LawfulThreadType.join_notJoinable thread active
          have performed : objects.perform ndebug strerror (.join (.element storage before.length)) =
              some (objects.throw .invalidArgument) := by
            simp [perform, alive, thrown]
          rw [run_call running performed]
          simp only [joinEach, thrown]
          rw [← placed]
          rfl
      | true =>
          obtain ⟨joined, returned, gone⟩ := LawfulThreadType.join_joinable thread active
          have performed : objects.perform ndebug strerror (.join (.element storage before.length)) =
              some ((objects.release thread .joined).assign (.element storage before.length)
                joined) := by
            simp [perform, alive, returned]
          rw [run_call running performed]
          have next : Function.update objects.object (.element storage before.length) (some joined) =
              layout none storage 0 ((before ++ [joined]) ++ threads) none := by
            rw [placed, layout_set _ _ _ (by simp)]
            simp
          have shifted : ∀ index,
              known.object (.element storage ((before ++ [joined]).length + index)) =
                threads[index]? := by
            intro index
            have there := same (index + 1)
            rw [List.getElem?_cons_succ, Nat.add_comm index, ← Nat.add_assoc] at there
            simpa using there
          have later := ih (show ((objects.release thread .joined).assign
            (.element storage before.length) joined).ended = none from running) next shifted
          rw [List.length_append, List.length_singleton] at later
          simp only [if_true, joinEach, returned]
          refine later.trans ?_
          obtain ⟨id, held⟩ := joinable_eq_true_iff.mp active
          simp [assign, release, held]

/-!
## The vector is the task's
-/

/-- The objects are the elements of the task, none other is alive, and the process goes on. -/
structure Stored.Represents (stored : Stored) (recorded : Recorded (PolyTask Thread)) : Prop where
  placed : stored.objects.object =
    layout none stored.storage 0 recorded.task.threads.elements none
  size : stored.size = recorded.task.threads.size
  capacity : stored.capacity = recorded.task.threads.capacity
  created : stored.objects.created = recorded.created
  running : stored.objects.ended = none
  joined : ∀ release ∈ stored.objects.released, release.2 = .joined

variable {growth : Growth} {stored : Stored} {recorded : Recorded (PolyTask Thread)}

theorem full_iff (represents : stored.Represents recorded) :
    recorded.task.threads.full = true ↔ stored.size = stored.capacity := by
  rw [represents.size, represents.capacity, StdVector.full, beq_iff_eq]

theorem spawn_represents (represents : stored.Represents recorded) :
    ∃ after, (objectMachine ndebug strerror growth).step stored (.spawn true) = some after ∧
      after.Represents { recorded with
        task := recorded.task.append growth (ThreadType.launched recorded.created)
        created := recorded.created + 1 } := by
  have crowded := full_iff represents
  obtain ⟨placed, size, capacity, created, running, joined⟩ := represents
  have dead : stored.objects.object .temporary = none := by rw [placed, layout]
  have launched := layout_temporary none stored.storage recorded.task.threads.elements
    (some (ThreadType.launched recorded.created)) 0 none
  rw [← placed, ← created] at launched
  have ran : (ThreadProgram.machine Place Thread ndebug strerror).run stored.objects
      (objectCalls stored (.spawn true)) = _ :=
    (run_call running (perform_launch dead true) _).trans
      (run_emplace (by exact running) launched size)
  refine ⟨_, congrArg (Option.map _) ran, ?_⟩
  rw [append]
  cases full : recorded.task.threads.full with
  | true =>
      have noRoom := crowded.mp full
      simp only [Stored.after, if_pos noRoom]
      constructor
      · rw [StdVector.elements_emplaceBack_full _ _ full, created]
      · rw [StdVector.size_emplaceBack, ← size]
      · rw [StdVector.capacity_emplaceBack, full, ← capacity, if_pos rfl]
      · exact congrArg (· + 1) created
      · exact running
      · exact joined
  | false =>
      have room : ¬ stored.size = stored.capacity := by
        rw [← crowded, full]
        exact Bool.false_ne_true
      simp only [Stored.after, if_neg room]
      constructor
      · rw [StdVector.elements_emplaceBack_room _ _ full, created]
      · rw [StdVector.size_emplaceBack, ← size]
      · rw [StdVector.capacity_emplaceBack, full, ← capacity, if_neg Bool.false_ne_true]
      · exact congrArg (· + 1) created
      · exact running
      · exact joined

theorem spawn_failed_represents (represents : stored.Represents recorded) :
    ∃ after, (objectMachine ndebug strerror growth).step stored (.spawn false) = some after ∧
      after.Represents recorded := by
  obtain ⟨placed, size, capacity, created, running, joined⟩ := represents
  have dead : stored.objects.object .temporary = none := by rw [placed, layout]
  have ran : (ThreadProgram.machine Place Thread ndebug strerror).run stored.objects
      (objectCalls stored (.spawn false)) = _ := run_call running (perform_launch dead false) _
  exact ⟨_, congrArg (Option.map _) ran, placed, size, capacity, created, running, joined⟩

theorem tryScheduling_represents (represents : stored.Represents recorded) {index : Nat}
    {thread : Thread} (present : recorded.task.threads.elements[index]? = some thread)
    (policy priority errnum : Int) (failure : ThreadId → StdString) :
    ∃ after, (objectMachine ndebug strerror growth).step stored
        (.tryScheduling index policy priority errnum) = some after ∧
      after.Represents { recorded with
        task := ⟨recorded.task.threads.replace (recorded.task.threads.elements.set index
          (thread.tryScheduling strerror policy priority errnum).2) List.length_set⟩
        failure } := by
  obtain ⟨placed, size, capacity, created, running, joined⟩ := represents
  have inside := (List.getElem?_eq_some_iff.mp present).1
  have alive : stored.objects.object (.element stored.storage index) = some thread := by
    rw [placed, layout_element, present]
  have performed : stored.objects.perform ndebug strerror
      (.tryScheduling (.element stored.storage index) policy priority errnum) =
      some (((stored.objects.verify (verifyPriority policy priority)).answer
        (thread.tryScheduling strerror policy priority errnum).1).assign
        (.element stored.storage index)
        (thread.tryScheduling strerror policy priority errnum).2) := by
    simp only [perform, alive]
    rfl
  have ran : (ThreadProgram.machine Place Thread ndebug strerror).run stored.objects
      (objectCalls stored (.tryScheduling index policy priority errnum)) = _ :=
    run_call running performed []
  have tried := layout_set none stored.storage recorded.task.threads.elements inside
    (thread.tryScheduling strerror policy priority errnum).2
  rw [← placed] at tried
  refine ⟨_, congrArg (Option.map _) ran, tried, ?_, capacity, created, running, joined⟩
  exact size.trans List.length_set.symm

theorem join_represents (represents : stored.Represents recorded) :
    ∃ after, (objectMachine ndebug strerror growth).step stored .join = some after ∧
      after.Represents { recorded with task := recorded.task.join.1 } := by
  obtain ⟨placed, size, capacity, created, running, joined⟩ := represents
  have same : ∀ index, stored.objects.object (.element stored.storage
      (([] : List Thread).length + index)) = recorded.task.threads.elements[index]? := by
    intro index
    rw [placed, List.length_nil, Nat.zero_add, layout_element]
  have ran : (ThreadProgram.machine Place Thread ndebug strerror).run stored.objects
      (joinCalls stored.objects stored.storage 0 recorded.task.threads.size) = _ :=
    run_join running placed same
  rw [← size] at ran
  refine ⟨_, congrArg (Option.map _) ran, rfl, ?_, capacity, created, running, ?_⟩
  · exact size.trans (length_joinEach _).symm
  · intro release released
    rcases List.mem_append.mp released with new | old
    · obtain ⟨id, _, rfl⟩ := List.mem_map.mp (List.mem_reverse.mp new)
      rfl
    · exact joined release old

theorem step_represents (represents : stored.Represents recorded) (call : ErrorCall) :
    Option.Rel Stored.Represents ((objectMachine ndebug strerror growth).step stored call)
      ((errorMachine strerror growth).step recorded call) := by
  cases call with
  | spawn constructed =>
      cases constructed with
      | true =>
          obtain ⟨after, stepped, still⟩ := spawn_represents represents
          rw [stepped]
          exact .some still
      | false =>
          obtain ⟨after, stepped, still⟩ := spawn_failed_represents represents
          rw [stepped]
          exact .some still
  | tryScheduling index policy priority errnum =>
      simp only [errorMachine, performError]
      cases present : recorded.task.threads.elements[index]? with
      | none =>
          have dead : stored.objects.object (.element stored.storage index) = none := by
            rw [represents.placed, layout_element, present]
          have refused : (objectMachine ndebug strerror growth).step stored
              (.tryScheduling index policy priority errnum) = none := by
            simp [objectMachine, objectCalls, ThreadProgram.machine, represents.running, perform,
              dead]
          rw [refused]
          exact .none
      | some thread =>
          obtain ⟨after, stepped, still⟩ :=
            tryScheduling_represents represents present policy priority errnum _
          rw [stepped]
          exact .some still
  | join =>
      obtain ⟨after, stepped, still⟩ := join_represents represents
      rw [stepped]
      exact .some still

/-!
## The task is destroyed
-/

theorem reachable_objects {stored : Stored}
    (reached : (objectMachine ndebug strerror growth).Reachable stored) :
    (ThreadProgram.machine Place Thread ndebug strerror).Reachable stored.objects := by
  refine reached.invariant (fun stored =>
    (ThreadProgram.machine Place Thread ndebug strerror).Reachable stored.objects) ?_ ?_
  · exact Machine.reachable_initial
  · intro source call target _ known stepped
    obtain ⟨objects, ran, rfl⟩ := Option.map_eq_some_iff.mp stepped
    have same : (source.after growth objects call).objects = objects := by
      unfold Stored.after
      split
      · split <;> rfl
      · rfl
    rw [same]
    exact known.run ran

/-- What a `poly_task` does to the process that calls its members and destroys it. -/
def Lifecycle (ndebug : Bool) (strerror : Int → StdString) (stored : Stored)
    (recorded : Recorded (PolyTask Thread)) : Prop :=
  let final := (ThreadProgram.machine Place Thread ndebug strerror).advance stored.objects
    (destroyCalls stored)
  stored.Represents recorded ∧
    if recorded.task.joinable then final.ended = some .terminate else final.AllJoined

theorem lifecycle_of_represents (represents : stored.Represents recorded)
    (reached : (objectMachine ndebug strerror growth).Reachable stored) :
    Lifecycle ndebug strerror stored recorded := by
  have size : stored.size = recorded.task.threads.elements.length := represents.size
  have element : ∀ index, stored.objects.object (.element stored.storage index) =
      recorded.task.threads.elements[index]? := by
    intro index
    rw [represents.placed, layout_element]
  have unique : ((List.range stored.size).map (Place.element stored.storage)).Nodup := by
    refine List.nodup_range.map ?_
    intro left right same
    exact (Place.element.inj same).2
  have alive : ∀ place, place ∈ (List.range stored.size).map (Place.element stored.storage) ↔
      ∃ thread, stored.objects.object place = some thread := by
    intro place
    rw [List.mem_map]
    constructor
    · rintro ⟨index, inside, rfl⟩
      rw [List.mem_range, size] at inside
      exact ⟨_, (element index).trans (List.getElem?_eq_getElem inside)⟩
    · rintro ⟨thread, known⟩
      rw [represents.placed] at known
      cases place with
      | temporary => cases known
      | member => cases known
      | element place index =>
          simp only [layout] at known
          grind
  have active : recorded.task.joinable = true ↔
      ∃ place ∈ (List.range stored.size).map (Place.element stored.storage),
        ∃ thread, stored.objects.object place = some thread ∧ ThreadType.joinable thread = true := by
    rw [joinable, List.any_eq_true]
    constructor
    · rintro ⟨thread, present, held⟩
      obtain ⟨index, known⟩ := List.getElem?_of_mem present
      have inside := (List.getElem?_eq_some_iff.mp known).1
      rw [← size] at inside
      exact ⟨_, List.mem_map_of_mem (List.mem_range.mpr inside), thread,
        (element index).trans known, held⟩
    · rintro ⟨place, present, thread, known, held⟩
      obtain ⟨index, _, rfl⟩ := List.mem_map.mp present
      exact ⟨thread, List.mem_of_getElem? ((element index).symm.trans known), held⟩
  refine ⟨represents, ?_⟩
  have law := destroy_law unique represents.running alive (reachable_objects reached)
    represents.joined active
  rw [List.map_map] at law
  exact law

theorem run_represents (ndebug : Bool) (strerror : Int → StdString) (growth : Growth)
    (calls : List ErrorCall) :
    Option.Rel Stored.Represents
      ((objectMachine ndebug strerror growth).run (objectMachine ndebug strerror growth).initial
        calls)
      ((errorMachine strerror growth).run (errorMachine strerror growth).initial calls) := by
  refine run_rel (fun _ _ call represents => step_represents represents call) ?_ calls
  refine ⟨?_, rfl, rfl, rfl, rfl, ?_⟩
  · funext place
    cases place with
    | temporary => rfl
    | member => rfl
    | element place index =>
        simp only [layout, objectMachine, ThreadProgram.machine, errorMachine, empty,
          StdVector.empty]
        grind
  · intro release released
    cases released

theorem represents_of_reachable
    (reached : (objectMachine ndebug strerror growth).Reachable stored) :
    ∃ recorded, (errorMachine strerror growth).Reachable recorded ∧ stored.Represents recorded := by
  obtain ⟨calls, ran⟩ := reached
  have together := run_represents ndebug strerror growth calls
  rw [ran] at together
  generalize followed : (errorMachine strerror growth).run (errorMachine strerror growth).initial
    calls = final at together
  cases together with
  | some represents => exact ⟨_, ⟨calls, followed⟩, represents⟩

/-- A run of calls on a `poly_task` is one of constructors, moves, joins and destructors of thread
objects that never ends the process. The destructor of the task then ends it exactly when the task
is joinable, and otherwise every thread was joined once. -/
theorem poly_task_lifecycle (ndebug : Bool) (strerror : Int → StdString) (growth : Growth)
    (calls : List ErrorCall) :
    Option.Rel (Lifecycle ndebug strerror)
      ((objectMachine ndebug strerror growth).run (objectMachine ndebug strerror growth).initial
        calls)
      ((errorMachine strerror growth).run (errorMachine strerror growth).initial calls) := by
  have together := run_represents ndebug strerror growth calls
  generalize ran : (objectMachine ndebug strerror growth).run
    (objectMachine ndebug strerror growth).initial calls = stored,
    (errorMachine strerror growth).run (errorMachine strerror growth).initial calls = recorded
    at together ⊢
  cases together with
  | none => exact .none
  | some represents => exact .some (lifecycle_of_represents represents ⟨calls, ran⟩)

end Calls

end PolyTask

end Libpreempt.Preempt
