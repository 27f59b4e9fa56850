import Libpreempt.Preempt.PolyTaskObjects
import Libpreempt.Preempt.PolyTaskProperties

/-! The reference that `poly_task::spawn` returns: how long there is an object where it
refers to, and which thread that object represents. -/

set_option autoImplicit false

namespace Libpreempt.Preempt.PolyTask

open Libpreempt.Base Libpreempt.Stdlib Libpreempt.Transition

variable {ndebug : Bool} {strerror : Int → StdString} {growth : Growth}

/-!
## The storage of a run
-/

theorem step_storage {source target : Stored} {call : ErrorCall}
    (stepped : (objectMachine ndebug strerror growth).step source call = some target) :
    if call = .spawn true then
      target.size = source.size + 1 ∧
        if source.size = source.capacity then
          target.storage = source.storage + 1 ∧ target.capacity = growth.next source.capacity
        else target.storage = source.storage ∧ target.capacity = source.capacity
    else target.size = source.size ∧ target.storage = source.storage ∧
      target.capacity = source.capacity := by
  obtain ⟨objects, _, rfl⟩ := Option.map_eq_some_iff.mp stepped
  cases call with
  | spawn constructed =>
      cases constructed with
      | false => simp [Stored.after]
      | true =>
          by_cases full : source.size = source.capacity
          · simp [Stored.after, full]
          · simp [Stored.after, full]
  | tryScheduling index policy priority errnum => simp [Stored.after]
  | join => simp [Stored.after]

/-- The elements stay where they are as long as the new ones fit. -/
theorem run_storage {source target : Stored} {calls : List ErrorCall}
    (fits : source.size ≤ source.capacity)
    (ran : (objectMachine ndebug strerror growth).run source calls = some target) :
    target.size = source.size + calls.count (.spawn true) ∧ source.storage ≤ target.storage ∧
      (target.storage = source.storage ↔
        source.size + calls.count (.spawn true) ≤ source.capacity) := by
  induction calls generalizing source with
  | nil =>
      cases ran
      simpa using fits
  | cons call calls ih =>
      obtain ⟨next, stepped, rest⟩ := Option.bind_eq_some_iff.mp ran
      have law := step_storage stepped
      by_cases spawned : call = .spawn true
      · rw [if_pos spawned] at law
        rw [spawned, List.count_cons_self]
        obtain ⟨size, law⟩ := law
        by_cases full : source.size = source.capacity
        · rw [if_pos full] at law
          obtain ⟨storage, capacity⟩ := law
          have grows := growth.grows source.capacity
          obtain ⟨total, later, _⟩ := ih (by omega) rest
          refine ⟨by omega, by omega, ?_⟩
          constructor
          · intro same
            omega
          · intro room
            omega
        · rw [if_neg full] at law
          obtain ⟨storage, capacity⟩ := law
          obtain ⟨total, later, same⟩ := ih (by omega) rest
          rw [storage, size, capacity] at same
          refine ⟨by omega, by omega, same.trans ?_⟩
          omega
      · rw [if_neg spawned] at law
        rw [List.count_cons_of_ne spawned]
        obtain ⟨size, storage, capacity⟩ := law
        obtain ⟨total, later, same⟩ := ih (by omega) rest
        rw [storage, size, capacity] at same
        exact ⟨by omega, by omega, same⟩

/-!
## The threads of the elements
-/

/-- The elements were appended in the order in which their threads were created. -/
structure InOrder (recorded : Recorded (PolyTask Thread)) : Prop where
  length : recorded.task.ids.length = recorded.created
  own : ∀ index (id : ThreadId), recorded.task.ids[index]? = some (some id) → id = index

theorem ids_getElem? (task : PolyTask Thread) (index : Nat) :
    task.ids[index]? = task.threads.elements[index]?.map ThreadType.getId :=
  List.getElem?_map

theorem step_inOrder {source target : Recorded (PolyTask Thread)} {call : ErrorCall}
    (ordered : InOrder source)
    (stepped : (errorMachine strerror growth).step source call = some target) :
    InOrder target := by
  cases call with
  | spawn constructed =>
      cases constructed with
      | false =>
          cases stepped
          exact ordered
      | true =>
          cases stepped
          have ids := ids_append growth source.task (ThreadType.launched source.created)
          refine ⟨?_, ?_⟩
          · rw [ids, List.length_append, ordered.length, List.length_singleton]
          · intro index id present
            rw [ids] at present
            rcases getElem?_append_singleton present with before | ⟨place, new⟩
            · exact ordered.own index id before
            · rw [LawfulThreadType.getId_launched] at new
              cases new
              exact ordered.length.symm.trans place.symm
  | tryScheduling index policy priority errnum =>
      simp only [errorMachine, performError] at stepped
      cases present : source.task.threads.elements[index]? with
      | none =>
          rw [present] at stepped
          cases stepped
      | some element =>
          rw [present] at stepped
          cases stepped
          have same : (source.task.threads.elements.set index
              (element.tryScheduling strerror policy priority errnum).2).map ThreadType.getId =
              source.task.ids := by
            obtain ⟨inside, rfl⟩ := List.getElem?_eq_some_iff.mp present
            rw [List.map_set, Thread.getId_tryScheduling, ← List.map_set, List.set_getElem_self]
            rfl
          have ids : (⟨source.task.threads.replace _ List.length_set⟩ : PolyTask Thread).ids =
            source.task.ids := same
          exact ⟨(congrArg List.length ids).trans ordered.length, fun place id known =>
            ordered.own place id (ids ▸ known)⟩
  | join =>
      cases stepped
      refine ⟨(length_ids_join source.task).trans ordered.length, ?_⟩
      intro index id present
      rw [ids_getElem?] at present
      obtain ⟨thread, known, held⟩ := Option.map_eq_some_iff.mp present
      rcases joinEach_getElem? known with gone | before
      · rw [held] at gone
        cases gone
      · refine ordered.own index id ?_
        rw [ids_getElem?, before, Option.map_some, held]

theorem inOrder_of_reachable {recorded : Recorded (PolyTask Thread)}
    (reached : (errorMachine strerror growth).Reachable recorded) : InOrder recorded := by
  refine reached.invariant InOrder ?_ fun source call target _ ordered => step_inOrder ordered
  exact ⟨rfl, fun index id known => by cases known⟩

/-!
## The object behind the reference
-/

theorem object_element {stored : Stored} {recorded : Recorded (PolyTask Thread)}
    (represents : stored.Represents recorded) {storage : Nat} (old : storage ≤ stored.storage)
    (index : Nat) :
    stored.objects.object (.element storage index) =
      if storage = stored.storage then recorded.task.threads.elements[index]? else none := by
  have notNew : storage ≠ stored.storage + 1 := by omega
  simp [represents.placed, layout, notNew]

/-- A thread that no element represents was joined. -/
theorem joined_of_absent {stored : Stored} {recorded : Recorded (PolyTask Thread)}
    (reached : (objectMachine ndebug strerror growth).Reachable stored)
    (represents : stored.Represents recorded) {id : ThreadId} (created : id < recorded.created)
    (absent : ∀ thread ∈ recorded.task.threads.elements, ThreadType.getId thread ≠ some id) :
    (id, .joined) ∈ stored.objects.released := by
  have accounted := ThreadProgram.accounted_of_reachable (reachable_objects reached)
  rw [← represents.created] at created
  rcases (accounted.covers id).mp created with ⟨place, held⟩ | gone
  · obtain ⟨thread, known, held⟩ := Option.bind_eq_some_iff.mp held
    rw [represents.placed] at known
    refine absurd held (absent thread ?_)
    cases place with
    | temporary => cases known
    | member => cases known
    | element place index =>
        simp only [layout] at known
        grind
  · obtain ⟨⟨id, way⟩, present, rfl⟩ := List.mem_map.mp gone
    obtain rfl : way = .joined := represents.joined _ present
    exact present

/-- There is an object where the reference that `spawn` returned refers to exactly as long as the
threads that are spawned later fit the capacity of the vector. It represents the thread that was
spawned, or none when this one was joined. -/
theorem spawned_reference_valid_iff (ndebug : Bool) (strerror : Int → StdString) (growth : Growth)
    (calls later : List ErrorCall) {stored spawned final : Stored}
    (ran : (objectMachine ndebug strerror growth).run
      (objectMachine ndebug strerror growth).initial calls = some stored)
    (stepped : (objectMachine ndebug strerror growth).step stored (.spawn true) = some spawned)
    (went : (objectMachine ndebug strerror growth).run spawned later = some final) :
    let object := final.objects.object (.element spawned.storage stored.size)
    (object.isSome ↔ spawned.size + later.count (.spawn true) ≤ spawned.capacity) ∧
      ∀ thread, object = some thread →
        ThreadType.getId thread = some stored.objects.created ∨
          ThreadType.getId thread = none ∧
            (stored.objects.created, .joined) ∈ final.objects.released := by
  have reached : (objectMachine ndebug strerror growth).Reachable stored := ⟨calls, ran⟩
  have ended := (reached.next stepped).run went
  obtain ⟨first, firstly, before⟩ := represents_of_reachable reached
  obtain ⟨middle, _, between⟩ := represents_of_reachable (reached.next stepped)
  obtain ⟨last, lastly, after⟩ := represents_of_reachable ended
  have fits : spawned.size ≤ spawned.capacity := by
    rw [between.size, between.capacity]
    exact middle.task.threads.fits
  obtain ⟨total, older, same⟩ := run_storage fits went
  have number : stored.size = stored.objects.created := by
    rw [before.size, before.created, ← (inOrder_of_reachable firstly).length, ids, List.length_map]
    rfl
  have inside : stored.size < last.task.threads.elements.length := by
    have size : final.size = last.task.threads.elements.length := after.size
    have grown : spawned.size = stored.size + 1 := (step_storage stepped).1
    omega
  have ordered := inOrder_of_reachable lastly
  intro object
  have shape : object = _ := object_element after older stored.size
  rw [← same, shape, ← number]
  by_cases kept : spawned.storage = final.storage
  · rw [if_pos kept, List.getElem?_eq_getElem inside]
    refine ⟨iff_of_true rfl kept.symm, ?_⟩
    intro thread present
    have owner : last.task.ids[stored.size]? = some (ThreadType.getId thread) := by
      rw [ids_getElem?, List.getElem?_eq_getElem inside, present, Option.map_some]
    cases held : ThreadType.getId thread with
    | some id =>
        rw [held] at owner
        exact .inl (congrArg some (ordered.own stored.size id owner))
    | none =>
        rw [held] at owner
        refine .inr ⟨rfl, joined_of_absent ended after ?_ ?_⟩
        · rw [← ordered.length, ids, List.length_map]
          exact inside
        · intro other member known
          obtain ⟨index, found⟩ := List.getElem?_of_mem member
          have place := ordered.own index stored.size
            (by rw [ids_getElem?, found, Option.map_some, known])
          rw [place, ids_getElem?, found, Option.map_some, known] at owner
          cases owner
  · rw [if_neg kept]
    refine ⟨iff_of_false Bool.false_ne_true (Ne.symm kept), ?_⟩
    intro thread known
    cases known

/-- The first of two references is lost when the vector grows to hold the second thread. -/
theorem spawned_reference_valid_iff_doubling :
    ∃ stored spawned final, (objectMachine false (fun _ => []) .doubling).run
        (objectMachine false (fun _ => []) .doubling).initial [] = some stored ∧
      (objectMachine false (fun _ => []) .doubling).step stored (.spawn true) = some spawned ∧
      (objectMachine false (fun _ => []) .doubling).run spawned [.spawn true] = some final ∧
      ¬ (final.objects.object (.element spawned.storage stored.size)).isSome := by
  refine ⟨_, _, _, rfl, rfl, rfl, ?_⟩
  rw [(spawned_reference_valid_iff false (fun _ => []) .doubling [] [.spawn true] rfl rfl rfl).1]
  decide

end Libpreempt.Preempt.PolyTask
