import Libpreempt.Preempt.LastError
import Libpreempt.Preempt.PolyTaskProperties
import Libpreempt.Base.ThreadingProperties

/-! The text of a failure stays with the object, not with the thread. A
`mono_task` gives it to the next thread, and the growth of the vector of a
`poly_task` drops it. Every other call leaves each thread with its own text. -/

set_option autoImplicit false

namespace Libpreempt.Preempt

open Libpreempt.Base Libpreempt.Stdlib Libpreempt.Transition

/-- The objects of a task show the failures of the threads they hold. The
threads are known to the caller, and no two objects hold the same one. -/
structure Tracked (threads : List Thread) (created : Nat) (failure : ThreadId → StdString) :
    Prop where
  shows : ∀ thread ∈ threads, ShowsFailure failure thread
  bounded : ∀ thread ∈ threads, ∀ id, ThreadType.getId thread = some id → id < created
  distinct : ∀ (left right : Nat) (first second : Thread) (id : ThreadId),
    threads[left]? = some first → threads[right]? = some second →
    ThreadType.getId first = some id → ThreadType.getId second = some id → left = right
  fresh : ∀ id, created ≤ id → failure id = []

section

variable {threads : List Thread} {created : Nat} {failure : ThreadId → StdString}

theorem tracked_nil : Tracked [] 0 fun _ => [] where
  shows thread member := absurd member List.not_mem_nil
  bounded thread member := absurd member List.not_mem_nil
  distinct left right first second id present := by simp at present
  fresh id bound := rfl

theorem tracked_singleton {thread : Thread} (shown : ShowsFailure failure thread)
    (bounded : ∀ id, ThreadType.getId thread = some id → id < created)
    (fresh : ∀ id, created ≤ id → failure id = []) : Tracked [thread] created failure := by
  refine ⟨?_, ?_, ?_, fresh⟩
  · intro other member
    rw [List.mem_singleton.mp member]
    exact shown
  · intro other member
    rw [List.mem_singleton.mp member]
    exact bounded
  · intro left right first second id present other _ _
    have leftBound := (List.getElem?_eq_some_iff.mp present).1
    have rightBound := (List.getElem?_eq_some_iff.mp other).1
    simp only [List.length_singleton] at leftBound rightBound
    omega

theorem Tracked.release (tracked : Tracked threads created failure) {after : List Thread}
    (kept : ∀ (index : Nat) (thread : Thread), after[index]? = some thread →
      ThreadType.getId thread = none ∨ threads[index]? = some thread) :
    Tracked after created failure := by
  have holding : ∀ (index : Nat) (thread : Thread) (id : ThreadId), after[index]? = some thread →
      ThreadType.getId thread = some id → threads[index]? = some thread := by
    intro index thread id present known
    rcases kept index thread present with gone | same
    · rw [gone] at known
      cases known
    · exact same
  refine ⟨?_, ?_, ?_, tracked.fresh⟩
  · intro thread member id known
    obtain ⟨index, present⟩ := List.mem_iff_getElem?.mp member
    exact tracked.shows thread (List.mem_of_getElem? (holding index thread id present known)) id
      known
  · intro thread member id known
    obtain ⟨index, present⟩ := List.mem_iff_getElem?.mp member
    exact tracked.bounded thread (List.mem_of_getElem? (holding index thread id present known)) id
      known
  · intro left right first second id present other firstKnown secondKnown
    exact tracked.distinct left right first second id (holding left first id present firstKnown)
      (holding right second id other secondKnown) firstKnown secondKnown

theorem Tracked.append (tracked : Tracked threads created failure) {thread : Thread}
    (known : ThreadType.getId thread = some created) (silent : thread.lastError = []) :
    Tracked (threads ++ [thread]) (created + 1) failure := by
  refine ⟨?_, ?_, ?_, ?_⟩
  · intro other member id same
    rcases List.mem_append.mp member with old | new
    · exact tracked.shows other old id same
    · rw [List.mem_singleton.mp new] at same ⊢
      rw [known] at same
      cases same
      rw [silent, tracked.fresh created (Nat.le_refl created)]
  · intro other member id same
    rcases List.mem_append.mp member with old | new
    · exact Nat.lt_succ_of_lt (tracked.bounded other old id same)
    · rw [List.mem_singleton.mp new, known] at same
      cases same
      exact Nat.lt_succ_self created
  · intro left right first second id present other firstKnown secondKnown
    -- only the last object holds the thread `created`
    have old : ∀ (index : Nat) (held : Thread), threads[index]? = some held →
        ThreadType.getId held = some id → id < created :=
      fun index held found heldKnown =>
        tracked.bounded held (List.mem_of_getElem? found) id heldKnown
    have new : ThreadType.getId thread = some id → created = id :=
      fun same => Option.some.inj (known.symm.trans same)
    rcases getElem?_append_singleton present with leftOld | ⟨leftLast, rfl⟩
    · rcases getElem?_append_singleton other with rightOld | ⟨_, rfl⟩
      · exact tracked.distinct left right first second id leftOld rightOld firstKnown secondKnown
      · exact absurd (new secondKnown).symm (Nat.ne_of_lt (old left first leftOld firstKnown))
    · rcases getElem?_append_singleton other with rightOld | ⟨rightLast, _⟩
      · exact absurd (new firstKnown).symm (Nat.ne_of_lt (old right second rightOld secondKnown))
      · rw [leftLast, rightLast]
  · intro id bound
    exact tracked.fresh id (Nat.le_of_succ_le bound)

theorem Tracked.relocate (tracked : Tracked threads created failure)
    (silent : ∀ thread ∈ threads, ThreadType.joinable thread = true → thread.lastError = []) :
    Tracked (threads.map ThreadType.moveConstruct) created failure := by
  refine ⟨?_, ?_, ?_, tracked.fresh⟩
  · intro moved member id known
    obtain ⟨thread, present, rfl⟩ := List.mem_map.mp member
    rw [LawfulThreadType.getId_moveConstruct] at known
    rw [Thread.lastError_moveConstruct, ← tracked.shows thread present id known,
      silent thread present (joinable_eq_true_iff.mpr ⟨id, known⟩)]
  · intro moved member id known
    obtain ⟨thread, present, rfl⟩ := List.mem_map.mp member
    exact tracked.bounded thread present id
      ((LawfulThreadType.getId_moveConstruct thread).symm.trans known)
  · intro left right first second id present other firstKnown secondKnown
    rw [List.getElem?_map] at present other
    obtain ⟨firstThread, firstAt, rfl⟩ := Option.map_eq_some_iff.mp present
    obtain ⟨secondThread, secondAt, rfl⟩ := Option.map_eq_some_iff.mp other
    rw [LawfulThreadType.getId_moveConstruct] at firstKnown secondKnown
    exact tracked.distinct left right firstThread secondThread id firstAt secondAt firstKnown
      secondKnown

theorem recordFailure_other (strerror : Int → StdString) {holder : Option ThreadId}
    {id : ThreadId} (different : holder ≠ some id) (success : Bool) (errnum : Int) :
    recordFailure strerror failure holder success errnum id = failure id := by
  cases holder with
  | none => rfl
  | some held =>
      cases success with
      | true => rfl
      | false =>
          refine Function.update_of_ne ?_ _ _
          intro same
          exact different (congrArg some same.symm)

theorem recordFailure_fresh (strerror : Int → StdString) {holder : Option ThreadId}
    (bounded : ∀ id, holder = some id → id < created)
    (fresh : ∀ id, created ≤ id → failure id = []) (success : Bool) (errnum : Int) (id : ThreadId)
    (bound : created ≤ id) :
    recordFailure strerror failure holder success errnum id = [] := by
  rw [recordFailure_other, fresh id bound]
  intro held
  exact absurd (bounded id held) (Nat.not_lt_of_le bound)

theorem showsFailure_tryScheduling (strerror : Int → StdString) {thread : Thread}
    (shown : ShowsFailure failure thread) (policy priority errnum : Int) :
    ShowsFailure
      (recordFailure strerror failure (ThreadType.getId thread)
        (thread.tryScheduling strerror policy priority errnum).1 errnum)
      (thread.tryScheduling strerror policy priority errnum).2 := by
  intro id known
  rw [Thread.getId_tryScheduling] at known
  rw [Thread.lastError_tryScheduling, known]
  cases (thread.tryScheduling strerror policy priority errnum).1 with
  | true => exact shown id known
  | false => exact (Function.update_self id _ failure).symm

theorem Tracked.tryScheduling (tracked : Tracked threads created failure)
    (strerror : Int → StdString) {index : Nat} {thread : Thread}
    (present : threads[index]? = some thread) (policy priority errnum : Int) :
    Tracked (threads.set index (thread.tryScheduling strerror policy priority errnum).2) created
      (recordFailure strerror failure (ThreadType.getId thread)
        (thread.tryScheduling strerror policy priority errnum).1 errnum) := by
  have member := List.mem_of_getElem? present
  -- every object holds the thread it held before
  have before : ∀ (place : Nat) (held : Thread),
      (threads.set index (thread.tryScheduling strerror policy priority errnum).2)[place]? =
        some held →
      ∃ old, threads[place]? = some old ∧ ThreadType.getId old = ThreadType.getId held ∧
        (place = index ∧ held = (thread.tryScheduling strerror policy priority errnum).2 ∨
          place ≠ index ∧ held = old) := by
    intro place held found
    by_cases same : place = index
    · rw [same, List.getElem?_set_self (List.getElem?_eq_some_iff.mp present).1] at found
      cases found
      exact ⟨thread, same ▸ present, rfl, .inl ⟨same, rfl⟩⟩
    · rw [List.getElem?_set_ne (Ne.symm same)] at found
      exact ⟨held, found, rfl, .inr ⟨same, rfl⟩⟩
  refine ⟨?_, ?_, ?_, ?_⟩
  · intro held heldMember
    obtain ⟨place, found⟩ := List.mem_iff_getElem?.mp heldMember
    obtain ⟨old, oldAt, sameId, ⟨_, rfl⟩ | ⟨different, rfl⟩⟩ := before place held found
    · exact showsFailure_tryScheduling strerror (tracked.shows thread member) policy priority
        errnum
    · intro id known
      rw [recordFailure_other, tracked.shows held (List.mem_of_getElem? oldAt) id known]
      intro holder
      exact different (tracked.distinct place index held thread id oldAt present known holder)
  · intro held heldMember id known
    obtain ⟨place, found⟩ := List.mem_iff_getElem?.mp heldMember
    obtain ⟨old, oldAt, sameId, _⟩ := before place held found
    exact tracked.bounded old (List.mem_of_getElem? oldAt) id (sameId.trans known)
  · intro left right first second id firstAt secondAt firstKnown secondKnown
    obtain ⟨oldFirst, oldFirstAt, sameFirst, _⟩ := before left first firstAt
    obtain ⟨oldSecond, oldSecondAt, sameSecond, _⟩ := before right second secondAt
    exact tracked.distinct left right oldFirst oldSecond id oldFirstAt oldSecondAt
      (sameFirst.trans firstKnown) (sameSecond.trans secondKnown)
  · intro id bound
    exact recordFailure_fresh strerror (tracked.bounded thread member) tracked.fresh _ errnum id
      bound

end

/-!
## `mono_task`
-/

namespace MonoTask

variable {strerror : Int → StdString}

theorem lastError_spawn {task after : MonoTask Thread} {temporary : Except SystemError Thread}
    (returned : task.spawn temporary = .returned after) :
    after.thread.lastError = task.thread.lastError := by
  have joined : ∀ middle, task.join = .returned middle →
      middle.thread.lastError = task.thread.lastError := by
    intro middle ended
    unfold join at ended
    split at ended
    · cases result : ThreadType.join task.thread with
      | error error =>
          rw [result] at ended
          cases ended
      | ok thread =>
          rw [result] at ended
          cases ended
          exact Thread.lastError_join result
    · cases ended
      rfl
  unfold spawn at returned
  cases ended : task.join with
  | thrown middle error =>
      rw [ended] at returned
      cases returned
  | terminated =>
      rw [ended] at returned
      cases returned
  | returned middle =>
      rw [ended] at returned
      cases temporary with
      | error error => cases returned
      | ok temporary =>
          cases assigned : ThreadType.moveAssign middle.thread temporary with
          | none =>
              simp only [assigned] at returned
              cases returned
          | some thread =>
              simp only [assigned] at returned
              cases returned
              rw [Thread.lastError_moveAssign assigned, joined middle ended]

def Recorded.Tracked (recorded : Recorded (MonoTask Thread)) : Prop :=
  Preempt.Tracked [recorded.task.thread] recorded.created recorded.failure

theorem tracked_vacant {source : Recorded (MonoTask Thread)} (tracked : Recorded.Tracked source)
    {task : MonoTask Thread} (inactive : task.joinable = false) :
    Recorded.Tracked { source with task } := by
  have vacant := joinable_eq_false_iff.mp inactive
  refine tracked_singleton ?_ ?_ tracked.fresh
  · intro id known
    cases vacant.symm.trans known
  · intro id known
    cases vacant.symm.trans known

theorem errorLaw_of_unguarded {source target : Recorded (MonoTask Thread)} {call : Call}
    (other : call ≠ .spawn true) (later : Recorded.Tracked target) :
    (ErrorLaw source call target ↔ ErrorGuard source call) ∧
      (ErrorLaw source call target → Recorded.Tracked target) := by
  refine ⟨iff_of_true (later.shows _ (List.mem_singleton_self _)) ?_, fun _ => later⟩
  intro created
  exact absurd created other

/-- A step leaves the right text exactly when it is guarded, and then the
threads stay tracked. -/
theorem perform_errorLaw {source target : Recorded (MonoTask Thread)} {call : Call}
    (tracked : Recorded.Tracked source) (performed : perform strerror source call = some target) :
    (ErrorLaw source call target ↔ ErrorGuard source call) ∧
      (ErrorLaw source call target → Recorded.Tracked target) := by
  cases call with
  | spawn constructed =>
      cases constructed with
      | false =>
          obtain ⟨after, ended, inactive⟩ := source.task.spawn_thrown .resourceUnavailable
          simp only [perform, ThreadType.construct, Bool.false_eq_true, if_false, ended,
            Option.some.injEq] at performed
          subst target
          exact errorLaw_of_unguarded (by simp) (tracked_vacant tracked inactive)
      | true =>
          obtain ⟨after, ended, known⟩ :=
            source.task.spawn_returned (ThreadType.launched source.created)
          have same := lastError_spawn ended
          simp only [perform, ThreadType.construct, if_true, ended, Option.some.injEq] at performed
          subst target
          rw [LawfulThreadType.getId_launched] at known
          have silent := tracked.fresh source.created (Nat.le_refl _)
          refine ⟨?_, ?_⟩
          · constructor
            · intro law _
              rw [← same, law source.created known, silent]
            · intro guarded id held
              cases known.symm.trans held
              rw [same, guarded rfl, silent]
          · intro law
            apply tracked_singleton law
            · intro id held
              cases known.symm.trans held
              exact Nat.lt_succ_self _
            · intro id bound
              exact tracked.fresh id (Nat.le_of_succ_le bound)
  | tryScheduling policy priority errnum =>
      cases performed
      have first : [source.task.thread][0]? = some source.task.thread := rfl
      exact errorLaw_of_unguarded (by simp)
        (tracked.tryScheduling strerror first policy priority errnum)
  | join =>
      obtain ⟨after, ended, inactive⟩ := source.task.join_spec
      simp only [perform, ended, Option.some.injEq] at performed
      subst target
      exact errorLaw_of_unguarded (by simp) (tracked_vacant tracked inactive)

theorem errorLaw_iff_guarded (calls : List Call) :
    (errorMachine strerror).EachStep ErrorLaw (errorMachine strerror).initial calls ↔
      (errorMachine strerror).EachStep (fun source call _ => ErrorGuard source call)
        (errorMachine strerror).initial calls := by
  refine Machine.eachStep_iff_guarded Recorded.Tracked ?_ ?_ ?_ calls
  · intro source call target tracked performed
    exact (perform_errorLaw tracked performed).1
  · intro source call target tracked performed
    exact (perform_errorLaw tracked performed).2
  · apply tracked_singleton
    · intro id known
      cases known
    · intro id known
      cases known
    · intro id bound
      rfl

end MonoTask

/-!
## `poly_task`
-/

namespace PolyTask

variable {strerror : Int → StdString} {growth : Growth}

def Recorded.Tracked (recorded : Recorded (PolyTask Thread)) : Prop :=
  Preempt.Tracked recorded.task.threads.elements recorded.created recorded.failure

theorem errorLaw_of_unguarded {source target : Recorded (PolyTask Thread)} {call : ErrorCall}
    (other : call ≠ .spawn true) (later : Recorded.Tracked target) :
    (ErrorLaw source call target ↔ ErrorGuard source call) ∧
      (ErrorLaw source call target → Recorded.Tracked target) := by
  refine ⟨iff_of_true later.shows ?_, fun _ => later⟩
  intro created
  exact absurd created other

theorem perform_errorLaw {source target : Recorded (PolyTask Thread)} {call : ErrorCall}
    (tracked : Recorded.Tracked source)
    (performed : performError strerror growth source call = some target) :
    (ErrorLaw source call target ↔ ErrorGuard source call) ∧
      (ErrorLaw source call target → Recorded.Tracked target) := by
  cases call with
  | spawn constructed =>
      cases constructed with
      | false =>
          cases performed
          exact errorLaw_of_unguarded (by simp) tracked
      | true =>
          cases performed
          cases crowded : source.task.threads.full with
          | false =>
              have later : Preempt.Tracked
                  (source.task.append growth (ThreadType.launched source.created)).threads.elements
                  (source.created + 1) source.failure := by
                rw [append, StdVector.elements_emplaceBack_room growth _ crowded]
                exact tracked.append rfl rfl
              refine ⟨iff_of_true later.shows ?_, fun _ => later⟩
              intro _ full
              cases crowded.symm.trans full
          | true =>
              have elements :
                  (source.task.append growth (ThreadType.launched source.created)).threads.elements =
                    source.task.threads.elements.map ThreadType.moveConstruct ++
                      [ThreadType.moveConstruct (ThreadType.launched source.created)] := by
                rw [append, StdVector.elements_emplaceBack_full growth _ crowded]
              have silentOf : ErrorLaw source (.spawn true)
                  { source with
                    task := source.task.append growth (ThreadType.launched source.created)
                    created := source.created + 1 } → ErrorGuard source (.spawn true) := by
                intro law _ _ thread member active
                obtain ⟨id, known⟩ := joinable_eq_true_iff.mp active
                have moved := law (ThreadType.moveConstruct thread)
                  (by
                    rw [elements]
                    exact List.mem_append_left _ (List.mem_map_of_mem member))
                  id ((LawfulThreadType.getId_moveConstruct thread).trans known)
                rw [tracked.shows thread member id known, ← moved, Thread.lastError_moveConstruct]
              have laterOf : ErrorGuard source (.spawn true) → Preempt.Tracked
                  (source.task.append growth (ThreadType.launched source.created)).threads.elements
                  (source.created + 1) source.failure := by
                intro guarded
                rw [elements]
                exact (tracked.relocate (guarded rfl crowded)).append rfl rfl
              refine ⟨⟨silentOf, fun guarded => (laterOf guarded).shows⟩, ?_⟩
              intro law
              exact laterOf (silentOf law)
  | tryScheduling index policy priority errnum =>
      cases present : source.task.threads.elements[index]? with
      | none =>
          simp only [performError, present] at performed
          cases performed
      | some element =>
          simp only [performError, present] at performed
          cases performed
          exact errorLaw_of_unguarded (by simp)
            (tracked.tryScheduling strerror present policy priority errnum)
  | join =>
      cases performed
      exact errorLaw_of_unguarded (by simp) (tracked.release fun _ _ => joinEach_getElem?)

theorem errorLaw_iff_guarded (calls : List ErrorCall) :
    (errorMachine strerror growth).EachStep ErrorLaw (errorMachine strerror growth).initial calls ↔
      (errorMachine strerror growth).EachStep (fun source call _ => ErrorGuard source call)
        (errorMachine strerror growth).initial calls := by
  refine Machine.eachStep_iff_guarded Recorded.Tracked ?_ ?_ ?_ calls
  · intro source call target tracked performed
    exact (perform_errorLaw tracked performed).1
  · intro source call target tracked performed
    exact (perform_errorLaw tracked performed).2
  · exact tracked_nil

end PolyTask

/-- The elements of a task show the failures of the threads they hold exactly
when no text is shown while `mono_task` replaces its thread, and no held thread
shows one while the vector of `poly_task` grows. -/
theorem last_error_iff (strerror : Int → StdString) (growth : Growth) :
    (∀ calls, (MonoTask.errorMachine strerror).EachStep MonoTask.ErrorLaw
        (MonoTask.errorMachine strerror).initial calls ↔
      (MonoTask.errorMachine strerror).EachStep
        (fun source call _ => MonoTask.ErrorGuard source call)
        (MonoTask.errorMachine strerror).initial calls) ∧
    ∀ calls, (PolyTask.errorMachine strerror growth).EachStep PolyTask.ErrorLaw
        (PolyTask.errorMachine strerror growth).initial calls ↔
      (PolyTask.errorMachine strerror growth).EachStep
        (fun source call _ => PolyTask.ErrorGuard source call)
        (PolyTask.errorMachine strerror growth).initial calls :=
  ⟨MonoTask.errorLaw_iff_guarded, PolyTask.errorLaw_iff_guarded⟩

/-- A `mono_task` shows the failure of thread 0 for thread 1; a `poly_task`
loses the failure of thread 0 when thread 1 makes the vector grow. -/
theorem last_error_misplaced :
    (¬ ∀ calls, (MonoTask.errorMachine fun _ => []).EachStep MonoTask.ErrorLaw
      (MonoTask.errorMachine fun _ => []).initial calls) ∧
    ¬ ∀ calls, (PolyTask.errorMachine (fun _ => []) Growth.doubling).EachStep PolyTask.ErrorLaw
      (PolyTask.errorMachine (fun _ => []) Growth.doubling).initial calls := by
  constructor
  · intro law
    have stale : errorText (fun _ => []) "FAILED: pthread_setschedparam()".toList 1 = [] :=
      law [.spawn true, .tryScheduling 1 1 1, .spawn true]
      [.spawn true, .tryScheduling 1 1 1] (.spawn true) [] _ _ rfl rfl rfl 1 rfl
    exact Thread.errorText_ne_nil _ _ _ stale
  · intro law
    have lost : [] = errorText (fun _ => []) "FAILED: pthread_setschedparam()".toList 1 :=
      law [.spawn true, .tryScheduling 0 1 1 1, .spawn true]
      [.spawn true, .tryScheduling 0 1 1 1] (.spawn true) [] _ _ rfl rfl rfl
      (ThreadType.moveConstruct (ThreadType.launched 0)) (List.mem_cons_self ..) 0 rfl
    exact Thread.errorText_ne_nil _ _ _ lost.symm

end Libpreempt.Preempt
