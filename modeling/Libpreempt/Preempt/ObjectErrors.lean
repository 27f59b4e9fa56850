import Libpreempt.Preempt.LastErrorProperties
import Libpreempt.Preempt.ThreadProgramProperties

/-! The texts that `last_error()` shows in a program of `preempt::thread` objects.
Moves and `swap()` take the thread along and leave the text behind. -/

set_option autoImplicit false

namespace Libpreempt.Preempt

open Libpreempt.Base Libpreempt.Ownership Libpreempt.Stdlib Libpreempt.Transition

variable {Var : Type}

/-- A program with the description of the latest failing `try_scheduling` of each thread. -/
structure Described (Var : Type) where
  program : ThreadProgram Var Thread
  failure : ThreadId → StdString

namespace Described

/-- `change_scheduling` does not return when it fails. -/
def record (strerror : Int → StdString) (source : Described Var) :
    ObjectCall Var → ThreadId → StdString
  | .tryScheduling target policy priority errnum =>
      match source.program.object target with
      | none => source.failure
      | some thread =>
          recordFailure strerror source.failure (ThreadType.getId thread)
            (thread.tryScheduling strerror policy priority errnum).1 errnum
  | _ => source.failure

def machine (Var : Type) [DecidableEq Var] (ndebug : Bool) (strerror : Int → StdString) :
    Machine (Described Var) (ObjectCall Var) where
  initial := ⟨(ThreadProgram.machine Var Thread ndebug strerror).initial, fun _ => []⟩
  step source call :=
    ((ThreadProgram.machine Var Thread ndebug strerror).step source.program call).map fun program =>
      ⟨program, source.record strerror call⟩

def Shows (failure : ThreadId → StdString) (object : Var → Option Thread) : Prop :=
  ∀ var thread, object var = some thread → ShowsFailure failure thread

def ErrorLaw (_ : Described Var) (_ : ObjectCall Var) (target : Described Var) : Prop :=
  Shows target.failure target.program.object

/-- A thread changes its object only between equal texts. -/
def ErrorGuard (source : Described Var) : ObjectCall Var → Prop
  | .moveConstruct _ other =>
      ∀ moved, source.program.object other = some moved → ThreadType.joinable moved = true →
        moved.lastError = []
  | .moveAssign target other =>
      ∀ thread moved, source.program.object target = some thread →
        source.program.object other = some moved → ThreadType.joinable thread = false →
        ThreadType.joinable moved = true → thread.lastError = moved.lastError
  | .swap left right =>
      ∀ first second, source.program.object left = some first →
        source.program.object right = some second →
        ThreadType.joinable first = true ∨ ThreadType.joinable second = true →
        first.lastError = second.lastError
  | _ => True

/-!
## Objects that change
-/

section Shows

variable {failure : ThreadId → StdString}

theorem showsFailure_of_vacant {thread : Thread} (vacant : ThreadType.getId thread = none) :
    ShowsFailure failure thread := by
  intro id known
  cases vacant.symm.trans known

/-- An object that takes over a thread shows its failure if it has the same text. -/
theorem showsFailure_iff {thread other : Thread}
    (same : ThreadType.getId thread = ThreadType.getId other)
    (shown : ShowsFailure failure other) :
    ShowsFailure failure thread ↔
      (ThreadType.joinable other = true → thread.lastError = other.lastError) := by
  constructor
  · intro law active
    obtain ⟨id, known⟩ := joinable_eq_true_iff.mp active
    rw [law id (same.trans known), shown id known]
  · intro agree id known
    have held := same.symm.trans known
    rw [agree (joinable_eq_true_iff.mpr ⟨id, held⟩), shown id held]

variable [DecidableEq Var] {object : Var → Option Thread}

theorem shows_update (shows : Shows failure object) (target : Var) (thread : Thread) :
    Shows failure (Function.update object target (some thread)) ↔ ShowsFailure failure thread := by
  constructor
  · intro law
    exact law target thread (Function.update_self ..)
  · intro shown var other present
    by_cases same : var = target
    · subst same
      rw [Function.update_self] at present
      cases present
      exact shown
    · rw [Function.update_of_ne same] at present
      exact shows var other present

theorem Shows.remove (shows : Shows failure object) (target : Var) :
    Shows failure (Function.update object target none) := by
  intro var other present
  by_cases same : var = target
  · subst same
    rw [Function.update_self] at present
    cases present
  · rw [Function.update_of_ne same] at present
    exact shows var other present

/-- The source of a move is left without a thread. -/
theorem shows_move (shows : Shows failure object) (target source : Var) (moved thread : Thread) :
    Shows failure (Function.update (Function.update object source (some moved.movedFrom)) target
      (some thread)) ↔ ShowsFailure failure thread :=
  shows_update ((shows_update shows source _).mpr (showsFailure_of_vacant rfl)) target thread

theorem shows_update_two (shows : Shows failure object) {left right : Var} (different : left ≠ right)
    (first second : Thread) :
    Shows failure (Function.update (Function.update object left (some first)) right (some second)) ↔
      ShowsFailure failure first ∧ ShowsFailure failure second := by
  constructor
  · intro law
    refine ⟨law left first ?_, law right second (Function.update_self ..)⟩
    rw [Function.update_of_ne different, Function.update_self]
  · rintro ⟨firstShown, secondShown⟩
    exact (shows_update ((shows_update shows left first).mpr firstShown) right second).mpr secondShown

theorem shows_swap (shows : Shows failure object) {left right : Var} {first second : Thread}
    (alive : object left = some first) (otherAlive : object right = some second) :
    Shows failure (Function.update
        (Function.update object left (some (ThreadObject.swap first second).1)) right
        (some (ThreadObject.swap first second).2)) ↔
      (ThreadType.joinable first = true ∨ ThreadType.joinable second = true →
        first.lastError = second.lastError) := by
  by_cases same : left = right
  · subst same
    cases alive.symm.trans otherAlive
    refine iff_of_true ?_ fun _ => rfl
    have kept := (shows_update shows left first).mpr (shows left first alive)
    exact (shows_update kept left first).mpr (shows left first alive)
  · obtain ⟨taken, given⟩ := LawfulThreadObject.getId_swap first second
    rw [shows_update_two shows same, showsFailure_iff taken (shows right second otherAlive),
      showsFailure_iff given (shows left first alive)]
    constructor
    · rintro ⟨ofSecond, ofFirst⟩ (active | active)
      · exact (ofFirst active).symm
      · exact ofSecond active
    · intro agree
      exact ⟨fun active => agree (.inr active), fun active => (agree (.inl active)).symm⟩

end Shows

theorem changeScheduling_same {strerror : Int → StdString} {thread changed : Thread}
    {policy priority errnum : Int}
    (returned : ThreadObject.changeScheduling strerror thread policy priority errnum =
      some changed) : changed = thread := by
  have outcome := LawfulThreadObject.changeScheduling_eq strerror thread policy priority errnum
  split at outcome
  · next allowed =>
      rw [Schedulable, decide_eq_true_eq] at allowed
      simp only [ThreadObject.changeScheduling, Thread.changeScheduling] at returned
      rw [Base.changeScheduling_of_success strerror
        (show thread.joinable = false ∨ errnum = 0 ∨ errnum = esrch from allowed)] at returned
      exact (Option.some.inj returned).symm
  · cases outcome.symm.trans returned

section Step

variable [DecidableEq Var] {ndebug : Bool} {strerror : Int → StdString}

theorem object_change (program : ThreadProgram Var Thread) {target : Var} {thread : Thread}
    (alive : program.object target = some thread) (policy priority errnum : Int) :
    (program.change strerror target thread policy priority errnum).object = program.object := by
  simp only [ThreadProgram.change]
  split
  · next changed returned =>
      rw [changeScheduling_same returned]
      exact (congrArg (Function.update program.object target) alive.symm).trans
        (Function.update_eq_self target program.object)
  · rfl

/-- Every object shows the failure of its thread, and only threads of the program have failed. -/
structure Tracked (source : Described Var) : Prop where
  shows : Shows source.failure source.program.object
  accounted : source.program.custody.Accounted
  fresh : ∀ id, source.program.created ≤ id → source.failure id = []

omit [DecidableEq Var] in
theorem record_fresh {source : Described Var} (tracked : Tracked source) (call : ObjectCall Var)
    (id : ThreadId) (bound : source.program.created ≤ id) : source.record strerror call id = [] := by
  cases call with
  | tryScheduling target policy priority errnum =>
      simp only [record]
      cases alive : source.program.object target with
      | none => exact tracked.fresh id bound
      | some thread =>
          have known : ∀ id, ThreadType.getId thread = some id → id < source.program.created := by
            intro id held
            exact (tracked.accounted.covers id).mpr
              (.inl ⟨target, (ThreadProgram.handle_of_object alive).trans held⟩)
          exact recordFailure_fresh strerror known tracked.fresh _ errnum id bound
  | _ => exact tracked.fresh id bound

theorem Tracked.next {source : Described Var} (tracked : Tracked source) {call : ObjectCall Var}
    {program : ThreadProgram Var Thread} (running : source.program.ended = none)
    (performed : source.program.perform ndebug strerror call = some program)
    (shows : Shows (source.record strerror call) program.object) :
    Tracked ⟨program, source.record strerror call⟩ := by
  obtain ⟨actions, ran⟩ := ThreadProgram.perform_follows running performed
  refine ⟨shows, tracked.accounted.run ran, ?_⟩
  intro id bound
  exact record_fresh tracked call id (Nat.le_trans (Custody.acquired_le_of_run ran) bound)

theorem shows_tryScheduling {source : Described Var} (tracked : Tracked source)
    (strerror : Int → StdString) {target : Var} {thread : Thread}
    (alive : source.program.object target = some thread) (policy priority errnum : Int) :
    Shows
      (recordFailure strerror source.failure (ThreadType.getId thread)
        (thread.tryScheduling strerror policy priority errnum).1 errnum)
      (Function.update source.program.object target
        (some (thread.tryScheduling strerror policy priority errnum).2)) := by
  intro var other present
  by_cases same : var = target
  · subst same
    cases (Function.update_self ..).symm.trans present
    exact showsFailure_tryScheduling strerror (tracked.shows var thread alive) policy priority errnum
  · have before := (Function.update_of_ne same _ source.program.object).symm.trans present
    intro id known
    rw [recordFailure_other, tracked.shows var other before id known]
    -- no two objects represent one thread
    intro held
    exact same (tracked.accounted.alone id var target
      ((ThreadProgram.handle_of_object before).trans known)
      ((ThreadProgram.handle_of_object alive).trans held))

/-- What `join()` and `detach()` leave represents no thread. -/
theorem shows_released {source : Described Var} (tracked : Tracked source) (target : Var)
    {after : Thread} (gone : ThreadType.getId after = none) :
    Shows source.failure (Function.update source.program.object target (some after)) :=
  (shows_update tracked.shows target after).mpr (showsFailure_of_vacant gone)

/-- A call leaves the right texts exactly when it is guarded. -/
theorem perform_shows {source : Described Var} (tracked : Tracked source) {call : ObjectCall Var}
    {program : ThreadProgram Var Thread}
    (performed : source.program.perform ndebug strerror call = some program) :
    Shows (source.record strerror call) program.object ↔ ErrorGuard source call := by
  have shows := tracked.shows
  have launched : ShowsFailure source.failure (ThreadType.launched source.program.created) := by
    intro id known
    cases known
    exact (tracked.fresh _ (Nat.le_refl _)).symm
  cases call with
  | default target =>
      simp only [ThreadProgram.perform] at performed
      split at performed
      · cases performed
      · cases performed
        exact iff_of_true ((shows_update shows target _).mpr (showsFailure_of_vacant rfl)) trivial
  | launch target constructed =>
      simp only [ThreadProgram.perform] at performed
      split at performed
      · cases performed
      · cases constructed with
        | false =>
            cases performed
            exact iff_of_true shows trivial
        | true =>
            cases performed
            exact iff_of_true ((shows_update shows target _).mpr launched) trivial
  | adopt target constructed =>
      simp only [ThreadProgram.perform] at performed
      split at performed
      · cases performed
      · cases constructed with
        | false =>
            cases performed
            exact iff_of_true shows trivial
        | true =>
            cases performed
            exact iff_of_true ((shows_update shows target _).mpr launched) trivial
  | launchRealtime target constructed policy priority errnum =>
      simp only [ThreadProgram.perform] at performed
      split at performed
      · cases performed
      · cases constructed with
        | false =>
            cases performed
            exact iff_of_true shows trivial
        | true =>
            cases performed
            rw [object_change _ (Function.update_self ..)]
            exact iff_of_true ((shows_update shows target _).mpr launched) trivial
  | moveConstruct target other =>
      simp only [ThreadProgram.perform] at performed
      split at performed
      · next moved _ alive =>
          cases performed
          refine (shows_move shows target other moved _).trans ?_
          rw [showsFailure_iff (LawfulThreadType.getId_moveConstruct moved) (shows other moved alive)]
          constructor
          · intro agree _ known active
            cases alive.symm.trans known
            exact (agree active).symm
          · intro guarded active
            exact (guarded moved alive active).symm
      · cases performed
  | moveAssign target other =>
      simp only [ThreadProgram.perform] at performed
      split at performed
      · next thread moved alive otherAlive =>
          cases active : ThreadType.joinable thread with
          | true =>
              rw [LawfulThreadType.moveAssign_joinable thread moved active] at performed
              cases performed
              refine iff_of_true shows ?_
              intro same _ known _ inactive
              cases alive.symm.trans known
              cases active.symm.trans inactive
          | false =>
              obtain ⟨assigned, returned, same⟩ :=
                LawfulThreadType.moveAssign_notJoinable thread moved active
              rw [returned] at performed
              cases performed
              refine (shows_move shows target other moved _).trans ?_
              rw [showsFailure_iff same (shows other moved otherAlive),
                Thread.lastError_moveAssign returned]
              simp [ErrorGuard, alive, otherAlive, active]
      · cases performed
  | swap left right =>
      simp only [ThreadProgram.perform] at performed
      split at performed
      · next first second alive otherAlive =>
          cases performed
          refine (shows_swap shows alive otherAlive).trans ?_
          constructor
          · intro agree one two known otherKnown active
            cases alive.symm.trans known
            cases otherAlive.symm.trans otherKnown
            exact agree active
          · intro guarded active
            exact guarded first second alive otherAlive active
      · cases performed
  | join target =>
      simp only [ThreadProgram.perform] at performed
      split at performed
      · cases performed
      · next thread alive =>
          split at performed
          · cases performed
            exact iff_of_true shows trivial
          · next joined returned =>
              cases performed
              cases active : ThreadType.joinable thread with
              | false =>
                  rw [LawfulThreadType.join_notJoinable thread active] at returned
                  cases returned
              | true =>
                  obtain ⟨after, same, gone⟩ := LawfulThreadType.join_joinable thread active
                  cases returned.symm.trans same
                  exact iff_of_true (shows_released tracked target gone) trivial
  | detach target =>
      simp only [ThreadProgram.perform] at performed
      split at performed
      · cases performed
      · next thread alive =>
          split at performed
          · cases performed
            exact iff_of_true shows trivial
          · next detached returned =>
              cases performed
              cases active : ThreadType.joinable thread with
              | false =>
                  rw [LawfulThreadObject.detach_notJoinable thread active] at returned
                  cases returned
              | true =>
                  obtain ⟨after, same, gone⟩ := LawfulThreadObject.detach_joinable thread active
                  cases returned.symm.trans same
                  exact iff_of_true (shows_released tracked target gone) trivial
  | tryScheduling target policy priority errnum =>
      simp only [ThreadProgram.perform] at performed
      split at performed
      · cases performed
      · next thread alive =>
          cases performed
          simp only [record, alive]
          exact iff_of_true (shows_tryScheduling tracked strerror alive policy priority errnum) trivial
  | changeScheduling target policy priority errnum =>
      simp only [ThreadProgram.perform] at performed
      split at performed
      · cases performed
      · next thread alive =>
          cases performed
          rw [object_change _ alive]
          exact iff_of_true shows trivial
  | destroy target =>
      simp only [ThreadProgram.perform] at performed
      split at performed
      · cases performed
      · split at performed
        · cases performed
          exact iff_of_true shows trivial
        · cases performed
          exact iff_of_true (shows.remove target) trivial

/-- In a program every object shows the failure of its own thread after each call exactly when
threads are only moved and swapped between equal texts. -/
theorem object_last_error_iff (ndebug : Bool) (strerror : Int → StdString)
    (calls : List (ObjectCall Var)) :
    (machine Var ndebug strerror).EachStep ErrorLaw (machine Var ndebug strerror).initial calls ↔
      (machine Var ndebug strerror).EachStep (fun source call _ => ErrorGuard source call)
        (machine Var ndebug strerror).initial calls := by
  have performed : ∀ source call target,
      (machine Var ndebug strerror).step source call = some target →
      ∃ program, source.program.ended = none ∧
        source.program.perform ndebug strerror call = some program ∧
        target = ⟨program, source.record strerror call⟩ := by
    intro source call target stepped
    obtain ⟨program, step, rfl⟩ := Option.map_eq_some_iff.mp stepped
    obtain ⟨running, step⟩ := Option.ite_none_right_eq_some.mp step
    exact ⟨program, running, step, rfl⟩
  refine Machine.eachStep_iff_guarded Tracked ?_ ?_ ?_ calls
  · intro source call target tracked stepped
    obtain ⟨program, _, same, rfl⟩ := performed source call target stepped
    exact perform_shows tracked same
  · intro source call target tracked stepped law
    obtain ⟨program, running, same, rfl⟩ := performed source call target stepped
    exact tracked.next running same law
  · refine ⟨?_, Custody.accounted_empty, fun _ _ => rfl⟩
    intro var thread present
    cases present

/-- The thread moves, and the text of its failure stays. -/
example : ((machine Bool false fun _ => []).run (machine Bool false fun _ => []).initial
    [.launch false true, .tryScheduling false 1 10 1, .moveConstruct true false]).map
      (fun after => (after.program.object true).map Thread.lastError) = some (some []) := rfl

end Step

end Described

end Libpreempt.Preempt
