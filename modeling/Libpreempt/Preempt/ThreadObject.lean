import Libpreempt.Preempt.Thread

/-! What programs do with objects of `std::thread` and of `preempt::thread`
themselves. The scheduling of a `std::thread` is that of the functions in
`base/threading.h`. -/

set_option autoImplicit false

namespace Libpreempt.Preempt

open Libpreempt.Base Libpreempt.Stdlib

/-- The results of `pthread_setschedparam` are arguments, as is `strerror`. -/
class ThreadObject (Object : Type) extends ThreadType Object where
  /-- `thread(std::thread&& other)` -/
  adopt : StdThread → Object
  /-- The object after its thread was moved elsewhere. -/
  movedFrom : Object → Object
  swap : Object → Object → Object × Object
  detach : Object → Except SystemError Object
  tryScheduling : (Int → StdString) → Object → Int → Int → Int → Bool × Object
  /-- The object, or `quick_exit`. -/
  changeScheduling : (Int → StdString) → Object → Int → Int → Int → Option Object
  /-- What the body of the destructor verifies. -/
  verifyDestructor : Bool → Object → Bool

def Schedulable (joinable : Bool) (errnum : Int) : Bool :=
  joinable = false ∨ errnum = 0 ∨ errnum = esrch

class LawfulThreadObject (Object : Type) [ThreadObject Object] : Prop
    extends LawfulThreadType Object where
  getId_adopt (other : StdThread) :
    ThreadType.getId (ThreadObject.adopt other : Object) = ThreadType.getId other
  getId_movedFrom (object : Object) : ThreadType.getId (ThreadObject.movedFrom object) = none
  getId_swap (left right : Object) :
    ThreadType.getId (ThreadObject.swap left right).1 = ThreadType.getId right ∧
      ThreadType.getId (ThreadObject.swap left right).2 = ThreadType.getId left
  detach_joinable (object : Object) : ThreadType.joinable object = true →
    ∃ detached, ThreadObject.detach object = .ok detached ∧ ThreadType.getId detached = none
  detach_notJoinable (object : Object) : ThreadType.joinable object = false →
    ThreadObject.detach object = .error .invalidArgument
  tryScheduling_eq (strerror : Int → StdString) (object : Object) (policy priority errnum : Int) :
    ∃ tried, ThreadObject.tryScheduling strerror object policy priority errnum =
      (Schedulable (ThreadType.joinable object) errnum, tried) ∧
        ThreadType.getId tried = ThreadType.getId object
  changeScheduling_eq (strerror : Int → StdString) (object : Object)
      (policy priority errnum : Int) :
    if Schedulable (ThreadType.joinable object) errnum then
      ∃ changed, ThreadObject.changeScheduling strerror object policy priority errnum =
        some changed ∧ ThreadType.getId changed = ThreadType.getId object
    else ThreadObject.changeScheduling strerror object policy priority errnum = none
  verifyDestructor_vacant (ndebug : Bool) (object : Object) : ThreadType.joinable object = false →
    ThreadObject.verifyDestructor ndebug object = true

attribute [simp] LawfulThreadObject.getId_adopt LawfulThreadObject.getId_movedFrom

/-!
## `std::thread`
-/

namespace StdThread

def detach (thread : StdThread) : Except SystemError StdThread :=
  if thread.joinable then .ok {} else .error .invalidArgument

def changeScheduling (strerror : Int → StdString) (thread : StdThread)
    (policy priority errnum : Int) : Option StdThread :=
  match Base.changeScheduling strerror thread.joinable policy priority errnum none with
  | .returned _ => some thread
  | .quickExit _ => none

instance : ThreadObject StdThread where
  adopt := ThreadType.moveConstruct
  movedFrom _ := {}
  swap left right := (right, left)
  detach := detach
  tryScheduling strerror thread policy priority errnum :=
    ((Base.tryScheduling strerror thread.joinable policy priority errnum none).success, thread)
  changeScheduling := changeScheduling
  verifyDestructor _ _ := true

end StdThread

/-!
## `preempt::thread`
-/

namespace Thread

/-- `impl_ {std::move(other)}` -/
def adopt (other : StdThread) : Thread := { impl := ThreadType.moveConstruct other }

def movedFrom (thread : Thread) : Thread := { thread with impl := {} }

/-- `impl_.swap(other.impl_)` -/
def swap (thread other : Thread) : Thread × Thread :=
  ({ thread with impl := other.impl }, { other with impl := thread.impl })

def detach (thread : Thread) : Except SystemError Thread :=
  (StdThread.detach thread.impl).map fun impl => { thread with impl }

/-- `VERIFY(thread_still_active == false)` unless `NDEBUG` is defined. -/
def verifyDestructor (ndebug : Bool) (thread : Thread) : Bool :=
  if ndebug then true else thread.joinable == false

instance : ThreadObject Thread where
  adopt := adopt
  movedFrom := movedFrom
  swap := swap
  detach := detach
  tryScheduling := tryScheduling
  changeScheduling strerror thread policy priority errnum :=
    match thread.changeScheduling strerror policy priority errnum with
    | .returned thread => some thread
    | .quickExit _ => none
  verifyDestructor := verifyDestructor

end Thread

/-!
## Both are lawful
-/

theorem tryScheduling_schedulable (strerror : Int → StdString) (joinable : Bool)
    (policy priority errnum : Int) (errorp : Option StdString) :
    (Base.tryScheduling strerror joinable policy priority errnum errorp).success =
      Schedulable joinable errnum := by
  rw [Bool.eq_iff_iff, tryScheduling_success_iff, Schedulable, decide_eq_true_eq]

theorem changeScheduling_returned_iff (strerror : Int → StdString) (joinable : Bool)
    (policy priority errnum : Int) (errorp : Option StdString) :
    (∃ after, Base.changeScheduling strerror joinable policy priority errnum errorp =
      .returned after) ↔ Schedulable joinable errnum = true := by
  cases errorp with
  | none =>
      have tried := tryScheduling_schedulable strerror joinable policy priority errnum (some [])
      cases allowed : Schedulable joinable errnum with
      | false => simp [Base.changeScheduling, tried, allowed]
      | true => simp [Base.changeScheduling, tried, allowed]
  | some text =>
      have tried := tryScheduling_schedulable strerror joinable policy priority errnum (some text)
      cases allowed : Schedulable joinable errnum with
      | false => simp [Base.changeScheduling, tried, allowed]
      | true => simp [Base.changeScheduling, tried, allowed]

instance : LawfulThreadObject StdThread where
  getId_adopt _ := rfl
  getId_movedFrom _ := rfl
  getId_swap _ _ := ⟨rfl, rfl⟩
  detach_joinable thread active := ⟨{}, if_pos active, rfl⟩
  detach_notJoinable thread inactive := by
    simp only [ThreadType.joinable] at inactive
    simp [ThreadObject.detach, StdThread.detach, inactive]
  tryScheduling_eq strerror thread policy priority errnum :=
    ⟨thread, congrArg (·, thread) (tryScheduling_schedulable ..), rfl⟩
  changeScheduling_eq strerror thread policy priority errnum := by
    have returned := changeScheduling_returned_iff strerror thread.joinable policy priority errnum
      none
    simp only [ThreadObject.changeScheduling, StdThread.changeScheduling, ThreadType.joinable]
    cases outcome : Base.changeScheduling strerror thread.joinable policy priority errnum none with
    | returned after =>
        rw [if_pos (returned.mp ⟨after, outcome⟩)]
        exact ⟨thread, rfl, rfl⟩
    | quickExit descr =>
        have refused : ¬ Schedulable thread.joinable errnum = true := by
          intro allowed
          obtain ⟨after, other⟩ := returned.mpr allowed
          cases outcome.symm.trans other
        rw [if_neg refused]
  verifyDestructor_vacant _ _ _ := rfl

instance : LawfulThreadObject Thread where
  getId_adopt _ := rfl
  getId_movedFrom _ := rfl
  getId_swap _ _ := ⟨rfl, rfl⟩
  detach_joinable thread active := by
    obtain ⟨impl, detached, gone⟩ := LawfulThreadObject.detach_joinable thread.impl active
    refine ⟨{ thread with impl }, ?_, gone⟩
    change Except.map _ (ThreadObject.detach thread.impl) = _
    rw [detached]
    rfl
  detach_notJoinable thread inactive := by
    change Except.map _ (ThreadObject.detach thread.impl) = _
    rw [LawfulThreadObject.detach_notJoinable thread.impl inactive]
    rfl
  tryScheduling_eq strerror thread policy priority errnum :=
    ⟨_, congrArg (·, _) (tryScheduling_schedulable ..),
      thread.getId_tryScheduling strerror policy priority errnum⟩
  changeScheduling_eq strerror thread policy priority errnum := by
    have returned := changeScheduling_returned_iff strerror thread.joinable policy priority errnum
      (some thread.error)
    simp only [ThreadObject.changeScheduling, Thread.changeScheduling, ThreadType.joinable]
    cases outcome : Base.changeScheduling strerror thread.joinable policy priority errnum
        (some thread.error) with
    | returned after =>
        rw [if_pos (returned.mp ⟨after, outcome⟩)]
        exact ⟨_, rfl, rfl⟩
    | quickExit descr =>
        have refused : ¬ Schedulable thread.joinable errnum = true := by
          intro allowed
          obtain ⟨after, other⟩ := returned.mpr allowed
          cases outcome.symm.trans other
        rw [if_neg refused]
  verifyDestructor_vacant ndebug thread inactive := by
    simp only [ThreadType.joinable] at inactive
    simp [ThreadObject.verifyDestructor, Thread.verifyDestructor, inactive]

end Libpreempt.Preempt
