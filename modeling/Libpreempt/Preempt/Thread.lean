import Libpreempt.Base.Threading
import Libpreempt.Stdlib.Thread

/-! `preempt::thread`: a `std::thread` with the text of its last scheduling
error. -/

set_option autoImplicit false

namespace Libpreempt.Preempt

open Libpreempt.Base Libpreempt.Stdlib

structure Thread where
  impl : StdThread := {}
  error : StdString := []
  deriving DecidableEq, Repr

namespace Thread

/-- `thread(thread&& other)` moves `impl_` only. -/
def moveConstruct (other : Thread) : Thread :=
  { impl := ThreadType.moveConstruct other.impl }

/-- `impl_ = std::move(other.impl_)`; `error_` stays as it was. -/
def moveAssign (thread other : Thread) : Option Thread :=
  (ThreadType.moveAssign thread.impl other.impl).map fun impl => { thread with impl }

def joinable (thread : Thread) : Bool := thread.impl.joinable

def join (thread : Thread) : Except SystemError Thread :=
  thread.impl.join.map fun impl => { thread with impl }

def lastError (thread : Thread) : StdString := thread.error

def tryScheduling (strerror : Int → StdString) (thread : Thread) (policy priority errnum : Int) :
    Bool × Thread :=
  let tried := Base.tryScheduling strerror thread.joinable policy priority errnum
    (some thread.error)
  (tried.success, { thread with error := tried.errorp.getD thread.error })

inductive Changed where
  | returned (thread : Thread)
  | quickExit (descr : StdString)
  deriving DecidableEq, Repr

def changeScheduling (strerror : Int → StdString) (thread : Thread)
    (policy priority errnum : Int) : Changed :=
  match Base.changeScheduling strerror thread.joinable policy priority errnum
    (some thread.error) with
  | .returned errorp => .returned { thread with error := errorp.getD thread.error }
  | .quickExit descr => .quickExit descr

theorem changeScheduling_of_success (strerror : Int → StdString) (thread : Thread)
    (policy priority : Int) {errnum : Int} (success : errnum = 0 ∨ errnum = esrch) :
    thread.changeScheduling strerror policy priority errnum = .returned thread := by
  unfold changeScheduling
  rw [Base.changeScheduling_of_success strerror (.inr success)]
  rfl

instance : ThreadType Thread where
  empty := {}
  launched id := { impl := ThreadType.launched id }
  getId thread := ThreadType.getId thread.impl
  joinable := joinable
  join := join
  moveConstruct := moveConstruct
  moveAssign := moveAssign

instance : LawfulThreadType Thread where
  getId_empty := rfl
  getId_launched _ := rfl
  joinable_eq _ := rfl
  join_joinable thread active := by
    obtain ⟨impl, returned, gone⟩ := LawfulThreadType.join_joinable thread.impl active
    refine ⟨{ thread with impl }, ?_, gone⟩
    change Except.map _ (ThreadType.join thread.impl) = _
    rw [returned]
    rfl
  join_notJoinable thread inactive := by
    change Except.map _ (ThreadType.join thread.impl) = _
    rw [LawfulThreadType.join_notJoinable thread.impl inactive]
    rfl
  getId_moveConstruct _ := rfl
  moveAssign_notJoinable thread other inactive := by
    obtain ⟨impl, assigned, same⟩ :=
      LawfulThreadType.moveAssign_notJoinable thread.impl other.impl inactive
    refine ⟨{ thread with impl }, ?_, same⟩
    change Option.map _ (ThreadType.moveAssign thread.impl other.impl) = _
    rw [assigned]
    rfl
  moveAssign_joinable thread other active := by
    change Option.map _ (ThreadType.moveAssign thread.impl other.impl) = _
    rw [LawfulThreadType.moveAssign_joinable thread.impl other.impl active]
    rfl

/-!
## What the operations do to the text
-/

@[simp] theorem lastError_empty : (ThreadType.empty : Thread).lastError = [] := rfl

@[simp] theorem lastError_launched (id : ThreadId) :
    (ThreadType.launched id : Thread).lastError = [] := rfl

@[simp] theorem lastError_moveConstruct (other : Thread) :
    (ThreadType.moveConstruct other : Thread).lastError = [] := rfl

theorem lastError_moveAssign {thread other assigned : Thread}
    (moved : ThreadType.moveAssign thread other = some assigned) :
    assigned.lastError = thread.lastError := by
  obtain ⟨impl, _, rfl⟩ := Option.map_eq_some_iff.mp moved
  rfl

theorem lastError_join {thread joined : Thread} (returned : ThreadType.join thread = .ok joined) :
    joined.lastError = thread.lastError := by
  change Except.map _ thread.impl.join = .ok joined at returned
  cases inner : thread.impl.join with
  | error error =>
      rw [inner] at returned
      cases returned
  | ok impl =>
      rw [inner] at returned
      cases returned
      rfl

theorem lastError_tryScheduling (strerror : Int → StdString) (thread : Thread)
    (policy priority errnum : Int) :
    (thread.tryScheduling strerror policy priority errnum).2.lastError =
      if (thread.tryScheduling strerror policy priority errnum).1 then thread.lastError
      else errorText strerror "FAILED: pthread_setschedparam()".toList errnum := by
  simp only [tryScheduling, lastError, tryScheduling_errorp]
  split <;> rfl

theorem getId_tryScheduling (strerror : Int → StdString) (thread : Thread)
    (policy priority errnum : Int) :
    ThreadType.getId (thread.tryScheduling strerror policy priority errnum).2 =
      ThreadType.getId thread := rfl

end Thread

end Libpreempt.Preempt
