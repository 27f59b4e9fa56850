import Mathlib.Data.List.Basic

/-! The part of the C++ thread library that the tasks rely on. A thread of
execution is named by a number that is never used twice; a thread object
either represents one thread of execution or none. -/

set_option autoImplicit false

namespace Libpreempt.Stdlib

/-- A thread of execution; `none : Option ThreadId` is `std::thread::id()`. -/
abbrev ThreadId := Nat

inductive SystemError where
  | invalidArgument
  | resourceUnavailable
  deriving DecidableEq, Repr

/-- What `mono_task` and `poly_task` use of their parameter `Thread`. -/
class ThreadType (Thread : Type) where
  empty : Thread
  /-- `Thread {f, args...}` after the thread of execution was created. -/
  launched : ThreadId → Thread
  getId : Thread → Option ThreadId
  joinable : Thread → Bool
  /-- The object after `join()` returned, or the exception it throws. -/
  join : Thread → Except SystemError Thread
  moveConstruct : Thread → Thread
  /-- `*this = std::move(other)`; `none` is `std::terminate()`. -/
  moveAssign : Thread → Thread → Option Thread

/-- `Thread {f, args...}`, where the creation of the thread `id` may fail. -/
def ThreadType.construct {Thread : Type} [ThreadType Thread] (id : ThreadId)
    (constructed : Bool) : Except SystemError Thread :=
  if constructed then .ok (ThreadType.launched id) else .error .resourceUnavailable

/-- The documented behaviour of `std::thread`. -/
class LawfulThreadType (Thread : Type) [ThreadType Thread] : Prop where
  getId_empty : ThreadType.getId (ThreadType.empty : Thread) = none
  getId_launched (id : ThreadId) :
    ThreadType.getId (ThreadType.launched id : Thread) = some id
  joinable_eq (thread : Thread) :
    ThreadType.joinable thread = (ThreadType.getId thread).isSome
  join_joinable (thread : Thread) : ThreadType.joinable thread = true →
    ∃ joined, ThreadType.join thread = .ok joined ∧ ThreadType.getId joined = none
  join_notJoinable (thread : Thread) : ThreadType.joinable thread = false →
    ThreadType.join thread = .error .invalidArgument
  getId_moveConstruct (other : Thread) :
    ThreadType.getId (ThreadType.moveConstruct other) = ThreadType.getId other
  moveAssign_notJoinable (thread other : Thread) : ThreadType.joinable thread = false →
    ∃ assigned, ThreadType.moveAssign thread other = some assigned ∧
      ThreadType.getId assigned = ThreadType.getId other
  moveAssign_joinable (thread other : Thread) : ThreadType.joinable thread = true →
    ThreadType.moveAssign thread other = none

attribute [simp] LawfulThreadType.getId_empty LawfulThreadType.getId_launched
  LawfulThreadType.getId_moveConstruct

section Lawful

variable {Thread : Type} [ThreadType Thread] [LawfulThreadType Thread]

theorem joinable_eq_true_iff {thread : Thread} :
    ThreadType.joinable thread = true ↔ ∃ id, ThreadType.getId thread = some id := by
  rw [LawfulThreadType.joinable_eq, Option.isSome_iff_exists]

theorem joinable_eq_false_iff {thread : Thread} :
    ThreadType.joinable thread = false ↔ ThreadType.getId thread = none := by
  rw [LawfulThreadType.joinable_eq, Option.isSome_eq_false_iff, Option.isNone_iff_eq_none]

end Lawful

structure StdThread where
  handle : Option ThreadId := none
  deriving DecidableEq, Repr

namespace StdThread

def joinable (thread : StdThread) : Bool := thread.handle.isSome

def join (thread : StdThread) : Except SystemError StdThread :=
  if thread.joinable then .ok {} else .error .invalidArgument

def moveAssign (thread other : StdThread) : Option StdThread :=
  if thread.joinable then none else some { handle := other.handle }

instance : ThreadType StdThread where
  empty := {}
  launched id := { handle := some id }
  getId thread := thread.handle
  joinable := joinable
  join := join
  moveConstruct other := { handle := other.handle }
  moveAssign := moveAssign

instance : LawfulThreadType StdThread where
  getId_empty := rfl
  getId_launched _ := rfl
  joinable_eq _ := rfl
  join_joinable thread active := ⟨{}, if_pos active, rfl⟩
  join_notJoinable thread inactive := by
    simp only [ThreadType.joinable] at inactive
    simp [ThreadType.join, join, inactive]
  getId_moveConstruct _ := rfl
  moveAssign_notJoinable thread other inactive := by
    simp only [ThreadType.joinable] at inactive
    exact ⟨{ handle := other.handle }, by simp [ThreadType.moveAssign, moveAssign, inactive], rfl⟩
  moveAssign_joinable thread other active := if_pos active

end StdThread

end Libpreempt.Stdlib
