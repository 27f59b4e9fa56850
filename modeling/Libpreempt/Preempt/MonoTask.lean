import Libpreempt.Stdlib.Thread

/-! `preempt::mono_task`: one member thread that `spawn` joins and replaces. -/

set_option autoImplicit false

namespace Libpreempt.Preempt

open Libpreempt.Stdlib

structure MonoTask (Thread : Type) where
  thread : Thread

/-- How a call ends; an exception leaves the task in the state shown. -/
inductive Ended (Thread : Type) where
  | returned (task : MonoTask Thread)
  | thrown (task : MonoTask Thread) (error : SystemError)
  | terminated

namespace MonoTask

variable {Thread : Type} [ThreadType Thread]

def empty : MonoTask Thread := ⟨ThreadType.empty⟩

def joinable (task : MonoTask Thread) : Bool := ThreadType.joinable task.thread

def join (task : MonoTask Thread) : Ended Thread :=
  if task.joinable then
    match ThreadType.join task.thread with
    | .error error => .thrown task error
    | .ok thread => .returned ⟨thread⟩
  else .returned task

/-- Join a possible running member thread, then start a new one; `temporary`
is the result of `Thread {...}`. -/
def spawn (task : MonoTask Thread) (temporary : Except SystemError Thread) : Ended Thread :=
  match task.join with
  | .returned task =>
      match temporary with
      | .error error => .thrown task error
      | .ok temporary =>
          match ThreadType.moveAssign task.thread temporary with
          | none => .terminated
          | some thread => .returned ⟨thread⟩
  | ended => ended

section Lawful

variable [LawfulThreadType Thread]

theorem join_spec (task : MonoTask Thread) :
    ∃ after, task.join = .returned after ∧ after.joinable = false := by
  unfold join
  cases active : task.joinable with
  | false => exact ⟨task, rfl, active⟩
  | true =>
      obtain ⟨thread, returned, gone⟩ := LawfulThreadType.join_joinable task.thread active
      exact ⟨⟨thread⟩, by simp [returned], joinable_eq_false_iff.mpr gone⟩

theorem spawn_thrown (task : MonoTask Thread) (error : SystemError) :
    ∃ after, task.spawn (.error error) = .thrown after error ∧ after.joinable = false := by
  obtain ⟨after, joined, inactive⟩ := task.join_spec
  exact ⟨after, by simp [spawn, joined], inactive⟩

theorem spawn_returned (task : MonoTask Thread) (temporary : Thread) :
    ∃ after, task.spawn (.ok temporary) = .returned after ∧
      ThreadType.getId after.thread = ThreadType.getId temporary := by
  obtain ⟨middle, joined, inactive⟩ := task.join_spec
  obtain ⟨thread, assigned, same⟩ :=
    LawfulThreadType.moveAssign_notJoinable middle.thread temporary inactive
  exact ⟨⟨thread⟩, by simp [spawn, joined, assigned], same⟩

end Lawful

end MonoTask

end Libpreempt.Preempt
