import Libpreempt.Preempt.MonoTask
import Libpreempt.Transition.Simulation

/-! A `mono_task` beside the functions that it runs. The caller is in `spawn()`
or `join()`, the spawned functions begin and finish on their own. -/

set_option autoImplicit false

namespace Libpreempt.Preempt.MonoTask

open Libpreempt.Stdlib Libpreempt.Transition

inductive Operation where
  | spawn
  | join
  deriving DecidableEq, Repr

inductive Point (Thread : Type) where
  | idle
  -- `if (joinable())`, which `spawn` reaches through `join()`
  | testing (operation : Operation)
  | joining (operation : Operation)
  -- `Thread {f, args...}` is to be evaluated
  | constructing
  | assigning (temporary : Thread)
  deriving DecidableEq, Repr

def Operation.after {Thread : Type} : Operation → Point Thread
  | .spawn => .constructing
  | .join => .idle

inductive Fault where
  | terminated
  | thrown (error : SystemError)
  deriving DecidableEq, Repr

/-- Threads `0 .. created - 1` were created, each with a function of its own. -/
structure Shared (Thread : Type) where
  task : MonoTask Thread
  point : Point Thread
  created : Nat
  begun : List ThreadId
  finished : List ThreadId
  fault : Option Fault

inductive Action where
  | call (operation : Operation)
  | test
  | joined
  -- the flag tells whether the thread constructor succeeds
  | construct (constructed : Bool)
  | assign
  | begin (id : ThreadId)
  | finish (id : ThreadId)
  deriving DecidableEq, Repr

section Step

variable {Thread : Type} [ThreadType Thread]

def Shared.step (shared : Shared Thread) : Action → Option (Shared Thread)
  | .call operation =>
      match shared.point with
      | .idle => some { shared with point := .testing operation }
      | _ => none
  | .test =>
      match shared.point with
      | .testing operation =>
          some { shared with
            point := if shared.task.joinable then .joining operation else operation.after }
      | _ => none
  | .joined =>
      match shared.point with
      | .joining operation =>
          -- blocks until the function of the thread has finished
          if ∀ id ∈ ThreadType.getId shared.task.thread, id ∈ shared.finished then
            match ThreadType.join shared.task.thread with
            | .ok thread => some { shared with task := ⟨thread⟩, point := operation.after }
            | .error error => some { shared with point := .idle, fault := some (.thrown error) }
          else none
      | _ => none
  | .construct constructed =>
      match shared.point with
      | .constructing =>
          match ThreadType.construct shared.created constructed with
          | .ok temporary =>
              some { shared with point := .assigning temporary, created := shared.created + 1 }
          | .error _ => some { shared with point := .idle }
      | _ => none
  | .assign =>
      match shared.point with
      | .assigning temporary =>
          match ThreadType.moveAssign shared.task.thread temporary with
          | some thread => some { shared with task := ⟨thread⟩, point := .idle }
          | none => some { shared with fault := some .terminated }
      | _ => none
  | .begin id =>
      if id < shared.created ∧ id ∉ shared.begun then
        some { shared with begun := shared.begun ++ [id] }
      else none
  | .finish id =>
      if id ∈ shared.begun ∧ id ∉ shared.finished then
        some { shared with finished := shared.finished ++ [id] }
      else none

def concurrent (Thread : Type) [ThreadType Thread] : Machine (Shared Thread) Action where
  initial := ⟨empty, .idle, 0, [], [], none⟩
  step shared action := if shared.fault = none then shared.step action else none

end Step

/-!
## One function at a time
-/

inductive Slot where
  | vacant
  | ready
  | running
  | done
  deriving DecidableEq, Repr

structure Monopoly where
  slot : Slot
  point : Point Unit
  deriving DecidableEq, Repr

inductive Visible where
  | call (operation : Operation)
  | test
  | joined
  | construct (constructed : Bool)
  | assign
  | begin
  | finish
  deriving DecidableEq, Repr

/-- The purpose of a `mono_task`: a call waits for the function that the slot
holds before it puts another one there. -/
def Monopoly.step (monopoly : Monopoly) : Visible → Option Monopoly
  | .call operation =>
      if monopoly.point = .idle then some { monopoly with point := .testing operation } else none
  | .test =>
      match monopoly.point with
      | .testing operation =>
          some { monopoly with
            point := if monopoly.slot = .vacant then operation.after else .joining operation }
      | _ => none
  | .joined =>
      match monopoly.point with
      | .joining operation =>
          if monopoly.slot = .done then some ⟨.vacant, operation.after⟩ else none
      | _ => none
  | .construct constructed =>
      if monopoly.point = .constructing then
        some (if constructed then ⟨.ready, .assigning ()⟩ else { monopoly with point := .idle })
      else none
  | .assign =>
      if monopoly.point = .assigning () then some { monopoly with point := .idle } else none
  | .begin =>
      if monopoly.slot = .ready then some { monopoly with slot := .running } else none
  | .finish =>
      if monopoly.slot = .running then some { monopoly with slot := .done } else none

def monopoly : Machine Monopoly Visible where
  initial := ⟨.vacant, .idle⟩
  step := Monopoly.step

def Action.erase : Action → List Visible
  | .call operation => [.call operation]
  | .test => [.test]
  | .joined => [.joined]
  | .construct constructed => [.construct constructed]
  | .assign => [.assign]
  | .begin _ => [.begin]
  | .finish _ => [.finish]

section View

variable {Thread : Type} [ThreadType Thread]

def Shared.holder (shared : Shared Thread) : Option ThreadId :=
  match shared.point with
  | .assigning temporary => ThreadType.getId temporary
  | _ => ThreadType.getId shared.task.thread

def Point.erase : Point Thread → Point Unit
  | .idle => .idle
  | .testing operation => .testing operation
  | .joining operation => .joining operation
  | .constructing => .constructing
  | .assigning _ => .assigning ()

def Shared.slot (shared : Shared Thread) : Slot :=
  match shared.holder with
  | none => .vacant
  | some id =>
      if id ∈ shared.finished then .done else if id ∈ shared.begun then .running else .ready

def Shared.view (shared : Shared Thread) : Monopoly := ⟨shared.slot, shared.point.erase⟩

end View

def Shared.Unfinished {Thread : Type} (shared : Shared Thread) (id : ThreadId) : Prop :=
  id < shared.created ∧ id ∉ shared.finished

end Libpreempt.Preempt.MonoTask
