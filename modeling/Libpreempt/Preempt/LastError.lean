import Libpreempt.Preempt.MonoTask
import Libpreempt.Preempt.PolyTask
import Libpreempt.Preempt.Thread
import Mathlib.Logic.Function.Basic

/-! The texts that `last_error()` of the elements of a task shows over a
sequence of calls. The description of a failure belongs to a thread; `error_`
belongs to the object that held it when it failed. -/

set_option autoImplicit false

namespace Libpreempt.Preempt

open Libpreempt.Base Libpreempt.Stdlib Libpreempt.Transition

/-- A task with the description of the latest failing `try_scheduling` of each
thread, empty while there was none. -/
structure Recorded (Task : Type) where
  task : Task
  created : Nat
  failure : ThreadId → StdString

def recordFailure (strerror : Int → StdString) (failure : ThreadId → StdString)
    (id : Option ThreadId) (success : Bool) (errnum : Int) : ThreadId → StdString :=
  match id, success with
  | some id, false =>
      Function.update failure id (errorText strerror "FAILED: pthread_setschedparam()".toList errnum)
  | _, _ => failure

def ShowsFailure (failure : ThreadId → StdString) (thread : Thread) : Prop :=
  ∀ id, ThreadType.getId thread = some id → thread.lastError = failure id

namespace MonoTask

inductive Call where
  | spawn (constructed : Bool)
  | tryScheduling (policy priority errnum : Int)
  | join
  deriving DecidableEq, Repr

/-- After an exception the caller goes on; after `std::terminate()` it cannot. -/
def perform (strerror : Int → StdString) (source : Recorded (MonoTask Thread)) :
    Call → Option (Recorded (MonoTask Thread))
  | .spawn constructed =>
      match source.task.spawn (ThreadType.construct source.created constructed) with
      | .returned task => some { source with task, created := source.created + 1 }
      | .thrown task _ => some { source with task }
      | .terminated => none
  | .tryScheduling policy priority errnum =>
      let (success, thread) := source.task.thread.tryScheduling strerror policy priority errnum
      some { source with
        task := ⟨thread⟩
        failure := recordFailure strerror source.failure (ThreadType.getId source.task.thread)
          success errnum }
  | .join =>
      match source.task.join with
      | .returned task => some { source with task }
      | .thrown task _ => some { source with task }
      | .terminated => none

def errorMachine (strerror : Int → StdString) :
    Machine (Recorded (MonoTask Thread)) Call where
  initial := ⟨empty, 0, fun _ => []⟩
  step source call := perform strerror source call

def ErrorLaw (_ : Recorded (MonoTask Thread)) (_ : Call) (target : Recorded (MonoTask Thread)) :
    Prop :=
  ShowsFailure target.failure target.task.thread

/-- A new thread replaces one only while no text is shown. -/
def ErrorGuard (source : Recorded (MonoTask Thread)) (call : Call) : Prop :=
  call = .spawn true → source.task.thread.lastError = []

end MonoTask

namespace PolyTask

inductive ErrorCall where
  | spawn (constructed : Bool)
  | tryScheduling (index : Nat) (policy priority errnum : Int)
  | join
  deriving DecidableEq, Repr

def performError (strerror : Int → StdString) (growth : Growth)
    (source : Recorded (PolyTask Thread)) : ErrorCall → Option (Recorded (PolyTask Thread))
  | .spawn constructed =>
      match source.task.spawn growth (ThreadType.construct source.created constructed) with
      | .error _ => some source
      | .ok (task, _) => some { source with task, created := source.created + 1 }
  | .tryScheduling index policy priority errnum =>
      match source.task.threads.elements[index]? with
      | none => none
      | some element =>
          let (success, thread) := element.tryScheduling strerror policy priority errnum
          some { source with
            task := ⟨source.task.threads.replace (source.task.threads.elements.set index thread)
              List.length_set⟩
            failure := recordFailure strerror source.failure (ThreadType.getId element)
              success errnum }
  | .join => some { source with task := source.task.join.1 }

def errorMachine (strerror : Int → StdString) (growth : Growth) :
    Machine (Recorded (PolyTask Thread)) ErrorCall where
  initial := ⟨empty, 0, fun _ => []⟩
  step source call := performError strerror growth source call

def ErrorLaw (_ : Recorded (PolyTask Thread)) (_ : ErrorCall)
    (target : Recorded (PolyTask Thread)) : Prop :=
  ∀ thread ∈ target.task.threads.elements, ShowsFailure target.failure thread

/-- The vector grows only while no held thread shows a text. -/
def ErrorGuard (source : Recorded (PolyTask Thread)) (call : ErrorCall) : Prop :=
  call = .spawn true → source.task.threads.full = true →
    ∀ thread ∈ source.task.threads.elements, ThreadType.joinable thread = true →
      thread.lastError = []

end PolyTask

end Libpreempt.Preempt
