import Libpreempt.Base.Chrono
import Libpreempt.Preempt.MonoTaskConcurrency
import Libpreempt.Preempt.Thread
import Mathlib.Algebra.Ring.Int.Defs
import Mathlib.Logic.Function.Basic

/-! `preempt::critical_task<Us>`: a `mono_task` whose function `hook` measures
`run()` and ends the process when it took longer than `Us` microseconds. The
readings of the clock are labels, in nanoseconds. -/

set_option autoImplicit false

namespace Libpreempt.Preempt

open Libpreempt.Base Libpreempt.Stdlib Libpreempt.Transition

namespace CriticalTask

inductive Hook where
  | absent
  | entered
  | started (start : Int)
  -- `run()` is over
  | stopped (start stop : Int)
  | stored (start stop : Int)
  | tested (start stop : Int)
  deriving DecidableEq, Repr

inductive Action where
  | task (action : MonoTask.Action)
  | changeScheduling (priority errnum : Int)
  | readStart (id : ThreadId) (now : Int)
  | readStop (id : ThreadId) (now : Int)
  | store (id : ThreadId)
  | test (id : ThreadId)
  deriving DecidableEq, Repr

end CriticalTask

/-- `usec` is `none` while the member `usec_` is uninitialised; `exited` is the
text that `quick_exit` got. -/
structure CriticalTask where
  mono : MonoTask.Shared Thread
  -- `start()` has still to call `change_scheduling`
  changing : Bool
  hook : ThreadId → CriticalTask.Hook
  usec : Option Int
  clock : Int
  exited : Option StdString

namespace CriticalTask

def runtime (critical : CriticalTask) : Option Int := critical.usec

def microseconds (start stop : Int) : Int := Stopwatch.microseconds ⟨start⟩ stop

def deadline (us start : Int) : Int := start + us * 1000

/-- The conversion `%lu` of a `long`. -/
def unsignedText (value : Int) : StdString := (toString (value % 2 ^ 64)).toList

def exitText (us usec : Int) : StdString :=
  cStr (sprintf ("critical_task error: deadline=".toList ++ unsignedText us ++
    "us used=".toList ++ unsignedText usec ++ "ms".toList))

/-- `start()` and `join()` are the calls of the task; a call waits for the end
of `start()`, and a thread ends at the end of its `hook`. -/
def Allows (critical : CriticalTask) : MonoTask.Action → Bool
  | .call _ => !critical.changing
  | .finish id =>
      match critical.hook id with
      | .tested _ _ => true
      | _ => false
  | _ => true

def enter (hook : ThreadId → Hook) : MonoTask.Action → ThreadId → Hook
  | .begin id => Function.update hook id .entered
  | _ => hook

def taskStep (critical : CriticalTask) (action : MonoTask.Action) : Option CriticalTask :=
  if critical.Allows action then
    ((MonoTask.concurrent Thread).step critical.mono action).map fun mono =>
      { critical with
        mono
        changing :=
          match action with
          | .assign => true
          | _ => critical.changing
        hook := enter critical.hook action }
  else none

def place (critical : CriticalTask) (id : ThreadId) (hook : Hook) : CriticalTask :=
  { critical with hook := Function.update critical.hook id hook }

def step (strerror : Int → StdString) (us : Int) (critical : CriticalTask) :
    Action → Option CriticalTask
  | .task action => critical.taskStep action
  | .changeScheduling priority errnum =>
      -- the change succeeds, or the thread has exited already
      if critical.changing = true ∧ (errnum = 0 ∨ errnum = esrch) then
        match critical.mono.task.thread.changeScheduling strerror schedFifo priority errnum with
        | .returned thread =>
            some { critical with mono := { critical.mono with task := ⟨thread⟩ }, changing := false }
        | .quickExit descr => some { critical with exited := some descr }
      else none
  | .readStart id now =>
      if critical.hook id = .entered ∧ critical.clock ≤ now then
        some { critical.place id (.started now) with clock := now }
      else none
  | .readStop id now =>
      match critical.hook id with
      | .started start =>
          if critical.clock ≤ now then
            some { critical.place id (.stopped start now) with clock := now }
          else none
      | _ => none
  | .store id =>
      match critical.hook id with
      | .stopped start stop =>
          some { critical.place id (.stored start stop) with
            usec := some (microseconds start stop) }
      | _ => none
  | .test id =>
      match critical.hook id with
      | .stored start stop =>
          some { critical.place id (.tested start stop) with
            exited :=
              if deadline us start < stop then some (exitText us (critical.usec.getD 0))
              else none }
      | _ => none

/-- One caller on a fresh task; nothing happens after the exit of the process. -/
def machine (strerror : Int → StdString) (us : Int) (clock : Int) :
    Machine CriticalTask Action where
  initial := ⟨(MonoTask.concurrent Thread).initial, false, fun _ => .absent, none, clock, none⟩
  step critical action := if critical.exited = none then critical.step strerror us action else none

def Action.erase : Action → List MonoTask.Action
  | .task action => [action]
  | _ => []

end CriticalTask

end Libpreempt.Preempt
