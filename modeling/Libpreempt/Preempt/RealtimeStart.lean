import Libpreempt.Preempt.MonoTask
import Libpreempt.Preempt.Thread
import Libpreempt.Transition.Machine

/-! Starting a realtime thread. `thread(policy, priority, f, args...)` and
`critical_task::start` both create the thread of execution first and change its
scheduling afterwards, so the creating thread and the new thread interleave. -/

set_option autoImplicit false

namespace Libpreempt.Preempt

open Libpreempt.Base Libpreempt.Stdlib Libpreempt.Transition

/-- The steps of a thread function; `critical_task::hook` reads the clock
before and after `run()`. -/
inductive BodyStep where
  | readStart
  | run
  | readStop
  deriving DecidableEq, Repr

inductive Request where
  -- the constructor of `preempt::thread`
  | thread (policy priority : Int) (steps : Nat)
  -- `critical_task::start` on a task that may still hold an earlier thread
  | criticalTask (task : MonoTask Thread) (priority : Int) (steps : Nat)

namespace Request

def scheduling : Request → Scheduling
  | .thread policy priority _ => ⟨policy, priority⟩
  | .criticalTask _ priority _ => ⟨schedFifo, priority⟩

def body : Request → List BodyStep
  | .thread _ _ steps => List.replicate steps .run
  | .criticalTask _ _ steps => .readStart :: List.replicate steps .run ++ [.readStop]

def create (id : ThreadId) : Request → Option Thread
  | .thread _ _ _ => some (ThreadType.launched id)
  | .criticalTask task _ _ =>
      match task.spawn (.ok (ThreadType.launched id)) with
      | .returned task => some task.thread
      | _ => none

end Request

inductive Creator where
  | before
  | created (thread : Thread)
  | returned (thread : Thread)
  | exited (descr : StdString)
  deriving DecidableEq, Repr

inductive Phase where
  | absent
  | ready
  | running (remaining : List BodyStep)
  | ended
  deriving DecidableEq, Repr

structure Executed where
  step : BodyStep
  scheduling : Scheduling
  deriving DecidableEq, Repr

structure Start where
  creator : Creator
  phase : Phase
  -- what the scheduler uses for the new thread
  scheduling : Scheduling
  log : List Executed
  deriving DecidableEq, Repr

namespace Start

inductive Action where
  | create
  | change
  | begin
  | execute
  | finish
  deriving DecidableEq, Repr

def setSchedParam (start : Start) : Int := if start.phase = .ended then esrch else 0

def change (strerror : Int → StdString) (requested : Scheduling) (start : Start)
    (thread : Thread) : Start :=
  match thread.changeScheduling strerror requested.policy requested.priority
    start.setSchedParam with
  | .quickExit descr => { start with creator := .exited descr }
  | .returned changed =>
      { start with
        creator := .returned changed
        scheduling :=
          if thread.joinable = true ∧ start.setSchedParam = 0 then requested
          else start.scheduling }

def step (strerror : Int → StdString) (request : Request) (id : ThreadId) (start : Start) :
    Action → Option Start
  | .create =>
      match start.creator with
      | .before =>
          (request.create id).map fun thread =>
            { start with creator := .created thread, phase := .ready }
      | _ => none
  | .change =>
      match start.creator with
      | .created thread => some (start.change strerror request.scheduling thread)
      | _ => none
  | .begin =>
      match start.phase with
      | .ready => some { start with phase := .running request.body }
      | _ => none
  | .execute =>
      match start.phase with
      | .running (step :: rest) =>
          some { start with
            phase := .running rest
            log := start.log ++ [⟨step, start.scheduling⟩] }
      | _ => none
  | .finish =>
      match start.phase with
      | .running [] => some { start with phase := .ended }
      | _ => none

end Start

/-- The new thread begins with the scheduling that it inherits. -/
def realtimeStart (strerror : Int → StdString) (request : Request) (id : ThreadId)
    (inherited : Scheduling) : Machine Start Start.Action where
  initial := ⟨.before, .absent, inherited, []⟩
  step start action :=
    match start.creator with
    | .exited _ => none
    | _ => start.step strerror request id action

def AlwaysRealtime (strerror : Int → StdString) (request : Request) (id : ThreadId)
    (inherited : Scheduling) : Prop :=
  ∀ start, (realtimeStart strerror request id inherited).Reachable start →
    ∀ executed ∈ start.log, executed.scheduling = request.scheduling

end Libpreempt.Preempt
