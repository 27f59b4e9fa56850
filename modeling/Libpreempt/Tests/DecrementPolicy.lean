import Libpreempt.Scheduling.RoundRobin
import Libpreempt.Tests.Decrement

/-! The test on a system that creates realtime threads with some priorities only,
and that under `SCHED_RR` may end the time slice of a thread between any two of
its steps. -/

set_option autoImplicit false

namespace Libpreempt.Tests.Decrement

open Libpreempt.Base Libpreempt.Scheduling Libpreempt.Transition

inductive Move where
  | act (action : Action)
  | expire
  deriving DecidableEq, Repr

/-- The priorities from 1 to `highest`, which is 32 in POSIX and 99 under Linux. -/
def upTo (highest : Nat) (priority : Int) : Bool := decide (1 ≤ priority ∧ priority ≤ highest)

/-- A priority that the system does not accept is an error when it is set, or when the thread is
created with it. -/
def Action.Possible (accepts : Int → Bool) (priorityTable : List Int) (state : State) :
    Action → Prop
  | .create results => ∀ priority ∈ priorityTable[state.context.length]?,
      accepts priority = true ∨ results.setSchedParam ≠ 0 ∨ results.create ≠ 0
  | _ => True

instance (accepts : Int → Bool) (priorityTable : List Int) (state : State) (action : Action) :
    Decidable (action.Possible accepts priorityTable state) :=
  match action with
  | .create results => inferInstanceAs (Decidable (∀ priority ∈ priorityTable[_]?,
      accepts priority = true ∨ results.setSchedParam ≠ 0 ∨ results.create ≠ 0))
  | .set | .join | .finish | .thread _ => inferInstanceAs (Decidable True)

def State.endSlice (state : State) (index : Nat) : State :=
  { state with runnable := expire state.runnable index, current := none }

/-- A slice is time in which its thread executes: it ends only behind a step of that thread. -/
def State.stepAs (strerror : Int → StdString) (accepts : Int → Bool) (policy : Int)
    (priorityTable : List Int) (state : State) : Move → Option State
  | .act action =>
      if action.Possible accepts priorityTable state then
        state.step strerror policy priorityTable action
      else none
  | .expire =>
      match state.current with
      | none => none
      | some index =>
          if state.creator ≠ .exited ∧ (state.scheduling index).policy = schedRr then
            some (state.endSlice index)
          else none

/-- `run<Policy>(priority_table)` -/
def runPolicy (strerror : Int → StdString) (accepts : Int → Bool) (policy : Int)
    (priorityTable : List Int) (globalValue : Int) : Machine State Move where
  initial := (run strerror policy priorityTable globalValue).initial
  step state move := state.stepAs strerror accepts policy priorityTable move

def Move.erase : Move → List Action
  | .act action => [action]
  | .expire => []

end Libpreempt.Tests.Decrement
