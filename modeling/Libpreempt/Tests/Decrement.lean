import Libpreempt.Base.Threading
import Libpreempt.Scheduling.PriorityFifo
import Libpreempt.Transition.Machine
import Mathlib.Data.Int.Order.Basic
import Mathlib.Logic.Function.Basic

/-! The template `run<Policy>` of `tests/preempt_03_decrement.cc`: an ordinary
thread creates a realtime thread for each entry of a table of priorities and
joins them; each decrements a counter that nothing protects. -/

set_option autoImplicit false

namespace Libpreempt.Tests.Decrement

open Libpreempt.Base Libpreempt.Scheduling Libpreempt.Transition

inductive Creator where
  | start
  | running
  | finished
  -- `exit(EXIT_FAILURE)`
  | exited
  deriving DecidableEq, Repr

/-- Where a realtime thread is in `decrement`; `global_value--` is a read and a
write. -/
inductive Point where
  | absent
  | entry
  | compared
  | loaded (value : Int)
  | written
  | ended
  deriving DecidableEq, Repr

structure Comparison where
  thread : Nat
  found : Int
  expected : Int
  deriving DecidableEq, Repr

structure State where
  globalValue : Int
  creator : Creator
  context : List Base.Thread
  joined : Nat
  point : Nat → Point
  scheduling : Nat → Scheduling
  -- the realtime threads in the order in which they became runnable
  runnable : List Nat
  current : Option Nat
  comparisons : List Comparison
  writes : Nat
  verified : Bool

inductive Action where
  | set
  | create (results : PthreadResults)
  | join
  | finish
  | thread (index : Nat)
  deriving DecidableEq, Repr

def expected (priorityTable : List Int) (index : Nat) : Int := priorityTable.length - index

/-- `VERIFY(i == 0 || priority_table[i] <= priority_table[i - 1])` for every `i`. -/
def descending : List Int → Bool
  | first :: second :: rest => decide (second ≤ first) && descending (second :: rest)
  | _ => true

/-- The scheduling rule of both realtime policies; any other thread may run at any time. -/
def State.Scheduled (state : State) (index : Nat) : Prop :=
  (state.scheduling index).policy = schedFifo ∨ (state.scheduling index).policy = schedRr →
    Dispatch (fun thread => (state.scheduling thread).priority) state.runnable state.current index

instance (state : State) (index : Nat) : Decidable (state.Scheduled index) :=
  inferInstanceAs (Decidable (_ → _))

def State.move (state : State) (index : Nat) (point : Point) : State :=
  { state with point := Function.update state.point index point, current := some index }

def State.decrement (priorityTable : List Int) (state : State) (index : Nat) : Option State :=
  match state.point index with
  | .entry =>
      some { state.move index .compared with
        comparisons := state.comparisons ++
          [⟨index, state.globalValue, expected priorityTable index⟩]
        verified := state.verified &&
          decide (state.globalValue = expected priorityTable index) }
  | .compared => some (state.move index (.loaded state.globalValue))
  | .loaded value =>
      some { state.move index .written with
        globalValue := value - 1
        writes := state.writes + 1 }
  | .written =>
      some { state.move index .ended with
        runnable := state.runnable.filter (· ≠ index)
        current := none }
  | .absent | .ended => none

def creatorScheduling : Scheduling := ⟨schedOther, 0⟩

/-- `pthread_create` names the new thread by its index and makes it runnable. -/
def State.start (state : State) (index : Nat) (attr : PthreadAttr) : State :=
  { state with
    point := Function.update state.point index .entry
    scheduling := Function.update state.scheduling index (attr.scheduling creatorScheduling)
    runnable := state.runnable ++ [index] }

/-- `context[i] = base::thread(Policy, ...)`; the process exits unless it is joinable. -/
def State.create (strerror : Int → StdString) (policy : Int) (state : State) (priority : Int)
    (results : PthreadResults) : State :=
  let index := state.context.length
  let constructed := Thread.construct strerror policy priority true { results with id := index }
  let started :=
    match constructed.created with
    | none => state
    | some attr => state.start index attr
  { started with
    creator := if constructed.thread.joinable then .running else .exited
    context := state.context ++ [constructed.thread]
    verified := state.verified && constructed.verified }

def State.step (strerror : Int → StdString) (policy : Int) (priorityTable : List Int)
    (state : State) : Action → Option State
  | .set =>
      if state.creator = .start then
        some { state with
          globalValue := priorityTable.length
          creator := .running
          verified := state.verified && descending priorityTable }
      else none
  | .create results =>
      if state.creator = .running then
        (priorityTable[state.context.length]?).map fun priority =>
          state.create strerror policy priority results
      else none
  | .join =>
      -- `pthread_join` blocks until the thread has ended; `c` is a copy
      if state.creator = .running ∧ state.context.length = priorityTable.length then
        match state.context[state.joined]? with
        | none => none
        | some c =>
            if state.point c.id = .ended then
              some { state with
                joined := state.joined + 1
                verified := state.verified && c.joinable }
            else none
      else none
  | .finish =>
      if state.creator = .running ∧ state.context.length = priorityTable.length ∧
          state.joined = priorityTable.length then
        some { state with
          creator := .finished
          verified := state.verified && decide (state.globalValue = 0) }
      else none
  | .thread index =>
      if state.creator ≠ .exited ∧ state.Scheduled index then state.decrement priorityTable index
      else none

def run (strerror : Int → StdString) (policy : Int) (priorityTable : List Int)
    (globalValue : Int) : Machine State Action where
  initial :=
    { globalValue
      creator := .start
      context := []
      joined := 0
      point := fun _ => .absent
      scheduling := fun _ => creatorScheduling
      runnable := []
      current := none
      comparisons := []
      writes := 0
      verified := true }
  step state action := state.step strerror policy priorityTable action

end Libpreempt.Tests.Decrement
