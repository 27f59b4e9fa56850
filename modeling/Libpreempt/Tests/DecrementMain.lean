import Libpreempt.Tests.DecrementProgress

/-! The process of `tests/preempt_03_decrement.cc`: `main` calls `run` for one table
after the other, and its exit status tells whether every `VERIFY` held. -/

set_option autoImplicit false

namespace Libpreempt.Tests.Decrement

open Libpreempt.Base Libpreempt.Scheduling Libpreempt.Transition

/-- A call `run<Policy>(priority_table)`. -/
structure Call where
  policy : Int
  priorityTable : List Int
  deriving DecidableEq, Repr

/-- The calls that `main` has yet to make, and the one that it is in. -/
structure Main where
  pending : List Call
  call : Call
  state : State

inductive Progress where
  | call
  | move (move : Move)
  deriving DecidableEq, Repr

/-- Before the first call there is nothing to do but to make it. -/
def Main.begin (calls : List Call) : Main where
  pending := calls
  call := ⟨schedOther, []⟩
  state := { (run (fun _ => []) schedOther [] 0).initial with creator := .finished }

/-- `global_value` and the flag of `VERIFY` are the process's. -/
def Main.enter (strerror : Int → StdString) (main : Main) (call : Call) (pending : List Call) :
    Main where
  pending := pending
  call := call
  state := { (run strerror call.policy call.priorityTable main.state.globalValue).initial with
    verified := main.state.verified }

def Main.step (strerror : Int → StdString) (accepts : Int → Bool) (main : Main) :
    Progress → Option Main
  | .call =>
      match main.pending with
      | [] => none
      | call :: pending =>
          if main.state.creator = .finished then some (main.enter strerror call pending) else none
  | .move move =>
      (main.state.stepAs strerror accepts main.call.policy main.call.priorityTable move).map
        fun state => { main with state }

/-- `EXIT_SUCCESS` or `EXIT_FAILURE` once the process has ended. -/
def Main.exitStatus (main : Main) : Option Nat :=
  match main.state.creator with
  | .exited => some 1
  | .finished =>
      if main.pending = [] then some (if main.state.verified then 0 else 1) else none
  | .start | .running => none

def main (strerror : Int → StdString) (accepts : Int → Bool) (calls : List Call) :
    Machine Main Progress where
  initial := .begin calls
  step := Main.step strerror accepts

/-- The calls that the source makes. -/
def calls : List Call :=
  [⟨schedFifo, [1, 1, 1]⟩, ⟨schedFifo, [10, 10, 10]⟩, ⟨schedFifo, [30, 20, 10]⟩,
    ⟨schedFifo, [30, 29, 28, 20, 19, 18]⟩, ⟨schedRr, [30, 20, 10]⟩,
    ⟨schedRr, [30, 29, 28, 27, 26, 25]⟩]

end Libpreempt.Tests.Decrement
