import Libpreempt.Base.Threading
import Libpreempt.Transition.Machine
import Mathlib.Logic.Function.Basic

/-! Values of `base::thread` in the variables of a program. They are copied
freely while the thread of execution is shared: the flag `joinable` belongs to
the value, not to the thread. -/

set_option autoImplicit false

namespace Libpreempt.Base

open Libpreempt.Transition

/-- The variables of a program; `live` are the threads that were created and
not yet successfully joined. -/
structure Store (Var : Type) where
  value : Var → Thread
  created : List PthreadId
  live : List PthreadId

inductive Operation (Var : Type) where
  | default (target : Var)
  | construct (target : Var) (policy priority : Int) (funp : Bool) (results : PthreadResults)
  | copy (target source : Var)
  | join (target : Var) (errnum : Int)
  deriving DecidableEq, Repr

variable {Var : Type} [DecidableEq Var]

def Store.assign (store : Store Var) (target : Var) (thread : Thread) :
    Store Var :=
  { store with value := Function.update store.value target thread }

/-- `pthread_create` returns the id of no live thread; it may return the id of
a thread that was joined. -/
def Store.perform (strerror : Int → StdString) (store : Store Var) :
    Operation Var → Option (Store Var)
  | .default target => some (store.assign target {})
  | .construct target policy priority funp results =>
      let constructed := Thread.construct strerror policy priority funp results
      if constructed.created.isSome then
        if results.id ∈ store.live then none
        else some { store.assign target constructed.thread with
          created := results.id :: store.created
          live := results.id :: store.live }
      else some (store.assign target constructed.thread)
  | .copy target source => some (store.assign target (store.value source))
  | .join target errnum =>
      let thread := store.value target
      if thread.joinable then
        some { store.assign target (thread.join strerror errnum) with
          live := if errnum = 0 then store.live.filter (· ≠ thread.id) else store.live }
      else none

def threadValues (Var : Type) [DecidableEq Var] (strerror : Int → StdString) :
    Machine (Store Var) (Operation Var) where
  initial := ⟨fun _ => {}, [], []⟩
  step store operation := store.perform strerror operation

def Store.Sound (store : Store Var) : Prop :=
  ∀ var, (store.value var).joinable = true → (store.value var).id ∈ store.live

def FlagLaw (before : Store Var) (operation : Operation Var) (after : Store Var) : Prop :=
  after.Sound ∧
    ∀ target errnum, operation = .join target errnum →
      (before.value target).id ∈ before.live

/-- A successful `join()` is made while no other value reports the same thread
joinable. -/
def SoleGuard (store : Store Var) (operation : Operation Var) : Prop :=
  ∀ target, operation = .join target 0 → ∀ other, other ≠ target →
    (store.value other).joinable = true →
    (store.value other).id ≠ (store.value target).id

end Libpreempt.Base
