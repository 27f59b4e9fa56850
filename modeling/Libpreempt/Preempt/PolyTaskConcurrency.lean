import Libpreempt.Preempt.PolyTaskProperties
import Mathlib.Logic.Function.Basic

/-! Several callers in `poly_task::spawn` at once. The statement
`std::lock_guard<decltype(lock_)> {lock_};` creates a temporary, and the
lifetime of a temporary ends with its statement: `lock_` is released before
the new thread is appended. -/

set_option autoImplicit false

namespace Libpreempt.Preempt.PolyTask

open Libpreempt.Stdlib Libpreempt.Transition

inductive Point where
  | outside
  -- the temporary `lock_guard` is alive
  | guarded
  | unguarded
  -- `own` was appended, `threads_.back()` not yet read
  | appended (own : ThreadId)
  deriving DecidableEq, Repr

inductive Action (Caller : Type) where
  | acquire (caller : Caller)
  | release (caller : Caller)
  | append (caller : Caller)
  | back (caller : Caller)
  deriving DecidableEq, Repr

structure Return (Caller : Type) where
  caller : Caller
  own : ThreadId
  element : Option ThreadId
  deriving DecidableEq, Repr

structure Shared (Caller Thread : Type) where
  lock : Option Caller
  task : PolyTask Thread
  created : Nat
  point : Caller → Point
  -- the calls that each caller has still to make
  remaining : Caller → Nat
  returned : List (Return Caller)

variable {Caller : Type} [DecidableEq Caller]

def Shared.move {Thread : Type} (shared : Shared Caller Thread) (caller : Caller)
    (point : Point) : Shared Caller Thread :=
  { shared with point := Function.update shared.point caller point }

def Shared.step {Thread : Type} [ThreadType Thread] (growth : Growth)
    (shared : Shared Caller Thread) : Action Caller → Option (Shared Caller Thread)
  | .acquire caller =>
      if shared.lock = none ∧ shared.point caller = .outside ∧ 0 < shared.remaining caller then
        some { shared.move caller .guarded with
          lock := some caller
          remaining := Function.update shared.remaining caller (shared.remaining caller - 1) }
      else none
  | .release caller =>
      if shared.point caller = .guarded then
        some { shared.move caller .unguarded with lock := none }
      else none
  | .append caller =>
      if shared.point caller = .unguarded then
        some { shared.move caller (.appended shared.created) with
          task := shared.task.append growth (ThreadType.launched shared.created)
          created := shared.created + 1 }
      else none
  | .back caller =>
      match shared.point caller with
      | .appended own =>
          some { shared.move caller .outside with
            returned := shared.returned ++
              [⟨caller, own, shared.task.back.bind ThreadType.getId⟩] }
      | _ => none

def concurrent (Thread : Type) [ThreadType Thread] (growth : Growth) (workload : Caller → Nat) :
    Machine (Shared Caller Thread) (Action Caller) where
  initial := ⟨none, empty, 0, fun _ => .outside, workload, []⟩
  step shared action := shared.step growth action

/-- No append falls between the append and the `back()` of another call, and
a call returns the element that holds the thread it created. -/
def SpawnLaw {Thread : Type} (before : Shared Caller Thread) :
    Action Caller → Shared Caller Thread → Prop
  | .append caller, _ =>
      ∀ other, other ≠ caller → ∀ own, before.point other ≠ .appended own
  | .back caller, after =>
      ∃ own, after.returned = before.returned ++ [⟨caller, own, some own⟩]
  | _, _ => True

end Libpreempt.Preempt.PolyTask
