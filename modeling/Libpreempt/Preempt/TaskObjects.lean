import Libpreempt.Preempt.LastError
import Libpreempt.Preempt.ThreadProgram

/-! The tasks as programs of thread objects: their member or the elements of their
vector, in the storage that it has at the time, and the temporaries of `spawn`. -/

set_option autoImplicit false

namespace Libpreempt.Preempt

open Libpreempt.Base Libpreempt.Stdlib Libpreempt.Transition

/-- Where the objects of a task are. A vector that grows has new storage. -/
inductive Place where
  | temporary
  | member
  | element (storage index : Nat)
  deriving DecidableEq, Repr

abbrev Objects := ThreadProgram Place Thread

def Objects.joinable (objects : Objects) (place : Place) : Bool :=
  (objects.object place).any ThreadType.joinable

/-!
## `mono_task`
-/

namespace MonoTask

/-- `if (joinable()) thread_.join();` -/
def joinCalls (objects : Objects) : List (ObjectCall Place) :=
  if objects.joinable .member then [.join .member] else []

/-- `thread_ = Thread {...};` -/
def objectCalls (objects : Objects) : Call → List (ObjectCall Place)
  | .spawn constructed =>
      joinCalls objects ++ .launch .temporary constructed ::
        if constructed then [.moveAssign .member .temporary, .destroy .temporary] else []
  | .tryScheduling policy priority errnum => [.tryScheduling .member policy priority errnum]
  | .join => joinCalls objects

def objectMachine (ndebug : Bool) (strerror : Int → StdString) : Machine Objects Call where
  initial := (ThreadProgram.machine Place Thread ndebug strerror).initial.assign .member
    ThreadType.empty
  step objects call :=
    (ThreadProgram.machine Place Thread ndebug strerror).run objects (objectCalls objects call)

def destroyCalls : List (ObjectCall Place) := [.destroy .member]

end MonoTask

/-!
## `poly_task`
-/

namespace PolyTask

/-- The vector is where its elements are, and how many there are and may be. -/
structure Stored where
  objects : Objects
  storage : Nat := 0
  size : Nat := 0
  capacity : Nat := 0

/-- The elements from `index` on are moved into the new storage. -/
def relocateCalls (storage index : Nat) : Nat → List (ObjectCall Place)
  | 0 => []
  | more + 1 =>
      .moveConstruct (.element (storage + 1) index) (.element storage index) ::
        .destroy (.element storage index) :: relocateCalls storage (index + 1) more

/-- `threads_.emplace_back(Thread {...})` with the temporary there; the new element is built
before the others are moved. -/
def emplaceCalls (stored : Stored) : List (ObjectCall Place) :=
  if stored.size = stored.capacity then
    .moveConstruct (.element (stored.storage + 1) stored.size) .temporary ::
      relocateCalls stored.storage 0 stored.size
  else [.moveConstruct (.element stored.storage stored.size) .temporary]

/-- The loop ends with the first element that throws. -/
def joinCalls (objects : Objects) (storage index : Nat) : Nat → List (ObjectCall Place)
  | 0 => []
  | more + 1 =>
      .join (.element storage index) ::
        if objects.joinable (.element storage index) then
          joinCalls objects storage (index + 1) more
        else []

def objectCalls (stored : Stored) : ErrorCall → List (ObjectCall Place)
  | .spawn constructed =>
      .launch .temporary constructed ::
        if constructed then emplaceCalls stored ++ [.destroy .temporary] else []
  | .tryScheduling index policy priority errnum =>
      [.tryScheduling (.element stored.storage index) policy priority errnum]
  | .join => joinCalls stored.objects stored.storage 0 stored.size

/-- The vector behind the call. -/
def Stored.after (growth : Growth) (stored : Stored) (objects : Objects) : ErrorCall → Stored
  | .spawn true =>
      if stored.size = stored.capacity then
        { objects
          storage := stored.storage + 1
          size := stored.size + 1
          capacity := growth.next stored.capacity }
      else { stored with objects, size := stored.size + 1 }
  | _ => { stored with objects }

def objectMachine (ndebug : Bool) (strerror : Int → StdString) (growth : Growth) :
    Machine Stored ErrorCall where
  initial := { objects := (ThreadProgram.machine Place Thread ndebug strerror).initial }
  step stored call :=
    ((ThreadProgram.machine Place Thread ndebug strerror).run stored.objects
      (objectCalls stored call)).map fun objects => stored.after growth objects call

def destroyCalls (stored : Stored) : List (ObjectCall Place) :=
  (List.range stored.size).map fun index => .destroy (.element stored.storage index)

end PolyTask

end Libpreempt.Preempt
