import Libpreempt.Ownership.Custody
import Libpreempt.Preempt.ThreadObject

/-! Programs over variables that hold thread objects: their construction, moves,
swaps, `join()` and `detach()`, scheduling and destruction, up to the end of the
process. -/

set_option autoImplicit false

namespace Libpreempt.Preempt

open Libpreempt.Base Libpreempt.Ownership Libpreempt.Stdlib Libpreempt.Transition

inductive Release where
  | joined
  | detached
  deriving DecidableEq, Repr

/-- The end of the process other than by returning from `main()`. -/
inductive End where
  | terminate
  | quickExit
  deriving DecidableEq, Repr

/-- The variables that are alive, `global_verify_flag()`, and the history of the
threads, of the exceptions and of the answers of `try_scheduling()`. -/
structure ThreadProgram (Var Object : Type) where
  object : Var → Option Object
  created : Nat := 0
  released : List (ThreadId × Release) := []
  verified : Bool := true
  thrown : List SystemError := []
  answers : List Bool := []
  ended : Option End := none

inductive ObjectCall (Var : Type) where
  | default (target : Var)
  /-- `thread(f, args...)`; the creation of the thread may fail. -/
  | launch (target : Var) (constructed : Bool)
  /-- `thread(std::thread {f, args...})` -/
  | adopt (target : Var) (constructed : Bool)
  /-- `thread(policy, priority, f, args...)` -/
  | launchRealtime (target : Var) (constructed : Bool) (policy priority errnum : Int)
  | moveConstruct (target source : Var)
  | moveAssign (target source : Var)
  | swap (left right : Var)
  | join (target : Var)
  | detach (target : Var)
  | tryScheduling (target : Var) (policy priority errnum : Int)
  | changeScheduling (target : Var) (policy priority errnum : Int)
  | destroy (target : Var)
  deriving DecidableEq, Repr

namespace ThreadProgram

variable {Var Object : Type} [DecidableEq Var]

def assign (program : ThreadProgram Var Object) (target : Var) (object : Object) :
    ThreadProgram Var Object :=
  { program with object := Function.update program.object target (some object) }

def remove (program : ThreadProgram Var Object) (target : Var) : ThreadProgram Var Object :=
  { program with object := Function.update program.object target none }

def verify (program : ThreadProgram Var Object) (verified : Bool) : ThreadProgram Var Object :=
  { program with verified := program.verified && verified }

def throw (program : ThreadProgram Var Object) (error : SystemError) : ThreadProgram Var Object :=
  { program with thrown := error :: program.thrown }

def answer (program : ThreadProgram Var Object) (success : Bool) : ThreadProgram Var Object :=
  { program with answers := success :: program.answers }

def finish (program : ThreadProgram Var Object) (reason : End) : ThreadProgram Var Object :=
  { program with ended := some reason }

variable [ThreadObject Object]

/-- The release of the thread that `object` represents. -/
def release (program : ThreadProgram Var Object) (object : Object) (way : Release) :
    ThreadProgram Var Object :=
  { program with released := ((ThreadType.getId object).map (·, way)).toList ++ program.released }

def change (strerror : Int → StdString) (program : ThreadProgram Var Object) (target : Var)
    (object : Object) (policy priority errnum : Int) : ThreadProgram Var Object :=
  let program := program.verify (verifyPriority policy priority)
  match ThreadObject.changeScheduling strerror object policy priority errnum with
  | some object => program.assign target object
  | none => program.finish .quickExit

/-- A variable that is not alive with a new thread, or the exception. -/
def place (program : ThreadProgram Var Object) (target : Var) :
    Except SystemError Object → Except (ThreadProgram Var Object) (ThreadProgram Var Object × Object)
  | .error error => .error (program.throw error)
  | .ok object => .ok ({ program.assign target object with created := program.created + 1 }, object)

def launch (program : ThreadProgram Var Object) (target : Var) (constructed : Bool) :
    Except (ThreadProgram Var Object) (ThreadProgram Var Object × Object) :=
  program.place target (ThreadType.construct program.created constructed)

/-- The temporary that the thread is moved from is destroyed without it. -/
def adopt (program : ThreadProgram Var Object) (target : Var) (constructed : Bool) :
    Except (ThreadProgram Var Object) (ThreadProgram Var Object × Object) :=
  let other : Except SystemError StdThread := ThreadType.construct program.created constructed
  program.place target (other.map ThreadObject.adopt)

/-- What becomes of an exception that is not caught, `exitCode` says. A variable is alive from
its construction to its destruction, and nothing else is called on it. -/
def perform (ndebug : Bool) (strerror : Int → StdString) (program : ThreadProgram Var Object) :
    ObjectCall Var → Option (ThreadProgram Var Object)
  | .default target =>
      match program.object target with
      | some _ => none
      | none => some (program.assign target ThreadType.empty)
  | .launch target constructed =>
      match program.object target with
      | some _ => none
      | none =>
          match program.launch target constructed with
          | .error program => some program
          | .ok (program, _) => some program
  | .adopt target constructed =>
      match program.object target with
      | some _ => none
      | none =>
          match program.adopt target constructed with
          | .error program => some program
          | .ok (program, _) => some program
  | .launchRealtime target constructed policy priority errnum =>
      match program.object target with
      | some _ => none
      | none =>
          match program.launch target constructed with
          | .error program => some program
          | .ok (program, object) =>
              some (program.change strerror target object policy priority errnum)
  | .moveConstruct target source =>
      match program.object target, program.object source with
      | none, some other =>
          some ((program.assign source (ThreadObject.movedFrom other)).assign target
            (ThreadType.moveConstruct other))
      | _, _ => none
  | .moveAssign target source =>
      match program.object target, program.object source with
      | some object, some other =>
          match ThreadType.moveAssign object other with
          | none => some (program.finish .terminate)
          | some assigned =>
              some ((program.assign source (ThreadObject.movedFrom other)).assign target assigned)
      | _, _ => none
  | .swap left right =>
      match program.object left, program.object right with
      | some object, some other =>
          let (first, second) := ThreadObject.swap object other
          some ((program.assign left first).assign right second)
      | _, _ => none
  | .join target =>
      match program.object target with
      | none => none
      | some object =>
          match ThreadType.join object with
          | .error error => some (program.throw error)
          | .ok joined => some ((program.release object .joined).assign target joined)
  | .detach target =>
      match program.object target with
      | none => none
      | some object =>
          match ThreadObject.detach object with
          | .error error => some (program.throw error)
          | .ok detached => some ((program.release object .detached).assign target detached)
  | .tryScheduling target policy priority errnum =>
      match program.object target with
      | none => none
      | some object =>
          let (success, tried) := ThreadObject.tryScheduling strerror object policy priority errnum
          some (((program.verify (verifyPriority policy priority)).answer success).assign target
            tried)
  | .changeScheduling target policy priority errnum =>
      match program.object target with
      | none => none
      | some object => some (program.change strerror target object policy priority errnum)
  | .destroy target =>
      match program.object target with
      | none => none
      | some object =>
          let program := program.verify (ThreadObject.verifyDestructor ndebug object)
          if ThreadType.joinable object then some (program.finish .terminate)
          else some (program.remove target)

def machine (Var Object : Type) [DecidableEq Var] [ThreadObject Object] (ndebug : Bool)
    (strerror : Int → StdString) : Machine (ThreadProgram Var Object) (ObjectCall Var) where
  initial := { object := fun _ => none }
  step program call :=
    if program.ended = none then program.perform ndebug strerror call else none

/-!
## What a program shows
-/

def handle (program : ThreadProgram Var Object) (var : Var) : Option ThreadId :=
  (program.object var).bind ThreadType.getId

def custody (program : ThreadProgram Var Object) : Custody Var Release :=
  ⟨program.handle, program.created, program.released⟩

end ThreadProgram

/-- The threads that the live variables represent, the history, and the flag
while the process runs. -/
structure Shown (Var : Type) where
  object : Var → Option (Option ThreadId)
  created : Nat := 0
  released : List (ThreadId × Release) := []
  verified : Option Bool := some true
  thrown : List SystemError := []
  answers : List Bool := []
  ended : Option End := none

def ThreadProgram.shown {Var Object : Type} [ThreadObject Object]
    (program : ThreadProgram Var Object) : Shown Var where
  object var := (program.object var).map ThreadType.getId
  created := program.created
  released := program.released
  verified := if program.ended = none then some program.verified else none
  thrown := program.thrown
  answers := program.answers
  ended := program.ended

namespace Shown

variable {Var : Type}

def custody (shown : Shown Var) : Custody Var Release :=
  ⟨fun var => (shown.object var).join, shown.created, shown.released⟩

def verify (shown : Shown Var) (verified : Bool) : Shown Var :=
  { shown with verified := shown.verified.map (· && verified) }

def finish (shown : Shown Var) (reason : End) : Shown Var :=
  { shown with verified := none, ended := some reason }

def change (shown : Shown Var) (joinable : Bool) (policy priority errnum : Int) : Shown Var :=
  if Schedulable joinable errnum then shown.verify (verifyPriority policy priority)
  else shown.finish .quickExit

theorem change_careful {shown : Shown Var} (running : shown.ended = none) (joinable : Bool)
    (policy priority errnum : Int) :
    if Schedulable joinable errnum then
      (shown.change joinable policy priority errnum).ended = none ∧
        (shown.change joinable policy priority errnum).verified =
          shown.verified.map (· && verifyPriority policy priority)
    else (shown.change joinable policy priority errnum).ended ≠ none := by
  unfold change
  split
  · exact ⟨running, rfl⟩
  · simp [finish]

theorem thrown_change (shown : Shown Var) (joinable : Bool) (policy priority errnum : Int) :
    (shown.change joinable policy priority errnum).thrown = shown.thrown := by
  unfold change
  split <;> rfl

variable [DecidableEq Var]

def assign (shown : Shown Var) (target : Var) (handle : Option ThreadId) : Shown Var :=
  { shown with object := Function.update shown.object target (some handle) }

def launch (shown : Shown Var) (target : Var) (constructed : Bool) : Shown Var :=
  if constructed then
    { shown.assign target (some shown.created) with created := shown.created + 1 }
  else { shown with thrown := .resourceUnavailable :: shown.thrown }

def release (shown : Shown Var) (target : Var) (handle : Option ThreadId) (way : Release) :
    Shown Var :=
  match handle with
  | none => { shown with thrown := .invalidArgument :: shown.thrown }
  | some id => { shown.assign target none with released := (id, way) :: shown.released }

/-- The calls as they are documented, by the threads that the variables represent. -/
def perform (shown : Shown Var) : ObjectCall Var → Option (Shown Var)
  | .default target =>
      if shown.object target = none then some (shown.assign target none) else none
  | .launch target constructed =>
      if shown.object target = none then some (shown.launch target constructed) else none
  | .adopt target constructed =>
      if shown.object target = none then some (shown.launch target constructed) else none
  | .launchRealtime target constructed policy priority errnum =>
      if shown.object target = none then
        if constructed then
          some ((shown.launch target true).change true policy priority errnum)
        else some (shown.launch target false)
      else none
  | .moveConstruct target source =>
      match shown.object target, shown.object source with
      | none, some handle => some ((shown.assign source none).assign target handle)
      | _, _ => none
  | .moveAssign target source =>
      match shown.object target, shown.object source with
      | some (some _), some _ => some (shown.finish .terminate)
      | some none, some handle => some ((shown.assign source none).assign target handle)
      | _, _ => none
  | .swap left right =>
      match shown.object left, shown.object right with
      | some first, some second => some ((shown.assign left second).assign right first)
      | _, _ => none
  | .join target => (shown.object target).map fun handle => shown.release target handle .joined
  | .detach target => (shown.object target).map fun handle => shown.release target handle .detached
  | .tryScheduling target policy priority errnum =>
      (shown.object target).map fun handle =>
        { shown.verify (verifyPriority policy priority) with
          answers := Schedulable handle.isSome errnum :: shown.answers }
  | .changeScheduling target policy priority errnum =>
      (shown.object target).map fun handle => shown.change handle.isSome policy priority errnum
  | .destroy target =>
      (shown.object target).map fun handle =>
        if handle.isSome then shown.finish .terminate
        else { shown with object := Function.update shown.object target none }

def documented (Var : Type) [DecidableEq Var] : Machine (Shown Var) (ObjectCall Var) where
  initial := { object := fun _ => none }
  step shown call := if shown.ended = none then shown.perform call else none

end Shown

namespace ThreadProgram

section Shown

variable {Var Object : Type} [ThreadObject Object] {program : ThreadProgram Var Object}

theorem shown_object {var : Var} {object : Object} (alive : program.object var = some object) :
    program.shown.object var = some (ThreadType.getId object) := by
  simp only [shown, alive, Option.map_some]

theorem shown_object_none {var : Var} (dead : program.object var = none) :
    program.shown.object var = none := by
  simp only [shown, dead, Option.map_none]

theorem shown_finish (reason : End) :
    (program.finish reason).shown = program.shown.finish reason := by
  simp [shown, finish, Shown.finish]

theorem shown_verify (running : program.ended = none) (verified : Bool) :
    (program.verify verified).shown = program.shown.verify verified := by
  simp [shown, verify, Shown.verify, running]

variable [DecidableEq Var]

theorem shown_assign (target : Var) (object : Object) :
    (program.assign target object).shown =
      program.shown.assign target (ThreadType.getId object) := by
  have same : (program.assign target object).shown.object =
      Function.update program.shown.object target (some (ThreadType.getId object)) := by
    funext var
    by_cases same : var = target
    · subst same
      simp [shown, assign]
    · simp [shown, assign, same]
  exact congrArg (fun object => { program.shown with object }) same

theorem shown_remove (target : Var) :
    (program.remove target).shown =
      { program.shown with object := Function.update program.shown.object target none } := by
  have same : (program.remove target).shown.object =
      Function.update program.shown.object target none := by
    funext var
    by_cases same : var = target
    · subst same
      simp [shown, remove]
    · simp [shown, remove, same]
  exact congrArg (fun object => { program.shown with object }) same

theorem shown_release {program : ThreadProgram Var Object} (target : Var) {object after : Object}
    {id : ThreadId} (known : ThreadType.getId object = some id)
    (gone : ThreadType.getId after = none) (way : Release) :
    ((program.release object way).assign target after).shown =
      program.shown.release target (some id) way := by
  rw [shown_assign, gone]
  simp [release, known, shown, Shown.assign, Shown.release]

end Shown

end ThreadProgram

/-- The exit code: of `abort()`, of `quick_exit`, or of
`return global_verify_flag() ? EXIT_SUCCESS : EXIT_FAILURE`. An exception that is not caught ends in
`abort()`. -/
def ThreadProgram.exitCode {Var Object : Type} (caught : Bool)
    (program : ThreadProgram Var Object) : Nat :=
  if caught = false ∧ program.thrown ≠ [] then 134
  else
    match program.ended with
    | some .terminate => 134
    | some .quickExit => 1
    | none => if program.verified then 0 else 1

def Shown.exitCode {Var : Type} (caught : Bool) (shown : Shown Var) : Nat :=
  if caught = false ∧ shown.thrown ≠ [] then 134
  else
    match shown.ended with
    | some .terminate => 134
    | some .quickExit => 1
    | none => if shown.verified = some true then 0 else 1

/-- No thread is destroyed or overwritten with its object, and no change of scheduling refused. -/
def Shown.careful {Var : Type} (shown : Shown Var) : ObjectCall Var → Bool
  | .launchRealtime _ true _ _ errnum => Schedulable true errnum
  | .moveAssign target _ => (shown.object target).join.isNone
  | .changeScheduling target _ _ errnum => Schedulable (shown.object target).join.isSome errnum
  | .destroy target => (shown.object target).join.isNone
  | _ => true

/-- A thread cannot be created, or there is none to join or to detach. -/
def Shown.throws {Var : Type} (shown : Shown Var) : ObjectCall Var → Bool
  | .launch _ constructed => !constructed
  | .adopt _ constructed => !constructed
  | .launchRealtime _ constructed _ _ _ => !constructed
  | .join target => (shown.object target).join.isNone
  | .detach target => (shown.object target).join.isNone
  | _ => false

/-- Whether the call passes its `VERIFY`, if it is one that reaches it. -/
def ObjectCall.verifies {Var : Type} : ObjectCall Var → Bool
  | .launchRealtime _ true policy priority _ => verifyPriority policy priority
  | .tryScheduling _ policy priority _ => verifyPriority policy priority
  | .changeScheduling _ policy priority _ => verifyPriority policy priority
  | _ => true

end Libpreempt.Preempt
