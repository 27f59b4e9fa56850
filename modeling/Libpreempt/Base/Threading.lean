import Libpreempt.Base.String

/-! `base::thread` and the scheduling functions of `base/threading.h`. The
results of the pthread calls are arguments; `0` is success. `strerror` is the
text that the C library gives for an error number. -/

set_option autoImplicit false

namespace Libpreempt.Base

/-! ## Numbers of the system headers -/

def schedOther : Int := 0
def schedFifo : Int := 1
def schedRr : Int := 2

def esrch : Int := 3

/-- `VERIFY(priority > 0)` of the policies that need a static priority. A
failed check is reported and cleared from the global flag; execution goes on. -/
def verifyPriority (policy priority : Int) : Bool :=
  if policy = schedFifo ∨ policy = schedRr then decide (0 < priority) else true

def errorText (strerror : Int → StdString) (message : StdString) (errnum : Int) : StdString :=
  sprintf (message ++ ": '".toList ++ strerror errnum ++ "'".toList)

/-!
## `base::thread`
-/

abbrev PthreadId := Nat

inductive DetachState where
  | joinable
  | detached
  deriving DecidableEq, Repr

inductive InheritSched where
  | inherit
  | explicit
  deriving DecidableEq, Repr

/-- `pthread_attr_t` as `pthread_attr_init` sets it. -/
structure PthreadAttr where
  detachState : DetachState := .joinable
  inheritSched : InheritSched := .inherit
  policy : Int := schedOther
  priority : Int := 0
  deriving DecidableEq, Repr

structure Scheduling where
  policy : Int
  priority : Int
  deriving DecidableEq, Repr

def PthreadAttr.scheduling (attr : PthreadAttr) (creator : Scheduling) : Scheduling :=
  match attr.inheritSched with
  | .inherit => creator
  | .explicit => ⟨attr.policy, attr.priority⟩

/-- `attrp` and `schp` own objects that are not changed after construction, so
the copies of a thread may each hold the value. -/
structure Thread where
  attr : Option PthreadAttr := none
  sched : Option Int := none
  joinable : Bool := false
  lastError : StdString := []
  id : PthreadId := 0
  deriving DecidableEq, Repr

/-- The results of the calls in the constructor, and what `pthread_create`
leaves in `id`. -/
structure PthreadResults where
  attrInit : Int := 0
  setDetachState : Int := 0
  setInheritSched : Int := 0
  setSchedPolicy : Int := 0
  setSchedParam : Int := 0
  create : Int := 0
  id : PthreadId := 0
  deriving DecidableEq, Repr

/-- The constructed value, the flag of `VERIFY`, and the attributes of the
thread of execution if one was created. -/
structure Construction where
  thread : Thread
  verified : Bool := true
  created : Option PthreadAttr := none
  deriving DecidableEq, Repr

namespace Thread

/-- `thread(int policy, int priority, function funp, void* argp)`; `funp` tells
whether the function pointer is set. -/
def construct (strerror : Int → StdString) (policy priority : Int) (funp : Bool)
    (results : PthreadResults) : Construction :=
  if funp = false then { thread := {} }
  else
    let thread : Thread := { attr := some {} }
    if results.attrInit ≠ 0 then
      { thread := { thread with
          lastError := errorText strerror "pthread_attr_init() failed".toList results.attrInit } }
    else
      let thread := { thread with sched := some priority }
      let verified := verifyPriority policy priority
      if results.setDetachState ≠ 0 then
        { thread := { thread with
            lastError := errorText strerror
              "pthread_attr_setdetachstate(PTHREAD_CREATE_JOINABLE) failed".toList
              results.setDetachState }
          verified }
      else
        let attr : PthreadAttr := { detachState := .joinable }
        if results.setInheritSched ≠ 0 then
          { thread := { thread with
              attr := some attr
              lastError := errorText strerror
                "pthread_attr_setinheritsched(PTHREAD_EXPLICIT_SCHED) failed".toList
                results.setInheritSched }
            verified }
        else
          let attr := { attr with inheritSched := .explicit }
          if results.setSchedPolicy ≠ 0 then
            { thread := { thread with
                attr := some attr
                lastError := errorText strerror
                  ("FAILED: pthread_attr_setschedpolicy(".toList ++ (toString policy).toList ++
                    ")".toList) results.setSchedPolicy }
              verified }
          else
            let attr := { attr with policy }
            if results.setSchedParam ≠ 0 then
              { thread := { thread with
                  attr := some attr
                  lastError := errorText strerror
                    ("FAILED: pthread_attr_setschedparam(".toList ++ (toString priority).toList ++
                      ")".toList) results.setSchedParam }
                verified }
            else
              let attr := { attr with priority }
              let thread := { thread with attr := some attr, id := results.id }
              if results.create ≠ 0 then
                { thread := { thread with
                    lastError := errorText strerror "thread() ctor failed".toList results.create }
                  verified }
              else
                { thread := { thread with joinable := true }
                  verified
                  created := some attr }

def join (strerror : Int → StdString) (thread : Thread) (errnum : Int) : Thread :=
  if errnum ≠ 0 then
    { thread with lastError := errorText strerror "thread::join() failed".toList errnum }
  else { thread with joinable := false, lastError := [] }

end Thread

/-!
## Scheduling of a running `std::thread`
-/

structure TryScheduling where
  success : Bool
  errorp : Option StdString
  verified : Bool
  deriving DecidableEq, Repr

/-- `errnum` is the result of `pthread_setschedparam`, which is not called for
a thread object that is not joinable. `ESRCH` means that the thread has
already exited. -/
def tryScheduling (strerror : Int → StdString) (joinable : Bool) (newPolicy newPriority : Int)
    (errnum : Int) (errorp : Option StdString) : TryScheduling :=
  let verified := verifyPriority newPolicy newPriority
  if joinable = false then ⟨true, errorp, verified⟩
  else if errnum ≠ 0 then
    if errnum = esrch then ⟨true, errorp, verified⟩
    else
      ⟨false,
        errorp.map fun _ => errorText strerror "FAILED: pthread_setschedparam()".toList errnum,
        verified⟩
  else ⟨true, errorp, verified⟩

inductive ChangeScheduling where
  | returned (errorp : Option StdString)
  | quickExit (descr : StdString)
  deriving DecidableEq, Repr

/-- A null `errorp` is redirected to the local `error`, whose text is what
`quick_exit` gets. -/
def changeScheduling (strerror : Int → StdString) (joinable : Bool) (newPolicy newPriority : Int)
    (errnum : Int) (errorp : Option StdString) : ChangeScheduling :=
  match errorp with
  | none =>
      let tried := tryScheduling strerror joinable newPolicy newPriority errnum (some [])
      if tried.success = false then .quickExit (cStr (tried.errorp.getD [])) else .returned none
  | some text =>
      let tried := tryScheduling strerror joinable newPolicy newPriority errnum (some text)
      if tried.success = false then .quickExit (cStr []) else .returned tried.errorp

theorem tryScheduling_success_iff (strerror : Int → StdString) (joinable : Bool)
    (newPolicy newPriority errnum : Int) (errorp : Option StdString) :
    (tryScheduling strerror joinable newPolicy newPriority errnum errorp).success = true ↔
      joinable = false ∨ errnum = 0 ∨ errnum = esrch := by
  unfold tryScheduling
  by_cases inactive : joinable = false
  · simp [inactive]
  · by_cases accepted : errnum = 0
    · simp [inactive, accepted]
    · by_cases gone : errnum = esrch
      · simp [inactive, gone]
      · simp [inactive, accepted, gone]

theorem tryScheduling_errorp (strerror : Int → StdString) (joinable : Bool)
    (newPolicy newPriority errnum : Int) (errorp : Option StdString) :
    (tryScheduling strerror joinable newPolicy newPriority errnum errorp).errorp =
      if (tryScheduling strerror joinable newPolicy newPriority errnum errorp).success then errorp
      else errorp.map fun _ => errorText strerror "FAILED: pthread_setschedparam()".toList errnum := by
  unfold tryScheduling
  split
  · rfl
  · split
    · split <;> rfl
    · rfl

theorem changeScheduling_of_success (strerror : Int → StdString) {joinable : Bool}
    {newPolicy newPriority errnum : Int} {errorp : Option StdString}
    (success : joinable = false ∨ errnum = 0 ∨ errnum = esrch) :
    changeScheduling strerror joinable newPolicy newPriority errnum errorp = .returned errorp := by
  cases errorp with
  | none =>
      have tried := (tryScheduling_success_iff strerror joinable newPolicy newPriority errnum
        (some [])).mpr success
      simp [changeScheduling, tried]
  | some text =>
      have tried := (tryScheduling_success_iff strerror joinable newPolicy newPriority errnum
        (some text)).mpr success
      simp [changeScheduling, tried, tryScheduling_errorp]

end Libpreempt.Base
