import Libpreempt.Base.ThreadingProperties

/-! `base::sprintf` returns the buffer of the C function, one character longer
than the text. Every `last_error` that is built carries that character. -/

set_option autoImplicit false

namespace Libpreempt.Base

theorem sprintf_eq (text : StdString) : sprintf text = text ++ ['\x00'] := by
  simp [sprintf]

theorem sprintf_ne (text : StdString) : sprintf text ≠ text := by
  intro same
  have size := congrArg List.length same
  rw [sprintf_eq, List.length_append, List.length_singleton] at size
  exact Nat.succ_ne_self _ size

theorem length_flatten_sprintf (pieces : List StdString) :
    (pieces.map sprintf).flatten.length = pieces.flatten.length + pieces.length := by
  induction pieces with
  | nil => rfl
  | cons piece rest ih =>
      simp only [List.map_cons, List.flatten_cons, List.length_append, List.length_cons, ih,
        sprintf_eq, List.length_nil]
      omega

theorem flatten_sprintf_iff (pieces : List StdString) :
    (pieces.map sprintf).flatten = pieces.flatten ↔ pieces = [] := by
  constructor
  · intro same
    have size := congrArg List.length same
    rw [length_flatten_sprintf] at size
    exact List.length_eq_zero_iff.mp (by omega)
  · rintro rfl
    rfl

/-!
## Error texts
-/

/-- The text that a format `what: '%s'` stands for. -/
def message (strerror : Int → StdString) (what : StdString) (errnum : Int) : StdString :=
  what ++ ": '".toList ++ strerror errnum ++ "'".toList

theorem errorText_ne_message (strerror : Int → StdString) (what : StdString) (errnum : Int) :
    errorText strerror what errnum ≠ message strerror what errnum :=
  sprintf_ne _

namespace Thread

/-- The calls of the constructor, with the messages for their failures. -/
def constructCalls (policy priority : Int) (results : PthreadResults) : List (StdString × Int) :=
  [("pthread_attr_init() failed".toList, results.attrInit),
    ("pthread_attr_setdetachstate(PTHREAD_CREATE_JOINABLE) failed".toList, results.setDetachState),
    ("pthread_attr_setinheritsched(PTHREAD_EXPLICIT_SCHED) failed".toList,
      results.setInheritSched),
    ("FAILED: pthread_attr_setschedpolicy(".toList ++ (toString policy).toList ++ ")".toList,
      results.setSchedPolicy),
    ("FAILED: pthread_attr_setschedparam(".toList ++ (toString priority).toList ++ ")".toList,
      results.setSchedParam),
    ("thread() ctor failed".toList, results.create)]

def constructFailure (policy priority : Int) (results : PthreadResults) :
    Option (StdString × Int) :=
  (constructCalls policy priority results).find? fun call => call.2 ≠ 0

/-- The value holds the message of the first call that fails. -/
def Reports (strerror : Int → StdString) (calls : List (StdString × Int))
    (constructed : Construction) : Prop :=
  constructed.thread.lastError =
    (calls.find? fun call => call.2 ≠ 0).elim [] fun failed => errorText strerror failed.1 failed.2

variable {strerror : Int → StdString}

theorem reports_nil {constructed : Construction} (none : constructed.thread.lastError = []) :
    Reports strerror [] constructed :=
  none

theorem reports_cons {call : StdString × Int} {calls : List (StdString × Int)}
    {failed rest : Construction}
    (now : failed.thread.lastError = errorText strerror call.1 call.2)
    (later : Reports strerror calls rest) :
    Reports strerror (call :: calls) (if call.2 ≠ 0 then failed else rest) := by
  rw [Reports] at later ⊢
  by_cases fails : call.2 = 0
  · simpa [fails] using later
  · simpa [fails] using now

theorem construct_lastError (strerror : Int → StdString) (policy priority : Int)
    (results : PthreadResults) :
    (construct strerror policy priority true results).thread.lastError =
      (constructFailure policy priority results).elim []
        fun failed => errorText strerror failed.1 failed.2 := by
  rw [construct, if_neg (by decide)]
  change Reports strerror (constructCalls policy priority results) _
  -- One conditional of the constructor for each call, in the same order.
  refine reports_cons rfl (reports_cons rfl (reports_cons rfl ?_))
  exact reports_cons rfl (reports_cons rfl (reports_cons rfl (reports_nil rfl)))

theorem construct_lastError_iff (strerror : Int → StdString) (policy priority : Int)
    (results : PthreadResults) :
    (construct strerror policy priority true results).thread.lastError =
        (constructFailure policy priority results).elim []
          (fun failed => message strerror failed.1 failed.2) ↔
      constructFailure policy priority results = none := by
  rw [construct_lastError]
  cases constructFailure policy priority results with
  | none => simp
  | some failed => simp [errorText_ne_message]

theorem join_lastError_iff (strerror : Int → StdString) (thread : Thread) (errnum : Int) :
    (thread.join strerror errnum).lastError =
        (if errnum = 0 then [] else message strerror "thread::join() failed".toList errnum) ↔
      errnum = 0 := by
  by_cases failed : errnum = 0
  · simp [join, failed]
  · simp [join, failed, errorText_ne_message]

end Thread

theorem tryScheduling_errorp_iff (strerror : Int → StdString) (joinable : Bool)
    (newPolicy newPriority errnum : Int) (text : StdString) :
    (tryScheduling strerror joinable newPolicy newPriority errnum (some text)).errorp =
        (if (tryScheduling strerror joinable newPolicy newPriority errnum (some text)).success then
          some text
        else some (message strerror "FAILED: pthread_setschedparam()".toList errnum)) ↔
      (tryScheduling strerror joinable newPolicy newPriority errnum (some text)).success = true := by
  rw [tryScheduling_errorp]
  cases (tryScheduling strerror joinable newPolicy newPriority errnum (some text)).success with
  | true => simp
  | false => simp [errorText_ne_message]

/-- No formatted string is its text, so pieces put together are their texts only
when there are none, and an error is its message only when nothing failed. -/
theorem sprintf_text_iff (strerror : Int → StdString) :
    (∀ text, sprintf text ≠ text) ∧
    (∀ pieces : List StdString, (pieces.map sprintf).flatten = pieces.flatten ↔ pieces = []) ∧
    (∀ (policy priority : Int) (results : PthreadResults),
      (Thread.construct strerror policy priority true results).thread.lastError =
          (Thread.constructFailure policy priority results).elim []
            (fun failed => message strerror failed.1 failed.2) ↔
        Thread.constructFailure policy priority results = none) ∧
    (∀ (thread : Thread) (errnum : Int),
      (thread.join strerror errnum).lastError =
          (if errnum = 0 then [] else message strerror "thread::join() failed".toList errnum) ↔
        errnum = 0) ∧
    ∀ (joinable : Bool) (newPolicy newPriority errnum : Int) (text : StdString),
      (tryScheduling strerror joinable newPolicy newPriority errnum (some text)).errorp =
          (if (tryScheduling strerror joinable newPolicy newPriority errnum
              (some text)).success then
            some text
          else some (message strerror "FAILED: pthread_setschedparam()".toList errnum)) ↔
        (tryScheduling strerror joinable newPolicy newPriority errnum
          (some text)).success = true := by
  refine ⟨sprintf_ne, flatten_sprintf_iff, ?_, ?_, ?_⟩
  · exact Thread.construct_lastError_iff strerror
  · exact Thread.join_lastError_iff strerror
  · exact tryScheduling_errorp_iff strerror

/-- `"%d"` at 5 gives a string of two characters. -/
theorem sprintf_five : sprintf ['5'] = ['5', '\x00'] ∧ sprintf ['5'] ≠ ['5'] := by
  decide

end Libpreempt.Base
