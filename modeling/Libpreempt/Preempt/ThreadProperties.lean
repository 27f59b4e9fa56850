import Libpreempt.Base.ThreadingProperties
import Libpreempt.Preempt.Thread

/-! What `quick_exit` is told when the scheduling of a thread cannot be changed.
`change_scheduling` hands on its own string, which gets the text only if the
caller gave no other. -/

set_option autoImplicit false

namespace Libpreempt

open Libpreempt.Base

namespace Base

theorem cStr_errorText_ne_nil (strerror : Int → StdString) (errnum : Int) :
    cStr (errorText strerror "FAILED: pthread_setschedparam()".toList errnum) ≠ [] := by
  simp [cStr, errorText, sprintf]

/-- The description is the text that `try_scheduling` writes for its failure. -/
def DescribesFailure (strerror : Int → StdString) (joinable : Bool)
    (newPolicy newPriority errnum : Int) (errorp : Option StdString) (descr : StdString) : Prop :=
  descr ≠ [] ∧
    ∃ text, (tryScheduling strerror joinable newPolicy newPriority errnum
        (some (errorp.getD []))) = ⟨false, some text, verifyPriority newPolicy newPriority⟩ ∧
      descr = cStr text

theorem tryScheduling_of_failure (strerror : Int → StdString) {joinable : Bool}
    (newPolicy newPriority : Int) {errnum : Int} (errorp : Option StdString)
    (failed : ¬ (joinable = false ∨ errnum = 0 ∨ errnum = esrch)) :
    tryScheduling strerror joinable newPolicy newPriority errnum errorp =
      ⟨false, errorp.map fun _ => errorText strerror "FAILED: pthread_setschedparam()".toList errnum,
        verifyPriority newPolicy newPriority⟩ := by
  rw [not_or, not_or] at failed
  simp [tryScheduling, failed]

theorem changeScheduling_exit_iff (strerror : Int → StdString) (joinable : Bool)
    (newPolicy newPriority errnum : Int) (errorp : Option StdString) :
    (∀ descr, changeScheduling strerror joinable newPolicy newPriority errnum errorp =
        .quickExit descr →
      DescribesFailure strerror joinable newPolicy newPriority errnum errorp descr) ↔
      errorp = none ∨ joinable = false ∨ errnum = 0 ∨ errnum = esrch := by
  by_cases success : joinable = false ∨ errnum = 0 ∨ errnum = esrch
  · simp [changeScheduling_of_success strerror success, success]
  · cases errorp with
    | none =>
        simp only [true_or, iff_true]
        intro descr exited
        simp only [changeScheduling, tryScheduling_of_failure strerror _ _ _ success, if_true,
          Option.map_some, Option.getD_some, ChangeScheduling.quickExit.injEq] at exited
        subst descr
        exact ⟨cStr_errorText_ne_nil strerror errnum, _,
          tryScheduling_of_failure strerror _ _ _ success, rfl⟩
    | some text =>
        simp only [reduceCtorEq, false_or, success, iff_false]
        intro described
        have exited : changeScheduling strerror joinable newPolicy newPriority errnum (some text) =
            .quickExit [] := by
          simp [changeScheduling, tryScheduling_of_failure strerror _ _ _ success, cStr]
        exact (described [] exited).1 rfl

end Base

namespace Preempt

open Libpreempt.Stdlib

theorem Thread.changeScheduling_exit (strerror : Int → StdString) (thread : Thread)
    (policy priority errnum : Int) (descr : StdString) :
    thread.changeScheduling strerror policy priority errnum = .quickExit descr ↔
      Base.changeScheduling strerror thread.joinable policy priority errnum (some thread.error) =
        .quickExit descr := by
  unfold changeScheduling
  cases Base.changeScheduling strerror thread.joinable policy priority errnum (some thread.error) with
  | returned errorp => simp
  | quickExit text => simp

/-- A failure is described exactly when the caller has no string for the text;
`preempt::thread` always has one. -/
theorem change_scheduling_described_iff (strerror : Int → StdString) :
    (∀ (joinable : Bool) (newPolicy newPriority errnum : Int) (errorp : Option StdString),
      (∀ descr, Base.changeScheduling strerror joinable newPolicy newPriority errnum errorp =
          .quickExit descr →
        DescribesFailure strerror joinable newPolicy newPriority errnum errorp descr) ↔
      errorp = none ∨ joinable = false ∨ errnum = 0 ∨ errnum = esrch) ∧
    ∀ (thread : Thread) (policy priority errnum : Int),
      (∀ descr, thread.changeScheduling strerror policy priority errnum = .quickExit descr →
        DescribesFailure strerror thread.joinable policy priority errnum (some thread.error) descr) ↔
      thread.joinable = false ∨ errnum = 0 ∨ errnum = esrch := by
  constructor
  · intro joinable newPolicy newPriority errnum errorp
    exact changeScheduling_exit_iff strerror joinable newPolicy newPriority errnum errorp
  · intro thread policy priority errnum
    simp only [Thread.changeScheduling_exit]
    rw [changeScheduling_exit_iff]
    simp

/-- `EPERM` on a running thread: the process exits with an empty description. -/
theorem change_scheduling_undescribed :
    ¬ ∀ (strerror : Int → StdString) (thread : Thread) (policy priority errnum : Int)
      (descr : StdString),
      thread.changeScheduling strerror policy priority errnum = .quickExit descr → descr ≠ [] := by
  intro described
  exact described (fun _ => "Operation not permitted".toList) { impl := ⟨some 0⟩ } schedFifo 1 1 []
    rfl rfl

end Preempt

end Libpreempt
