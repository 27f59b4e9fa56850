import Libpreempt.Base.Threading

/-! What the constructor of `base::thread` leaves in the value, and what it
gives to `pthread_create`. -/

set_option autoImplicit false

namespace Libpreempt.Base

namespace Thread

theorem errorText_ne_nil (strerror : Int → StdString) (message : StdString) (errnum : Int) :
    errorText strerror message errnum ≠ [] := by
  simp [errorText, sprintf]

/-- The constructor creates no thread, and then a value built from a function
says why; or every call succeeded. -/
inductive Outcome (policy priority : Int) (funp : Bool) (results : PthreadResults)
    (constructed : Construction) : Prop where
  | refused (created : constructed.created = none)
      (joinable : constructed.thread.joinable = false)
      (reason : funp = true → constructed.thread.lastError ≠ [])
  | created (created : constructed.created = some ⟨.joinable, .explicit, policy, priority⟩)
      (joinable : constructed.thread.joinable = true)
      (id : constructed.thread.id = results.id)

theorem construct_outcome (strerror : Int → StdString) (policy priority : Int) (funp : Bool)
    (results : PthreadResults) :
    Outcome policy priority funp results
      (construct strerror policy priority funp results) := by
  unfold construct
  dsimp only
  refine iteInduction (fun absent => .refused rfl rfl fun given => ?_) fun _ => ?_
  · rw [absent] at given
    cases given
  refine iteInduction (fun _ => .refused rfl rfl fun _ => errorText_ne_nil _ _ _) fun _ => ?_
  refine iteInduction (fun _ => .refused rfl rfl fun _ => errorText_ne_nil _ _ _) fun _ => ?_
  refine iteInduction (fun _ => .refused rfl rfl fun _ => errorText_ne_nil _ _ _) fun _ => ?_
  refine iteInduction (fun _ => .refused rfl rfl fun _ => errorText_ne_nil _ _ _) fun _ => ?_
  refine iteInduction (fun _ => .refused rfl rfl fun _ => errorText_ne_nil _ _ _) fun _ => ?_
  refine iteInduction (fun _ => .refused rfl rfl fun _ => errorText_ne_nil _ _ _) fun _ => ?_
  exact .created rfl rfl rfl

theorem construct_refused (strerror : Int → StdString) (policy priority : Int)
    {results : PthreadResults} (refused : results.setSchedParam ≠ 0 ∨ results.create ≠ 0) :
    (construct strerror policy priority true results).created = none := by
  let Uncreated := fun constructed : Construction => constructed.created = none
  unfold construct
  dsimp only
  refine iteInduction (motive := Uncreated) (fun _ => rfl) fun _ => ?_
  refine iteInduction (motive := Uncreated) (fun _ => rfl) fun _ => ?_
  refine iteInduction (motive := Uncreated) (fun _ => rfl) fun _ => ?_
  refine iteInduction (motive := Uncreated) (fun _ => rfl) fun _ => ?_
  refine iteInduction (motive := Uncreated) (fun _ => rfl) fun _ => ?_
  refine iteInduction (motive := Uncreated) (fun _ => rfl) fun set => ?_
  refine iteInduction (motive := Uncreated) (fun _ => rfl) fun created => ?_
  exact absurd refused (not_or.mpr ⟨set, created⟩)

theorem construct_verified (strerror : Int → StdString) {policy priority : Int}
    (positive : verifyPriority policy priority = true) (funp : Bool) (results : PthreadResults) :
    (construct strerror policy priority funp results).verified = true := by
  simp only [construct, apply_ite Construction.verified, positive, ite_self]

theorem join_joinable (strerror : Int → StdString) (thread : Thread) (errnum : Int) :
    (thread.join strerror errnum).joinable = (decide (errnum ≠ 0) && thread.joinable) := by
  by_cases failed : errnum = 0 <;> simp [join, failed]

theorem join_id (strerror : Int → StdString) (thread : Thread) (errnum : Int) :
    (thread.join strerror errnum).id = thread.id := by
  unfold join
  split <;> rfl

end Thread

end Libpreempt.Base
