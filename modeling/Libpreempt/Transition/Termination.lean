import Libpreempt.Transition.Machine

/-! Machines whose steps use up a measure: their runs are bounded, and a goal that some
step always leads on to is reached. -/

set_option autoImplicit false

namespace Libpreempt.Transition.Machine

variable {State Label : Type*} {machine : Machine State Label}

theorem exists_run_of_progress {invariant goal : State → Prop} {measure : State → Nat}
    (progress : ∀ source, invariant source → goal source ∨
      ∃ label target, machine.step source label = some target ∧ invariant target ∧
        measure target < measure source)
    {state : State} (start : invariant state) :
    ∃ labels final, machine.run state labels = some final ∧ invariant final ∧ goal final := by
  induction size : measure state using Nat.strongRecOn generalizing state with
  | ind size ih =>
      subst size
      rcases progress state start with done | ⟨label, target, stepped, still, less⟩
      · exact ⟨[], state, rfl, start, done⟩
      · obtain ⟨labels, final, ran, kept, done⟩ := ih _ less still rfl
        refine ⟨label :: labels, final, ?_, kept, done⟩
        rw [run_cons, stepped, Option.bind_some, ran]

end Libpreempt.Transition.Machine
