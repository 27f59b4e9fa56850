import Libpreempt.Transition.Machine

/-! Simulation between labelled machines. A concrete label shows as a list of
abstract labels, empty for a step that the abstract machine does not see. -/

set_option autoImplicit false

namespace Libpreempt.Transition

variable {State Label Abstract Visible : Type*}

/-- The abstract machine follows every step of the concrete one. -/
structure Simulation (concrete : Machine State Label) (abstract : Machine Abstract Visible)
    (erase : Label → List Visible) (relation : State → Abstract → Prop) : Prop where
  start : relation concrete.initial abstract.initial
  forth : ∀ source shadow label target, relation source shadow →
    concrete.step source label = some target →
    ∃ after, abstract.run shadow (erase label) = some after ∧ relation target after

/-- Every abstract step is one that the concrete machine offers. -/
structure Bisimulation (concrete : Machine State Label) (abstract : Machine Abstract Visible)
    (erase : Label → List Visible) (relation : State → Abstract → Prop) : Prop
    extends Simulation concrete abstract erase relation where
  back : ∀ source shadow visible after, relation source shadow →
    abstract.step shadow visible = some after →
    ∃ label target, erase label = [visible] ∧ concrete.step source label = some target ∧
      relation target after

def Machine.Shows (machine : Machine State Label) (erase : Label → List Visible) (state : State)
    (trace : List Visible) : Prop :=
  ∃ labels final, labels.flatMap erase = trace ∧ machine.run state labels = some final

variable {concrete : Machine State Label} {abstract : Machine Abstract Visible}
  {erase : Label → List Visible} {relation : State → Abstract → Prop}

theorem Simulation.run (simulation : Simulation concrete abstract erase relation)
    {source target : State} {shadow : Abstract} {labels : List Label}
    (related : relation source shadow) (ran : concrete.run source labels = some target) :
    ∃ after, abstract.run shadow (labels.flatMap erase) = some after ∧ relation target after := by
  induction labels generalizing source shadow with
  | nil =>
      cases ran
      exact ⟨shadow, rfl, related⟩
  | cons label labels ih =>
      obtain ⟨next, stepped, rest⟩ := Option.bind_eq_some_iff.mp ran
      obtain ⟨middle, followed, still⟩ := simulation.forth source shadow label next related stepped
      obtain ⟨after, later, final⟩ := ih still rest
      refine ⟨after, ?_, final⟩
      rw [List.flatMap_cons, Machine.run_append, followed, Option.bind_some, later]

theorem Simulation.reachable (simulation : Simulation concrete abstract erase relation)
    {state : State} (reached : concrete.Reachable state) :
    ∃ shadow, abstract.Reachable shadow ∧ relation state shadow := by
  obtain ⟨labels, ran⟩ := reached
  obtain ⟨shadow, followed, related⟩ := simulation.run simulation.start ran
  exact ⟨shadow, ⟨_, followed⟩, related⟩

theorem Bisimulation.run_back (bisimulation : Bisimulation concrete abstract erase relation)
    {source : State} {shadow after : Abstract} {trace : List Visible}
    (related : relation source shadow) (ran : abstract.run shadow trace = some after) :
    concrete.Shows erase source trace := by
  induction trace generalizing source shadow with
  | nil => exact ⟨[], source, rfl, rfl⟩
  | cons visible trace ih =>
      obtain ⟨next, stepped, rest⟩ := Option.bind_eq_some_iff.mp ran
      obtain ⟨label, target, shown, offered, still⟩ :=
        bisimulation.back source shadow visible next related stepped
      obtain ⟨labels, final, same, later⟩ := ih still rest
      refine ⟨label :: labels, final, ?_, ?_⟩
      · rw [List.flatMap_cons, shown, same]
        rfl
      · rw [Machine.run_cons, offered, Option.bind_some, later]

theorem Bisimulation.shows_iff (bisimulation : Bisimulation concrete abstract erase relation)
    {source : State} {shadow : Abstract} (related : relation source shadow)
    (trace : List Visible) :
    concrete.Shows erase source trace ↔ ∃ after, abstract.run shadow trace = some after := by
  constructor
  · intro shown
    obtain ⟨labels, final, rfl, ran⟩ := shown
    obtain ⟨after, followed, _⟩ := bisimulation.toSimulation.run related ran
    exact ⟨after, followed⟩
  · intro performed
    obtain ⟨after, ran⟩ := performed
    exact bisimulation.run_back related ran

theorem Bisimulation.shows_congr (bisimulation : Bisimulation concrete abstract erase relation)
    {left right : State} {shadow : Abstract} (leftRelated : relation left shadow)
    (rightRelated : relation right shadow) (trace : List Visible) :
    concrete.Shows erase left trace ↔ concrete.Shows erase right trace := by
  rw [bisimulation.shows_iff leftRelated, bisimulation.shows_iff rightRelated]

/-- Machines that step together, or refuse together, run together. -/
theorem run_rel {other : Machine Abstract Label}
    (kept : ∀ source shadow label, relation source shadow →
      Option.Rel relation (concrete.step source label) (other.step shadow label))
    {source : State} {shadow : Abstract} (related : relation source shadow)
    (labels : List Label) :
    Option.Rel relation (concrete.run source labels) (other.run shadow labels) := by
  induction labels generalizing source shadow with
  | nil => exact .some related
  | cons label labels ih =>
      rw [Machine.run_cons, Machine.run_cons]
      have stepped := kept source shadow label related
      generalize concrete.step source label = next, other.step shadow label = after at stepped ⊢
      cases stepped with
      | none => exact .none
      | some still => exact ih still

end Libpreempt.Transition
