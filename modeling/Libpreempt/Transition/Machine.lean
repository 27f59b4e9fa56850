import Mathlib.Data.List.Basic

/-! Labelled machines with partial steps. A label carries every outside choice
that its step depends on, so a run is the list of its labels and can be
evaluated. A refused label is `none`. -/

set_option autoImplicit false

namespace Libpreempt.Transition

variable {State Label : Type*}

structure Machine (State Label : Type*) where
  initial : State
  step : State → Label → Option State

namespace Machine

/-- Perform the labels in order; the run stops at the first refused label. -/
def run (machine : Machine State Label) (state : State) : List Label → Option State
  | [] => some state
  | label :: labels =>
      (machine.step state label).bind fun next => machine.run next labels

/-- The state in which the labels are exhausted or the first one is refused. -/
def advance (machine : Machine State Label) (state : State) : List Label → State
  | [] => state
  | label :: labels =>
      match machine.step state label with
      | none => state
      | some next => machine.advance next labels

def Reachable (machine : Machine State Label) (state : State) : Prop :=
  ∃ labels, machine.run machine.initial labels = some state

/-- Every step performed along the labels satisfies `law`. The last label may
be refused; a refused label is not a step. -/
def EachStep (machine : Machine State Label) (law : State → Label → State → Prop)
    (state : State) (labels : List Label) : Prop :=
  ∀ before label after source target, labels = before ++ label :: after →
    machine.run state before = some source →
    machine.step source label = some target → law source label target

variable {machine : Machine State Label}

@[simp] theorem run_nil (state : State) : machine.run state [] = some state := rfl

@[simp] theorem run_cons (state : State) (label : Label) (labels : List Label) :
    machine.run state (label :: labels) =
      (machine.step state label).bind fun next => machine.run next labels := rfl

theorem run_append (state : State) (before after : List Label) :
    machine.run state (before ++ after) =
      (machine.run state before).bind fun middle => machine.run middle after := by
  induction before generalizing state with
  | nil => rfl
  | cons label labels ih =>
      cases stepped : machine.step state label with
      | none => simp [stepped]
      | some next => simp [stepped, ih]

theorem run_snoc {state middle final : State} {labels : List Label} {label : Label}
    (ran : machine.run state labels = some middle)
    (stepped : machine.step middle label = some final) :
    machine.run state (labels ++ [label]) = some final := by
  simp [run_append, ran, stepped]

theorem advance_of_refused {state : State} {label : Label}
    (refused : machine.step state label = none) (labels : List Label) :
    machine.advance state (label :: labels) = state := by
  rw [advance, refused]

theorem advance_of_step {state next : State} {label : Label}
    (stepped : machine.step state label = some next) (labels : List Label) :
    machine.advance state (label :: labels) = machine.advance next labels := by
  rw [advance, stepped]

theorem advance_append {state middle : State} {before : List Label}
    (ran : machine.run state before = some middle) (after : List Label) :
    machine.advance state (before ++ after) = machine.advance middle after := by
  induction before generalizing state with
  | nil =>
      cases ran
      rfl
  | cons label labels ih =>
      obtain ⟨next, stepped, rest⟩ := Option.bind_eq_some_iff.mp ran
      rw [List.cons_append, advance_of_step stepped, ih rest]

theorem advance_of_run {state final : State} {labels : List Label}
    (ran : machine.run state labels = some final) : machine.advance state labels = final := by
  have exhausted := advance_append ran []
  rwa [List.append_nil, advance] at exhausted

/-!
## Invariants
-/

theorem run_preserves (invariant : State → Prop)
    (kept : ∀ source label target, invariant source →
      machine.step source label = some target → invariant target)
    {state final : State} {labels : List Label}
    (start : invariant state) (ran : machine.run state labels = some final) :
    invariant final := by
  induction labels generalizing state with
  | nil =>
      cases ran
      exact start
  | cons label labels ih =>
      obtain ⟨next, stepped, rest⟩ := Option.bind_eq_some_iff.mp ran
      exact ih (kept state label next start stepped) rest

theorem reachable_initial : machine.Reachable machine.initial := ⟨[], rfl⟩

theorem Reachable.next {source target : State} {label : Label}
    (reached : machine.Reachable source)
    (stepped : machine.step source label = some target) : machine.Reachable target := by
  obtain ⟨labels, ran⟩ := reached
  exact ⟨labels ++ [label], run_snoc ran stepped⟩

theorem Reachable.run {source target : State} {labels : List Label}
    (reached : machine.Reachable source) (ran : machine.run source labels = some target) :
    machine.Reachable target := by
  obtain ⟨before, start⟩ := reached
  refine ⟨before ++ labels, ?_⟩
  rw [run_append, start, Option.bind_some, ran]

theorem Reachable.invariant {state : State} (reached : machine.Reachable state)
    (invariant : State → Prop) (start : invariant machine.initial)
    (kept : ∀ source label target, machine.Reachable source → invariant source →
      machine.step source label = some target → invariant target) :
    invariant state := by
  obtain ⟨labels, ran⟩ := reached
  have both := run_preserves (fun state => machine.Reachable state ∧ invariant state)
    (by
      rintro source label target ⟨reached, valid⟩ stepped
      exact ⟨reached.next stepped, kept source label target reached valid stepped⟩)
    ⟨reachable_initial, start⟩ ran
  exact both.2

/-!
## Laws of single steps along a run
-/

theorem eachStep_nil (law : State → Label → State → Prop) (state : State) :
    machine.EachStep law state [] := by
  intro before label after source target shape
  simp at shape

theorem eachStep_cons {law : State → Label → State → Prop} {state : State}
    {label : Label} {labels : List Label} :
    machine.EachStep law state (label :: labels) ↔
      ∀ next, machine.step state label = some next →
        law state label next ∧ machine.EachStep law next labels := by
  constructor
  · intro each next stepped
    refine ⟨each [] label labels state next rfl rfl stepped, ?_⟩
    intro before inner after source target shape ran innerStep
    exact each (label :: before) inner after source target (by simp [shape])
      (by simp [stepped, ran]) innerStep
  · intro parts before inner after source target shape ran innerStep
    cases before with
    | nil =>
        obtain ⟨rfl, rfl⟩ : label = inner ∧ labels = after := by simpa using shape
        cases ran
        exact (parts target innerStep).1
    | cons first before =>
        obtain ⟨rfl, rfl⟩ : label = first ∧ labels = before ++ inner :: after := by
          simpa using shape
        obtain ⟨next, stepped, rest⟩ := Option.bind_eq_some_iff.mp ran
        exact (parts next stepped).2 before inner after source target rfl rest innerStep

theorem eachStep_cons_of_step {law : State → Label → State → Prop} {state next : State}
    {label : Label} {labels : List Label} (stepped : machine.step state label = some next) :
    machine.EachStep law state (label :: labels) ↔
      law state label next ∧ machine.EachStep law next labels := by
  rw [eachStep_cons, stepped]
  simp

theorem eachStep_of_reachable {law : State → Label → State → Prop}
    (lawful : ∀ source label target, machine.Reachable source →
      machine.step source label = some target → law source label target)
    (labels : List Label) : machine.EachStep law machine.initial labels :=
  fun before label _ source target _ ran stepped =>
    lawful source label target ⟨before, ran⟩ stepped

/-- If, under an invariant, one step obeys `law` exactly when its guard holds,
then a run obeys `law` at every step exactly when every step is guarded. The
invariant need only survive the lawful steps: the equivalence is decided at
the first step that is not guarded. -/
theorem eachStep_iff_guarded {law : State → Label → State → Prop}
    {guard : State → Label → Prop} (invariant : State → Prop)
    (exact : ∀ source label target, invariant source →
      machine.step source label = some target →
      (law source label target ↔ guard source label))
    (kept : ∀ source label target, invariant source →
      machine.step source label = some target → law source label target →
      invariant target)
    {state : State} (start : invariant state) (labels : List Label) :
    machine.EachStep law state labels ↔
      machine.EachStep (fun source label _ => guard source label) state labels := by
  induction labels generalizing state with
  | nil => simp [eachStep_nil]
  | cons label labels ih =>
      rw [eachStep_cons, eachStep_cons]
      constructor
      · intro lawful next stepped
        obtain ⟨obeyed, rest⟩ := lawful next stepped
        exact ⟨(exact state label next start stepped).mp obeyed,
          (ih (kept state label next start stepped obeyed)).mp rest⟩
      · intro guarded next stepped
        obtain ⟨allowed, rest⟩ := guarded next stepped
        have obeyed := (exact state label next start stepped).mpr allowed
        exact ⟨obeyed, (ih (kept state label next start stepped obeyed)).mpr rest⟩

end Machine

end Libpreempt.Transition
