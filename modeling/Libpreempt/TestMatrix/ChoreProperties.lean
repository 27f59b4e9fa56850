import Libpreempt.TestMatrix.Script

/-! How the failures of `make`, `build`, `rebuild`, `clean` and `realclean`
reach the end of the script. -/

set_option autoImplicit false

namespace Libpreempt.TestMatrix

open Libpreempt.Transition

def Chore.Fails (chore : Chore) (outcomes : Outcomes) : Prop :=
  match chore.operation outcomes with
  | .error _ => True
  | .ok status => status ≠ 0

/-- The first command that fails is the last one executed, and the script
reports it in its exit status; without a failure all are executed. -/
structure FailurePropagates (commands : List (Chore × Outcomes)) (final : Script) : Prop where
  stops : ∀ before chore outcomes after, commands = before ++ (chore, outcomes) :: after →
    (∀ earlier ∈ before, ¬ earlier.1.Fails earlier.2) → chore.Fails outcomes →
    final.executed = before.map (fun earlier => .chore earlier.1) ++ [.chore chore] ∧
      final.status ≠ 0
  completes : (∀ command ∈ commands, ¬ command.1.Fails command.2) →
    final.executed = commands.map fun command => .chore command.1

/-- The first command that fails does not remove anything. -/
def FailsLoudly (commands : List (Chore × Outcomes)) : Prop :=
  ∀ before chore outcomes after, commands = before ++ (chore, outcomes) :: after →
    (∀ earlier ∈ before, ¬ earlier.1.Fails earlier.2) → chore.Fails outcomes →
    chore ≠ .clean ∧ chore ≠ .realclean

/-!
## One command
-/

theorem makemakefile_status (outcomes : Outcomes) :
    makemakefile outcomes = .ok outcomes.ln ∨ makemakefile outcomes = .error 255 := by
  rw [makemakefile]
  split
  · exact .inl rfl
  · exact .inr rfl

theorem makebuild_eq (outcomes : Outcomes) :
    makebuild outcomes =
      if outcomes.mkdir = 0 ∧ outcomes.make = 0 then .ok 0 else .error 255 := by
  by_cases directory : outcomes.mkdir = 0
  · rw [makebuild, makemakefile, if_pos directory]
    simp only [directory, true_and]
    rfl
  · rw [makebuild, makemakefile, if_neg directory]
    simp only [directory, false_and, if_false]
    rfl

theorem makebuild_status (outcomes : Outcomes) :
    makebuild outcomes = .ok 0 ∨ makebuild outcomes = .error 255 := by
  rw [makebuild_eq]
  split
  · exact .inl rfl
  · exact .inr rfl

/-- How a command leaves the script. -/
inductive Chore.Ends (chore : Chore) (outcomes : Outcomes) : Option Nat → Prop where
  | succeeded (fine : ¬ chore.Fails outcomes) : Ends chore outcomes none
  | failed (status : Nat) (failure : chore.Fails outcomes) (nonzero : status ≠ 0)
      (loud : chore ≠ .clean ∧ chore ≠ .realclean) : Ends chore outcomes (some status)
  | ignored (failure : chore.Fails outcomes) (silent : chore = .clean ∨ chore = .realclean) :
      Ends chore outcomes none

variable {chore : Chore} {outcomes : Outcomes}

theorem Chore.cmdSuccess_of_error {status : Nat} (left : chore.operation outcomes = .error status) :
    chore.cmdSuccess outcomes = .error status := by
  rw [cmdSuccess, left]
  rfl

theorem Chore.cmdSuccess_of_ok {status : Nat} (returned : chore.operation outcomes = .ok status) :
    chore.cmdSuccess outcomes = .ok (if chore = .make then decide (status = 0) else true) := by
  rw [cmdSuccess, returned]
  cases chore <;> rfl

theorem round_chore (settings : Settings) {script : Script} (running : script.exited = none) :
    script.round settings (.chore chore) outcomes =
      { script with
        executed := script.executed ++ [.chore chore]
        exited :=
          match chore.cmdSuccess outcomes with
          | .error status => some status
          | .ok cmdSuccess => if cmdSuccess then none else some 1 } := by
  rw [Script.round, Script.perform]
  cases ended : chore.cmdSuccess outcomes with
  | error status => simp [Script.begun, Script.exit]
  | ok cmdSuccess =>
      cases cmdSuccess with
      | false => simp [running, Script.begun, Script.die, Script.exit]
      | true => simp [running, Script.begun]

theorem Chore.ends_of_error {status : Nat} (left : chore.operation outcomes = .error status)
    (nonzero : status ≠ 0) (loud : chore ≠ .clean ∧ chore ≠ .realclean) :
    chore.Ends outcomes (some status) :=
  .failed status (by simp [Fails, left]) nonzero loud

theorem Chore.ends_of_ok {status : Nat} (returned : chore.operation outcomes = .ok status)
    (known : status = 0 ∨ chore = .make ∨ chore = .clean ∨ chore = .realclean) :
    chore.Ends outcomes
      (if (if chore = .make then decide (status = 0) else true) then none else some 1) := by
  have failure : chore.Fails outcomes ↔ status ≠ 0 := by simp [Fails, returned]
  by_cases zero : status = 0
  · have fine : ¬ chore.Fails outcomes := by simp [failure, zero]
    simpa [zero] using Ends.succeeded fine
  · rcases known with none | rfl | silent
    · exact absurd none zero
    · simpa [zero] using Ends.failed 1 (failure.mpr zero) (by decide) (by decide)
    · have other : chore ≠ .make := by
        rcases silent with rfl | rfl
        · decide
        · decide
      simpa [other] using Ends.ignored (failure.mpr zero) silent

/-- A `<CMD>` ends the script if it fails, unless it is `clean` or `realclean`. -/
theorem round_chore_ends (chore : Chore) (outcomes : Outcomes) (settings : Settings)
    (script : Script) (running : script.exited = none) :
    ∃ exited, chore.Ends outcomes exited ∧
      script.round settings (.chore chore) outcomes =
        { script with executed := script.executed ++ [.chore chore], exited := exited } := by
  rw [round_chore settings running]
  refine ⟨_, ?_, rfl⟩
  cases operation : chore.operation outcomes with
  | error status =>
      rw [Chore.cmdSuccess_of_error operation]
      have known : status ≠ 0 ∧ chore ≠ .clean ∧ chore ≠ .realclean := by
        cases chore with
        | make =>
            rcases makemakefile_status outcomes with made | exited
            · cases operation.symm.trans made
            · cases operation.symm.trans exited
              decide
        | build | rebuild =>
            rcases makebuild_status outcomes with built | exited
            · cases operation.symm.trans built
            · cases operation.symm.trans exited
              decide
        | clean | realclean => cases operation
      exact Chore.ends_of_error operation known.1 known.2
  | ok status =>
      rw [Chore.cmdSuccess_of_ok operation]
      apply Chore.ends_of_ok operation
      cases chore with
      | make => exact .inr (.inl rfl)
      | build | rebuild =>
          rcases makebuild_status outcomes with built | exited
          · cases operation.symm.trans built
            exact .inl rfl
          · cases operation.symm.trans exited
      | clean => exact .inr (.inr (.inl rfl))
      | realclean => exact .inr (.inr (.inr rfl))

/-!
## Lists of commands
-/

def choreLabels (commands : List (Chore × Outcomes)) : List (Command × Outcomes) :=
  commands.map fun command => (.chore command.1, command.2)

theorem step_chore (settings : Settings) {script : Script} (running : script.exited = none)
    (chore : Chore) (outcomes : Outcomes) :
    (Script.machine settings).step script (.chore chore, outcomes) =
      some (script.round settings (.chore chore) outcomes) :=
  if_pos running

theorem run_succeeding (settings : Settings) {commands : List (Chore × Outcomes)}
    (fine : ∀ command ∈ commands, ¬ command.1.Fails command.2) (script : Script)
    (running : script.exited = none) :
    (Script.machine settings).run script (choreLabels commands) =
      some { script with
        executed := script.executed ++ commands.map fun command => .chore command.1 } := by
  induction commands generalizing script with
  | nil =>
      rw [choreLabels, List.map_nil, List.map_nil, List.append_nil]
      rfl
  | cons command commands ih =>
      obtain ⟨chore, outcomes⟩ := command
      obtain ⟨exited, ends, round⟩ := round_chore_ends chore outcomes settings script running
      have succeeds : exited = none := by
        cases ends with
        | succeeded => rfl
        | failed _ failure => exact absurd failure (fine _ List.mem_cons_self)
        | ignored => rfl
      subst succeeds
      have rest := ih (fun later member => fine later (List.mem_cons_of_mem _ member))
        { script with executed := script.executed ++ [.chore chore], exited := none } rfl
      rw [choreLabels, List.map_cons, Machine.run_cons, step_chore settings running, round,
        Option.bind_some]
      refine rest.trans ?_
      simp [running]

theorem advance_exited (settings : Settings) {script : Script} {status : Nat}
    (exited : script.exited = some status) (commands : List (Command × Outcomes)) :
    (Script.machine settings).advance script commands = script := by
  cases commands with
  | nil => rfl
  | cons command commands =>
      apply Machine.advance_of_refused
      simp [Script.machine, exited]

/-- The history grows by every command begun, and chores leave `Summary` alone. -/
theorem advance_chores (settings : Settings) (commands : List (Chore × Outcomes)) (script : Script) :
    script.executed <+: ((Script.machine settings).advance script (choreLabels commands)).executed ∧
      ((Script.machine settings).advance script (choreLabels commands)).summary =
        script.summary := by
  induction commands generalizing script with
  | nil => exact ⟨List.prefix_refl _, rfl⟩
  | cons command commands ih =>
      obtain ⟨chore, outcomes⟩ := command
      cases exited : script.exited with
      | some status =>
          rw [advance_exited settings exited]
          exact ⟨List.prefix_refl _, rfl⟩
      | none =>
          obtain ⟨after, _, round⟩ := round_chore_ends chore outcomes settings script exited
          obtain ⟨longer, same⟩ := ih (script.round settings (.chore chore) outcomes)
          rw [choreLabels, List.map_cons,
            Machine.advance_of_step (step_chore settings exited chore outcomes)]
          rw [round] at longer same ⊢
          exact ⟨(List.prefix_append _ _).trans longer, same⟩

theorem advance_begins (settings : Settings) (script : Script) (running : script.exited = none)
    (next : Chore × Outcomes) (after : List (Chore × Outcomes)) :
    script.executed ++ [.chore next.1] <+:
      ((Script.machine settings).advance script (choreLabels (next :: after))).executed := by
  obtain ⟨exited, _, round⟩ := round_chore_ends next.1 next.2 settings script running
  have stepped := Machine.advance_of_step (step_chore settings running next.1 next.2)
    (choreLabels after)
  have kept := (advance_chores settings after
    (script.round settings (.chore next.1) next.2)).1
  rw [← stepped] at kept
  rw [round] at kept
  exact kept

theorem summarise_of_unset {script : Script} (unset : script.summary = false) :
    script.summarise = script := by
  simp [Script.summarise, unset]

theorem main_chores (settings : Settings) (commands : List (Chore × Outcomes)) :
    Script.main settings (choreLabels commands) =
      (Script.machine settings).advance {} (choreLabels commands) :=
  summarise_of_unset (advance_chores settings commands {}).2

/-- Where a list has come to when the first command that fails is performed. -/
theorem main_of_failure (settings : Settings) {before : List (Chore × Outcomes)}
    (chore : Chore) (outcomes : Outcomes) (after : List (Chore × Outcomes))
    (fine : ∀ earlier ∈ before, ¬ earlier.1.Fails earlier.2) :
    ∃ exited, chore.Ends outcomes exited ∧
      Script.main settings (choreLabels (before ++ (chore, outcomes) :: after)) =
        (Script.machine settings).advance
          { executed := before.map (fun earlier => .chore earlier.1) ++ [.chore chore]
            exited := exited } (choreLabels after) := by
  have ran := run_succeeding settings fine {} rfl
  obtain ⟨exited, ends, round⟩ := round_chore_ends chore outcomes settings
    { executed := before.map fun earlier => .chore earlier.1 } rfl
  refine ⟨exited, ends, ?_⟩
  rw [main_chores, choreLabels, List.map_append, List.map_cons]
  refine (Machine.advance_append ran _).trans ?_
  exact (Machine.advance_of_step (step_chore settings rfl chore outcomes) _).trans
    (by rw [List.nil_append, round]; rfl)

theorem failsLoudly_of_propagates (settings : Settings) {commands : List (Chore × Outcomes)}
    (law : FailurePropagates commands (Script.main settings (choreLabels commands))) :
    FailsLoudly commands := by
  intro before chore outcomes after shape fine failure
  obtain ⟨executed, nonzero⟩ := law.stops before chore outcomes after shape fine failure
  obtain ⟨exited, ends, final⟩ := main_of_failure settings chore outcomes after fine
  rw [shape, final] at executed nonzero
  cases ends with
  | succeeded fine => exact absurd failure fine
  | failed _ _ _ loud => exact loud
  | ignored _ silent =>
      -- Without a later command the status is 0, and with one it is executed.
      exfalso
      cases after with
      | nil => exact nonzero rfl
      | cons next after =>
          have begun := (advance_begins settings
            { executed := before.map (fun earlier => .chore earlier.1) ++ [.chore chore] }
            rfl next after).length_le
          rw [executed] at begun
          simp at begun

theorem propagates_of_failsLoudly (settings : Settings) {commands : List (Chore × Outcomes)}
    (loudly : FailsLoudly commands) :
    FailurePropagates commands (Script.main settings (choreLabels commands)) where
  stops := by
    intro before chore outcomes after shape fine failure
    obtain ⟨exited, ends, final⟩ := main_of_failure settings chore outcomes after fine
    cases ends with
    | succeeded fine => exact absurd failure fine
    | failed status _ nonzero _ =>
        rw [shape, final, advance_exited settings rfl]
        exact ⟨rfl, nonzero⟩
    | ignored _ silent =>
        have loud := loudly before chore outcomes after shape fine failure
        rcases silent with same | same
        · exact absurd same loud.1
        · exact absurd same loud.2
  completes := by
    intro fine
    have ended := Machine.advance_append (run_succeeding settings fine {} rfl) []
    rw [List.append_nil] at ended
    rw [main_chores, ended]
    exact List.nil_append _

/-- Failures are reported exactly when the first one is none of an `rm`. -/
theorem failure_propagates_iff (settings : Settings) (commands : List (Chore × Outcomes)) :
    FailurePropagates commands (Script.main settings (choreLabels commands)) ↔
      FailsLoudly commands := by
  constructor
  · exact failsLoudly_of_propagates settings
  · exact propagates_of_failsLoudly settings

/-- `clean` fails, `make` is executed all the same, and the script exits with 0. -/
theorem failure_lost_by_clean :
    ¬ FailurePropagates [(.clean, { rm := 1 }), (.make, {})]
      (Script.main {} (choreLabels [(.clean, { rm := 1 }), (.make, {})])) := by
  intro law
  have stopped := law.stops [] .clean { rm := 1 } [(.make, {})] rfl
    (fun _ member => absurd member List.not_mem_nil) (show (1 : Nat) ≠ 0 by decide)
  exact absurd stopped.1 (by decide)

end Libpreempt.TestMatrix
