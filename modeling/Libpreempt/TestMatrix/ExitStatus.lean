import Libpreempt.TestMatrix.ShyProperties

/-! The exit status of the script with commands of every kind: the status of the
first command that fails, or what the summary makes of all runs. -/

set_option autoImplicit false

namespace Libpreempt.TestMatrix

open Libpreempt.Shell Libpreempt.Transition

def numbersOf (commands : List (Command × Outcomes)) : List (Numeral × Outcomes) :=
  commands.filterMap fun command =>
    match command.1 with
    | .number word => some (word, command.2)
    | _ => none

/-- All runs are good, or 95% of them where that is enough. -/
def Enough (relaxes : Bool) (numbers : List (Numeral × Outcomes)) : Prop :=
  if relaxes then 19 * askedRuns numbers ≤ 20 * goodRuns numbers
  else goodRuns numbers = askedRuns numbers

instance (relaxes : Bool) (numbers : List (Numeral × Outcomes)) :
    Decidable (Enough relaxes numbers) := by
  unfold Enough
  infer_instance

/-- The status with which a command ends the script. What `rm` returns is lost. -/
def Chore.failure (outcomes : Outcomes) : Chore → Option Nat
  | .make => if outcomes.mkdir ≠ 0 then some 255 else if outcomes.ln ≠ 0 then some 1 else none
  | .build | .rebuild => if outcomes.mkdir ≠ 0 ∨ outcomes.make ≠ 0 then some 255 else none
  | .clean | .realclean => none

def seriesFailure (fnno : List Nat) (outcomes : Outcomes) : Option Nat :=
  if ∀ i < fnno.length, outcomes.jiva i = 0 then none else some 1

/-- A bad run ends a `<NUMBER>` command only if `-s` is given twice. -/
def Command.failure (settings : Settings) (outcomes : Outcomes) : Command → Option Nat
  | .list => none
  | .number word =>
      if outcomes.mkdir ≠ 0 ∨ outcomes.make ≠ 0 then some 255
      else if outcomes.pushd ≠ 0 then some 1
      else if 1 < settings.optshy ∧ goodRuns [(word, outcomes)] ≠ askedRuns [(word, outcomes)] then
        some 1
      else none
  | .chore operation => operation.failure outcomes
  | .stress => seriesFailure Script.fnnoStress outcomes
  | .afk => seriesFailure Script.fnnoAfk outcomes
  | .unknown _ => some 1

/-!
## Counting
-/

theorem askedRuns_append (before after : List (Numeral × Outcomes)) :
    askedRuns (before ++ after) = askedRuns before + askedRuns after := by
  induction before with
  | nil => exact (Nat.zero_add _).symm
  | cons command before ih => rw [List.cons_append, askedRuns, askedRuns, ih, Nat.add_assoc]

theorem goodRuns_append (before after : List (Numeral × Outcomes)) :
    goodRuns (before ++ after) = goodRuns before + goodRuns after := by
  induction before with
  | nil => exact (Nat.zero_add _).symm
  | cons command before ih => rw [List.cons_append, goodRuns, goodRuns, ih, Nat.add_assoc]

theorem numbersOf_cons (command : Command × Outcomes) (commands : List (Command × Outcomes)) :
    numbersOf (command :: commands) = numbersOf [command] ++ numbersOf commands := by
  rw [← List.singleton_append, numbersOf, List.filterMap_append]
  rfl

theorem stops_iff_bad (optshy : Nat) {iterations : Nat} (fits : iterations < 2 ^ 63) (target : Target) :
    target.stops optshy (Int64.ofNat iterations) iterations = true ↔
      1 < optshy ∧ target.good iterations ≠ iterations := by
  have part := target.good_le iterations
  have bad := toInt_ofNat_sub part fits
  rw [Target.stops, decide_eq_true_eq, and_comm]
  refine and_congr_right fun _ => not_congr ?_
  rw [← Int64.toInt_inj, bad, Int64.toInt_zero]
  omega

theorem any_stops_iff_bad (optshy : Nat) {iterations : Nat} {targets : List Target}
    (fits : targets.length * iterations < 2 ^ 63) :
    targets.any (Target.stops optshy (Int64.ofNat iterations) iterations) = true ↔
      1 < optshy ∧
        (targets.flatMap (Target.codes iterations)).count 0 ≠ targets.length * iterations := by
  induction targets with
  | nil => simp
  | cons target targets ih =>
      rw [List.length_cons, Nat.succ_mul] at fits
      have first := stops_iff_bad optshy (show iterations < 2 ^ 63 by omega) target
      have later := ih (by omega)
      have part := target.good_le iterations
      have rest := count_codes_le iterations targets
      rw [List.any_cons, Bool.or_eq_true, first, later, List.flatMap_cons, List.count_append,
        ← Target.good, List.length_cons, Nat.succ_mul]
      omega

/-!
## One command
-/

/-- The script goes on, with the runs of these numbers added. -/
structure Adds (settings : Settings) (source : Script) (numbers : List (Numeral × Outcomes))
    (target : Script) : Prop where
  running : target.exited = none
  runs : target.totalRuns = source.totalRuns + Int64.ofNat (askedRuns numbers)
  good : target.totalGood = source.totalGood + Int64.ofNat (goodRuns numbers)
  summary : target.summary = (source.summary || !numbers.isEmpty)
  optrelax : target.optrelax = (source.optrelax || (!numbers.isEmpty && settings.relaxes))

inductive Proceeds (settings : Settings) (source : Script) (numbers : List (Numeral × Outcomes))
    (target : Script) : Option Nat → Prop where
  | failed {status : Nat} : target.exited = some status →
      Proceeds settings source numbers target (some status)
  | through : Adds settings source numbers target → Proceeds settings source numbers target none

section Command

variable {settings : Settings} {source middle target : Script}

theorem adds_nothing (running : target.exited = none) (runs : target.totalRuns = source.totalRuns)
    (good : target.totalGood = source.totalGood) (summary : target.summary = source.summary)
    (optrelax : target.optrelax = source.optrelax) : Adds settings source [] target where
  running := running
  runs := by rw [runs]; exact (Int64.add_zero _).symm
  good := by rw [good]; exact (Int64.add_zero _).symm
  summary := by rw [summary]; exact (Bool.or_false _).symm
  optrelax := by rw [optrelax]; exact (Bool.or_false _).symm

theorem Adds.trans {first second : List (Numeral × Outcomes)} (now : Adds settings source first middle)
    (later : Adds settings middle second target) :
    Adds settings source (first ++ second) target where
  running := later.running
  runs := by
    rw [later.runs, now.runs, askedRuns_append, Int64.ofNat_add, Int64.add_assoc]
  good := by
    rw [later.good, now.good, goodRuns_append, Int64.ofNat_add, Int64.add_assoc]
  summary := by
    rw [later.summary, now.summary]
    cases first with
    | nil => simp
    | cons command first => simp
  optrelax := by
    rw [later.optrelax, now.optrelax]
    cases first with
    | nil => simp
    | cons command first =>
        cases settings.relaxes with
        | false => simp
        | true => simp

theorem Proceeds.of_begun {command : Command} {numbers : List (Numeral × Outcomes)}
    {failure : Option Nat} (proceeds : Proceeds settings (source.begun command) numbers target failure) :
    Proceeds settings source numbers target failure := by
  cases proceeds with
  | failed exited => exact .failed exited
  | through adds => exact .through ⟨adds.1, adds.2, adds.3, adds.4, adds.5⟩

variable {script : Script} {outcomes : Outcomes}

theorem makebuild_of_unmade (unmade : outcomes.mkdir ≠ 0 ∨ outcomes.make ≠ 0) :
    makebuild outcomes = .error 255 := by
  rw [makebuild_eq, if_neg]
  rintro ⟨directory, made⟩
  exact unmade.elim (fun wrong => wrong directory) fun wrong => wrong made

theorem number_proceeds (running : script.exited = none) {word : Numeral}
    (plain : Numeral.Plain word) (room : askedRuns [(word, outcomes)] < 2 ^ 63) :
    Proceeds settings script [(word, outcomes)] (script.number settings word outcomes)
      (Command.failure settings outcomes (.number word)) := by
  have asked : askedRuns [(word, outcomes)] = outcomes.targets.length * word.decimal := by
    simp [askedRuns]
  have good : goodRuns [(word, outcomes)] =
      (outcomes.targets.flatMap (Target.codes word.decimal)).count 0 := by
    simp [goodRuns]
  rw [asked] at room
  have bad := any_stops_iff_bad settings.optshy room
  rw [← asked, ← good] at bad
  simp only [Command.failure]
  split
  · next unmade =>
      refine .failed ?_
      rw [Script.number, makebuild_of_unmade unmade]
      rfl
  · next made =>
      rw [not_or, not_not, not_not] at made
      split
      · next outside =>
          refine .failed ?_
          simp [Script.number, makebuild_eq, made, outside, Script.die, Script.exit]
      · next inside =>
          have built : outcomes.Built := ⟨made.1, made.2, not_not.mp inside⟩
          split
          · next shy =>
              refine .failed ?_
              rw [number_of_read settings running built plain, if_pos (bad.mpr shy)]
          · next fine =>
              refine .through ?_
              have passing : ∀ target ∈ outcomes.targets,
                  target.stops settings.optshy (Int64.ofNat word.decimal) word.decimal = false := by
                rw [← bad, Bool.not_eq_true, List.any_eq_false] at fine
                exact fun target member => Bool.not_eq_true _ ▸ fine target member
              rw [number_counted script running built plain rfl passing]
              constructor
              · exact running
              · rw [asked]
              · rw [good]
              · exact (Bool.or_true _).symm
              · rfl

theorem series_proceeds (running : script.exited = none) (fnno : List Nat) :
    Proceeds settings script [] (script.series fnno outcomes) (seriesFailure fnno outcomes) := by
  rw [seriesFailure, Script.series]
  split
  · next fine =>
      rw [if_pos (by simpa using fine)]
      exact .through (adds_nothing running rfl rfl rfl rfl)
  · next failing =>
      rw [if_neg (by simpa using failing)]
      exact .failed rfl

theorem chore_proceeds (running : script.exited = none) (chore : Chore) :
    Proceeds settings script [] (script.round settings (.chore chore) outcomes)
      (chore.failure outcomes) := by
  rw [round_chore settings running]
  have quiet : Adds settings script []
      { script with executed := script.executed ++ [.chore chore], exited := none } :=
    adds_nothing rfl rfl rfl rfl rfl
  cases chore with
  | make =>
      simp only [Chore.failure, Chore.cmdSuccess, Chore.operation, makemakefile]
      by_cases directory : outcomes.mkdir = 0
      · by_cases link : outcomes.ln = 0
        · simpa [directory, link, bind, Except.bind] using .through quiet
        · simpa [directory, link, bind, Except.bind] using .failed rfl
      · simpa [directory, bind, Except.bind] using .failed rfl
  | build | rebuild =>
      simp only [Chore.failure, Chore.cmdSuccess, Chore.operation]
      by_cases unmade : outcomes.mkdir ≠ 0 ∨ outcomes.make ≠ 0
      · rw [makebuild_of_unmade unmade, if_pos unmade]
        exact .failed rfl
      · have made := not_or.mp unmade
        rw [not_not, not_not] at made
        rw [makebuild_eq, if_pos made, if_neg unmade]
        exact .through quiet
  | clean | realclean => exact .through quiet

theorem round_of_returned {command : Command} {performed : Script}
    (returned : (script.begun command).perform settings outcomes command = (performed, true)) :
    script.round settings command outcomes = performed := by
  rw [Script.round, returned]
  simp

variable (settings) in
theorem round_proceeds (running : script.exited = none) (command : Command)
    (plain : ∀ number ∈ numbersOf [(command, outcomes)], Numeral.Plain number.1)
    (room : askedRuns (numbersOf [(command, outcomes)]) < 2 ^ 63) :
    Proceeds settings script (numbersOf [(command, outcomes)])
      (script.round settings command outcomes) (command.failure settings outcomes) := by
  have begun : (script.begun command).exited = none := running
  cases command with
  | list =>
      rw [round_of_returned rfl]
      exact .through (adds_nothing begun rfl rfl rfl rfl)
  | number word =>
      rw [round_of_returned rfl]
      exact (number_proceeds begun (plain _ (List.mem_singleton_self _)) room).of_begun
  | chore chore => exact chore_proceeds running chore
  | stress =>
      rw [round_of_returned rfl]
      exact (series_proceeds begun Script.fnnoStress).of_begun
  | afk =>
      rw [round_of_returned rfl]
      exact (series_proceeds begun Script.fnnoAfk).of_begun
  | unknown word => exact .failed rfl

end Command

/-!
## All commands
-/

theorem advance_proceeds (settings : Settings) {script : Script} (running : script.exited = none)
    {commands : List (Command × Outcomes)}
    (plain : ∀ number ∈ numbersOf commands, Numeral.Plain number.1)
    (room : askedRuns (numbersOf commands) < 2 ^ 63) :
    Proceeds settings script (numbersOf commands)
      ((Script.machine settings).advance script commands)
      (commands.findSome? fun command => command.1.failure settings command.2) := by
  induction commands generalizing script with
  | nil => exact .through (adds_nothing running rfl rfl rfl rfl)
  | cons command commands ih =>
      have stepped : (Script.machine settings).step script command =
          some (script.round settings command.1 command.2) := if_pos running
      rw [numbersOf_cons] at plain room ⊢
      rw [askedRuns_append] at room
      have now := round_proceeds settings running command.1
        (fun number member => plain number (List.mem_append_left _ member))
        (Nat.lt_of_le_of_lt (Nat.le_add_right _ _) room)
      rw [Machine.advance_of_step stepped, List.findSome?_cons]
      cases failure : command.1.failure settings command.2 with
      | some status =>
          rw [failure] at now
          cases now with
          | failed exited =>
              rw [advance_exited settings exited]
              exact .failed exited
      | none =>
          rw [failure] at now
          cases now with
          | through adds =>
              have later := ih adds.running
                (fun number member => plain number (List.mem_append_right _ member))
                (Nat.lt_of_le_of_lt (Nat.le_add_left _ _) room)
              cases last : commands.findSome? fun command =>
                  command.1.failure settings command.2 with
              | some status =>
                  rw [last] at later
                  cases later with
                  | failed exited => exact .failed exited
              | none =>
                  rw [last] at later
                  cases later with
                  | through rest => exact .through (adds.trans rest)

theorem status_of_adds {settings : Settings} {numbers : List (Numeral × Outcomes)}
    {script : Script} (adds : Adds settings {} numbers script) (room : askedRuns numbers < 2 ^ 63) :
    script.summarise.status = if Enough settings.relaxes numbers then 0 else 1 := by
  have part := goodRuns_le numbers
  have runs : script.totalRuns.toInt = askedRuns numbers := by
    rw [adds.runs, Int64.zero_add, Int64.toInt_ofNat_of_lt room]
  have good : script.totalGood.toInt = goodRuns numbers := by
    rw [adds.good, Int64.zero_add, Int64.toInt_ofNat_of_lt (Nat.lt_of_le_of_lt part room)]
  by_cases none : numbers = []
  · subst none
    have quiet : script.summary = false := adds.summary
    have enough : Enough settings.relaxes [] := by
      cases settings.relaxes with
      | false => rfl
      | true => exact Nat.le_refl 0
    rw [summarise_of_unset quiet, Script.status, adds.running, if_pos enough]
    rfl
  · have some : numbers.isEmpty = false := by simpa using none
    have summary : script.summary = true := by simpa [some] using adds.summary
    have optrelax : script.optrelax = settings.relaxes := by simpa [some] using adds.optrelax
    have success := verdict_success_iff settings.relaxes part
    rw [← Enough] at success
    rw [Script.summarise, if_pos ⟨adds.running, summary⟩, Script.status, optrelax, runs, good]
    by_cases enough : Enough settings.relaxes numbers
    · rw [success.mpr enough, if_pos enough]
      rfl
    · rw [if_neg enough]
      cases outcome : verdict settings.relaxes (goodRuns numbers) (askedRuns numbers) with
      | success => exact absurd (success.mp outcome) enough
      | error => rfl

/-- The script exits with the status of the first command that fails, or else as the summary of
all runs says. -/
theorem main_status (settings : Settings) {commands : List (Command × Outcomes)}
    (plain : ∀ number ∈ numbersOf commands, Numeral.Plain number.1)
    (room : askedRuns (numbersOf commands) < 2 ^ 63) :
    (Script.main settings commands).status =
      (commands.findSome? fun command => command.1.failure settings command.2).getD
        (if Enough settings.relaxes (numbersOf commands) then 0 else 1) := by
  have proceeds := advance_proceeds settings (show ({} : Script).exited = none from rfl) plain room
  rw [Script.main, show (Script.machine settings).initial = {} from rfl]
  cases failure : commands.findSome? fun command => command.1.failure settings command.2 with
  | some status =>
      rw [failure] at proceeds
      cases proceeds with
      | failed exited =>
          rw [summarise_of_exited exited, Script.status, exited]
          rfl
  | none =>
      rw [failure] at proceeds
      cases proceeds with
      | through adds => exact status_of_adds adds room

end Libpreempt.TestMatrix
