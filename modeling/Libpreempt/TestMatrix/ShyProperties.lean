import Libpreempt.TestMatrix.RunProperties
import Libpreempt.TestMatrix.SummaryProperties
import Mathlib.Data.List.Count
import Mathlib.Data.List.TakeWhile

/-! Shy mode: where the script stops behind a bad run. -/

set_option autoImplicit false

namespace Libpreempt.TestMatrix

open Libpreempt.Sequence Libpreempt.Shell Libpreempt.Transition

/-- The exit codes of all runs, in the order in which they were started. -/
def Script.started (script : Script) : List Nat := script.rows.flatMap Row.codes

/-- No run is started behind one that fails, and the script fails with it. -/
structure ShyLaw (final : Script) : Prop where
  stops : OnlyLast (· ≠ 0) final.started
  fails : (∃ code ∈ final.started, code ≠ 0) → final.status ≠ 0

/-- What the script comes to in a list of `<NUMBER>` commands: a target with its
iterations, or the end of the script because a command is refused. -/
inductive Turn where
  | refused
  | run (word : Numeral) (cmd : Int64) (target : Target)

def Turn.codes : Turn → List Nat
  | .refused => []
  | .run word _ target => target.codes word.decimal

def Turn.stops (optshy : Nat) : Turn → Bool
  | .refused => true
  | .run word cmd target => target.stops optshy cmd word.decimal

def commandTurns (command : Numeral × Outcomes) : List Turn :=
  if command.2.Built then
    match command.1.arithmetic with
    | none => [.refused]
    | some cmd => command.2.targets.map (.run command.1 cmd)
  else [.refused]

/-- The command does not come to its targets. -/
def Refused (command : Numeral × Outcomes) : Prop :=
  ¬ command.2.Built ∨ command.1.arithmetic = none

instance : DecidablePred Refused := fun _ => inferInstanceAs (Decidable (_ ∨ _))

/-- The exit codes of the commands up to the first that is refused. -/
def acceptedCodes (commands : List (Numeral × Outcomes)) : List Nat :=
  (commands.takeWhile fun command => ¬ Refused command).flatMap fun command =>
    command.2.targets.flatMap (Target.codes command.1.decimal)

def allTurns (commands : List (Numeral × Outcomes)) : List Turn := commands.flatMap commandTurns

def numberLabels (commands : List (Numeral × Outcomes)) : List (Command × Outcomes) :=
  commands.map fun command => (.number command.1, command.2)

/-!
## The history of a list of commands
-/

theorem started_counted (iterations reading : Nat) (script : Script) (targets : List Target) :
    (targets.foldl (Script.counted (Int64.ofNat reading) iterations) script).started =
      script.started ++ targets.flatMap (Target.codes iterations) := by
  rw [foldl_counted, Script.started, Script.started, List.flatMap_append, List.flatMap_map]

/-- The script has ended with a failure, or goes on. -/
inductive Leaves : Bool → Option Nat → Prop where
  | ended (status : Nat) (nonzero : status ≠ 0) : Leaves true (some status)
  | running : Leaves false none

theorem Leaves.exists_status {exited : Option Nat} (leaves : Leaves true exited) :
    ∃ status, status ≠ 0 ∧ exited = some status := by
  cases leaves with
  | ended status nonzero => exact ⟨status, nonzero, rfl⟩

theorem Leaves.eq_none {exited : Option Nat} (leaves : Leaves false exited) : exited = none := by
  cases leaves
  rfl

theorem commandTurns_of_refused {command : Numeral × Outcomes} (refused : Refused command) :
    commandTurns command = [.refused] := by
  rw [commandTurns]
  split
  · next built =>
      have unread : command.1.arithmetic = none := refused.resolve_left (not_not_intro built)
      rw [unread]
  · rfl

theorem commandTurns_of_accepted {command : Numeral × Outcomes} (accepted : ¬ Refused command) :
    ∃ reading, command.2.Built ∧ command.1.arithmetic = some (Int64.ofNat reading) ∧
      commandTurns command = command.2.targets.map (.run command.1 (Int64.ofNat reading)) := by
  obtain ⟨built, read⟩ := not_or.mp accepted
  rw [not_not] at built
  obtain ⟨cmd, read⟩ := Option.ne_none_iff_exists'.mp read
  obtain ⟨reading, _, _, rfl⟩ := Numeral.arithmetic_eq_some read
  exact ⟨reading, built, read, by simp [commandTurns, built, read]⟩

theorem number_of_refused (settings : Settings) {word : Numeral} {outcomes : Outcomes}
    (refused : Refused (word, outcomes)) (script : Script) :
    ∃ status summary, status ≠ 0 ∧ script.number settings word outcomes =
      { script with summary := summary, exited := some status } := by
  by_cases built : outcomes.Built
  · have unread : word.arithmetic = none := refused.resolve_left (not_not_intro built)
    exact ⟨1, true, by decide, number_of_unread settings built unread script⟩
  · obtain ⟨status, nonzero, left⟩ := number_of_unbuilt settings word built script
    exact ⟨status, script.summary, nonzero, left⟩

/-- What a command adds to the history, and whether it ends the script. -/
theorem number_started (settings : Settings) (script : Script) (running : script.exited = none)
    (command : Numeral × Outcomes) :
    (script.number settings command.1 command.2).started =
        script.started ++
          (untilStop (Turn.stops settings.optshy) (commandTurns command)).flatMap Turn.codes ∧
      Leaves ((commandTurns command).any (Turn.stops settings.optshy))
        (script.number settings command.1 command.2).exited := by
  by_cases refused : Refused command
  · obtain ⟨status, summary, nonzero, left⟩ := number_of_refused settings refused script
    rw [left, commandTurns_of_refused refused]
    refine ⟨?_, .ended status nonzero⟩
    simp [untilStop, Turn.codes, Turn.stops, Script.started]
  · obtain ⟨reading, built, read, turns⟩ := commandTurns_of_accepted refused
    rw [number_of_read settings running built read, turns, untilStop_map, List.flatMap_map,
      List.any_map]
    constructor
    · exact started_counted command.1.decimal reading { script with
        summary := true
        optrelax := script.optrelax || settings.relaxes } _
    · change Leaves (command.2.targets.any
        (Target.stops settings.optshy (Int64.ofNat reading) command.1.decimal)) _
      cases command.2.targets.any
          (Target.stops settings.optshy (Int64.ofNat reading) command.1.decimal) with
      | true => exact .ended 1 (by decide)
      | false => exact .running

theorem round_started (settings : Settings) {script : Script} (running : script.exited = none)
    (command : Numeral × Outcomes) :
    (script.round settings (.number command.1) command.2).started =
        script.started ++
          (untilStop (Turn.stops settings.optshy) (commandTurns command)).flatMap Turn.codes ∧
      Leaves ((commandTurns command).any (Turn.stops settings.optshy))
        (script.round settings (.number command.1) command.2).exited := by
  rw [round_number]
  exact number_started settings (script.begun (.number command.1)) running command

theorem advance_started (settings : Settings) (commands : List (Numeral × Outcomes))
    (script : Script) (running : script.exited = none) :
    ((Script.machine settings).advance script (numberLabels commands)).started =
        script.started ++
          (untilStop (Turn.stops settings.optshy) (allTurns commands)).flatMap Turn.codes ∧
      Leaves ((allTurns commands).any (Turn.stops settings.optshy))
        ((Script.machine settings).advance script (numberLabels commands)).exited := by
  induction commands generalizing script with
  | nil =>
      refine ⟨by simp [numberLabels, allTurns, untilStop, Machine.advance], ?_⟩
      rw [numberLabels, List.map_nil, Machine.advance, running]
      exact .running
  | cons command commands ih =>
      have stepped : (Script.machine settings).step script (.number command.1, command.2) =
          some (script.round settings (.number command.1) command.2) := if_pos running
      obtain ⟨started, leaves⟩ := round_started settings running command
      rw [numberLabels, List.map_cons, Machine.advance_of_step stepped, allTurns, List.flatMap_cons,
        List.any_append]
      cases stop : (commandTurns command).any (Turn.stops settings.optshy) with
      | true =>
          rw [stop] at leaves
          obtain ⟨status, nonzero, exited⟩ := leaves.exists_status
          rw [advance_exited settings exited, untilStop_append_of_stop stop, exited]
          exact ⟨started, .ended status nonzero⟩
      | false =>
          rw [stop] at leaves
          have never : ∀ turn ∈ commandTurns command, turn.stops settings.optshy = false :=
            fun turn member => Bool.not_eq_true _ ▸ List.any_eq_false.mp stop turn member
          obtain ⟨later, last⟩ := ih _ leaves.eq_none
          rw [untilStop_eq_self never] at started
          rw [untilStop_append stop, List.flatMap_append, ← List.append_assoc, ← started]
          exact ⟨later, last⟩

/-!
## The verdict on a list of commands
-/

/-- What a turn adds to `TotalRuns`. -/
def Turn.cmd : Turn → Int64
  | .refused => 0
  | .run _ cmd _ => cmd

def countedRuns (turns : List Turn) : Int64 := turns.foldr (fun turn runs => turn.cmd + runs) 0

def countedGood (turns : List Turn) : Int64 := Int64.ofNat ((turns.flatMap Turn.codes).count 0)

theorem countedRuns_append (before after : List Turn) :
    countedRuns (before ++ after) = countedRuns before + countedRuns after := by
  induction before with
  | nil => exact (Int64.zero_add _).symm
  | cons turn before ih =>
      rw [List.cons_append, countedRuns, List.foldr_cons, ← countedRuns, ih, ← Int64.add_assoc]
      rfl

theorem countedGood_append (before after : List Turn) :
    countedGood (before ++ after) = countedGood before + countedGood after := by
  rw [countedGood, List.flatMap_append, List.count_append, Int64.ofNat_add]
  rfl

theorem countedRuns_map (word : Numeral) (reading : Nat) (targets : List Target) :
    countedRuns (targets.map (.run word (Int64.ofNat reading))) =
      Int64.ofNat (targets.length * reading) := by
  induction targets with
  | nil => simp [countedRuns]
  | cons target targets ih =>
      rw [List.map_cons, countedRuns, List.foldr_cons, ← countedRuns, ih, List.length_cons,
        Nat.succ_mul, Int64.ofNat_add, Int64.add_comm]
      rfl

/-- A command without a stop adds its turns to the totals. -/
theorem round_tallied (settings : Settings) {script : Script} (running : script.exited = none)
    {command : Numeral × Outcomes}
    (never : (commandTurns command).any (Turn.stops settings.optshy) = false) :
    let final := script.round settings (.number command.1) command.2
    final.totalRuns = script.totalRuns + countedRuns (commandTurns command) ∧
      final.totalGood = script.totalGood + countedGood (commandTurns command) ∧
      final.optrelax = (script.optrelax || settings.relaxes) ∧ final.summary = true := by
  by_cases refused : Refused command
  · rw [commandTurns_of_refused refused] at never
    cases never
  · obtain ⟨reading, built, read, turns⟩ := commandTurns_of_accepted refused
    rw [turns, List.any_map] at never
    have passing : ∀ target ∈ command.2.targets,
        target.stops settings.optshy (Int64.ofNat reading) command.1.decimal = false :=
      fun target member => Bool.not_eq_true _ ▸ List.any_eq_false.mp never target member
    have good : countedGood (command.2.targets.map (.run command.1 (Int64.ofNat reading))) =
        Int64.ofNat ((command.2.targets.flatMap (Target.codes command.1.decimal)).count 0) := by
      rw [countedGood, List.flatMap_map]
      rfl
    simp only [turns, countedRuns_map, good]
    rw [round_number, number_counted (script.begun (.number command.1)) running built read rfl
      passing]
    exact ⟨rfl, rfl, rfl, rfl⟩

theorem advance_tallied (settings : Settings) (commands : List (Numeral × Outcomes))
    (script : Script) (running : script.exited = none)
    (never : (allTurns commands).any (Turn.stops settings.optshy) = false) :
    let final := (Script.machine settings).advance script (numberLabels commands)
    final.totalRuns = script.totalRuns + countedRuns (allTurns commands) ∧
      final.totalGood = script.totalGood + countedGood (allTurns commands) ∧
      (commands ≠ [] → final.optrelax = (script.optrelax || settings.relaxes) ∧
        final.summary = true) := by
  induction commands generalizing script with
  | nil =>
      refine ⟨?_, ?_, fun some => absurd rfl some⟩
      · exact (Int64.add_zero _).symm
      · exact (Int64.add_zero _).symm
  | cons command commands ih =>
      obtain ⟨now, later⟩ : (commandTurns command).any (Turn.stops settings.optshy) = false ∧
          (allTurns commands).any (Turn.stops settings.optshy) = false := by
        rw [allTurns, List.flatMap_cons, List.any_append, Bool.or_eq_false_iff] at never
        exact never
      have stepped : (Script.machine settings).step script (.number command.1, command.2) =
          some (script.round settings (.number command.1) command.2) := if_pos running
      have alive := (round_started settings running command).2
      rw [now] at alive
      obtain ⟨runs, good, relaxed, summary⟩ := round_tallied settings running now
      obtain ⟨laterRuns, laterGood, rest⟩ := ih _ alive.eq_none later
      have turns : allTurns (command :: commands) = commandTurns command ++ allTurns commands :=
        List.flatMap_cons
      simp only [numberLabels, List.map_cons, Machine.advance_of_step stepped]
      rw [turns, countedRuns_append, countedGood_append, ← Int64.add_assoc, ← Int64.add_assoc,
        ← runs, ← good]
      refine ⟨laterRuns, laterGood, fun _ => ?_⟩
      by_cases last : commands = []
      · subst last
        exact ⟨relaxed, summary⟩
      · obtain ⟨laterRelaxed, laterSummary⟩ := rest last
        exact ⟨laterRelaxed.trans (by rw [relaxed, Bool.or_assoc, Bool.or_self]), laterSummary⟩

theorem summarise_started (script : Script) : script.summarise.started = script.started := by
  rw [Script.summarise]
  split
  · rfl
  · rfl

theorem summarise_of_exited {script : Script} {status : Nat}
    (exited : script.exited = some status) : script.summarise = script := by
  simp [Script.summarise, exited]

theorem status_summarise {script : Script} (running : script.exited = none)
    (summary : script.summary = true) :
    script.summarise.status ≠ 0 ↔
      verdict script.optrelax script.totalGood.toInt script.totalRuns.toInt ≠ .success := by
  rw [Script.summarise, if_pos ⟨running, summary⟩, Script.status]
  cases verdict script.optrelax script.totalGood.toInt script.totalRuns.toInt with
  | success => simp [Verdict.exitStatus]
  | error => simp [Verdict.exitStatus]

/-- With a command given, the script fails if a turn stops it or the summary is no success. -/
theorem main_status_iff (settings : Settings) (commands : List (Numeral × Outcomes))
    (some : commands ≠ []) :
    (Script.main settings (numberLabels commands)).status ≠ 0 ↔
      (allTurns commands).any (Turn.stops settings.optshy) = true ∨
        verdict settings.relaxes (countedGood (allTurns commands)).toInt
          (countedRuns (allTurns commands)).toInt ≠ .success := by
  have initial : (Script.machine settings).initial = {} := rfl
  have leaves := (advance_started settings commands {} rfl).2
  rw [Script.main, initial]
  cases stop : (allTurns commands).any (Turn.stops settings.optshy) with
  | true =>
      rw [stop] at leaves
      obtain ⟨status, nonzero, exited⟩ := leaves.exists_status
      refine iff_of_true ?_ (.inl rfl)
      rw [summarise_of_exited exited, Script.status]
      exact exited.symm ▸ nonzero
  | false =>
      rw [stop] at leaves
      obtain ⟨runs, good, rest⟩ := advance_tallied settings commands {} rfl stop
      obtain ⟨relaxed, summary⟩ := rest some
      -- The counters start at 0, and `optrelax` is unset.
      replace runs := runs.trans (Int64.zero_add _)
      replace good := good.trans (Int64.zero_add _)
      replace relaxed := relaxed.trans (Bool.false_or _)
      rw [or_iff_right Bool.false_ne_true, ← runs, ← good, ← relaxed]
      exact status_summarise leaves.eq_none summary

/-!
## Stopping in time
-/

theorem ofNat_sub_ne_zero {n m : Nat} (parity : n % 2 ≠ m % 2) :
    Int64.ofNat n - Int64.ofNat m ≠ 0 := by
  intro zero
  have same : Int64.ofNat n = Int64.ofNat m := by
    rw [Int64.sub_eq_iff_eq_add.mp zero, Int64.zero_add]
  have words := congrArg (fun value => value.toBitVec.toNat) same
  simp only [Int64.toBitVec_ofNat', BitVec.toNat_ofNat] at words
  omega

/-- One bad run in the last iteration leaves an odd number of good ones too few or
too many, however the arithmetic reads the word. -/
theorem stops_of_last_failure {optshy : Nat} (shy : 1 < optshy) {word : Numeral} {cmd : Int64}
    (read : word.arithmetic = some cmd) {target : Target}
    (last : OnlyLast (· ≠ 0) (target.codes word.decimal))
    (failure : ∃ code ∈ target.codes word.decimal, code ≠ 0) :
    target.stops optshy cmd word.decimal = true := by
  obtain ⟨reading, _, parity, rfl⟩ := Numeral.arithmetic_eq_some read
  obtain ⟨before, code, shape, nonzero, good⟩ := last.split failure
  have iterations : word.decimal = before.length + 1 := by
    have executable : target.isExecutable = true := by
      by_contra missing
      simp [Target.codes, missing] at shape
    have length := congrArg List.length shape
    simpa [Target.codes, executable] using length
  have zeros : target.good word.decimal = before.length := by
    have all : before.count 0 = before.length :=
      List.count_eq_length.mpr fun code member => (Decidable.not_not.mp (good code member)).symm
    rw [Target.good, shape, List.count_append, all, List.count_singleton]
    simp [nonzero]
  have odd := ofNat_sub_ne_zero (n := reading) (m := target.good word.decimal) (by omega)
  simp [Target.stops, odd, shy]

theorem mem_allTurns {commands : List (Numeral × Outcomes)} {word : Numeral} {cmd : Int64}
    {target : Target} (member : .run word cmd target ∈ allTurns commands) :
    word.arithmetic = some cmd := by
  obtain ⟨command, _, inTurns⟩ := List.mem_flatMap.mp member
  by_cases refused : Refused command
  · rw [commandTurns_of_refused refused] at inTurns
    cases List.mem_singleton.mp inTurns
  · obtain ⟨reading, _, read, turns⟩ := commandTurns_of_accepted refused
    rw [turns] at inTurns
    obtain ⟨other, _, same⟩ := List.mem_map.mp inTurns
    cases same
    exact read

/-- The codes of the runs that are started. -/
def performedCodes (settings : Settings) (commands : List (Numeral × Outcomes)) : List Nat :=
  (untilStop (Turn.stops settings.optshy) (allTurns commands)).flatMap Turn.codes

/-- With `-s` given twice, the first target with a bad run that the script comes
to has it in its last iteration. Else no run is bad, or the very last one, and
then a command is refused or the summary is no success. -/
def StopsInTime (settings : Settings) (commands : List (Numeral × Outcomes)) : Prop :=
  if 1 < settings.optshy then
    ∀ before turn after, allTurns commands = before ++ turn :: after →
      (∀ earlier ∈ before, earlier.stops settings.optshy = false ∧ ∀ code ∈ earlier.codes, code = 0) →
      OnlyLast (· ≠ 0) turn.codes
  else
    OnlyLast (· ≠ 0) (acceptedCodes commands) ∧
      ((∃ code ∈ acceptedCodes commands, code ≠ 0) →
        (∃ command ∈ commands, Refused command) ∨
          verdict settings.relaxes (countedGood (allTurns commands)).toInt
            (countedRuns (allTurns commands)).toInt ≠ .success)

/-- Without a second `-s` the loop stops at a refused command only. -/
theorem performed_of_lenient {settings : Settings} (lenient : ¬ 1 < settings.optshy)
    (commands : List (Numeral × Outcomes)) :
    performedCodes settings commands = acceptedCodes commands ∧
      ((allTurns commands).any (Turn.stops settings.optshy) = true ↔
        ∃ command ∈ commands, Refused command) := by
  induction commands with
  | nil => exact ⟨rfl, by simp [allTurns]⟩
  | cons command commands ih =>
      rw [performedCodes, allTurns, List.flatMap_cons, acceptedCodes]
      by_cases refused : Refused command
      · have turns := commandTurns_of_refused refused
        rw [turns]
        exact ⟨by simp [untilStop, Turn.stops, Turn.codes, refused],
          by simp [Turn.stops, refused]⟩
      · obtain ⟨reading, _, _, turns⟩ := commandTurns_of_accepted refused
        have never : (commandTurns command).any (Turn.stops settings.optshy) = false := by
          simp [turns, Turn.stops, Target.stops, lenient]
        have codes : (commandTurns command).flatMap Turn.codes =
            command.2.targets.flatMap (Target.codes command.1.decimal) := by
          rw [turns, List.flatMap_map]
          rfl
        obtain ⟨rest, later⟩ := ih
        rw [performedCodes, allTurns, acceptedCodes] at rest
        constructor
        · rw [untilStop_append never, List.flatMap_append, codes, rest,
            List.takeWhile_cons_of_pos (by simpa using refused), List.flatMap_cons]
        · rw [List.any_append, never, Bool.false_or, ← allTurns, later]
          simp [refused]

theorem main_started (settings : Settings) (commands : List (Numeral × Outcomes)) :
    (Script.main settings (numberLabels commands)).started = performedCodes settings commands := by
  rw [Script.main, summarise_started]
  exact (advance_started settings commands {} rfl).1.trans (List.nil_append _)

theorem shyLaw_iff_codes (settings : Settings) (commands : List (Numeral × Outcomes)) :
    ShyLaw (Script.main settings (numberLabels commands)) ↔
      OnlyLast (· ≠ 0) (performedCodes settings commands) ∧
        ((∃ code ∈ performedCodes settings commands, code ≠ 0) →
          (allTurns commands).any (Turn.stops settings.optshy) = true ∨
            verdict settings.relaxes (countedGood (allTurns commands)).toInt
              (countedRuns (allTurns commands)).toInt ≠ .success) := by
  have status (failure : ∃ code ∈ performedCodes settings commands, code ≠ 0) :=
    main_status_iff settings commands (by
      rintro rfl
      obtain ⟨code, member, _⟩ := failure
      cases member)
  constructor
  · intro law
    have stops := law.stops
    have fails := law.fails
    rw [main_started] at stops fails
    exact ⟨stops, fun failure => (status failure).mp (fails failure)⟩
  · rintro ⟨stops, fails⟩
    constructor
    · rw [main_started]
      exact stops
    · rw [main_started]
      exact fun failure => (status failure).mpr (fails failure)

/-!
## Words that mean one number
-/

/-- The runs that the commands ask for. -/
def askedRuns : List (Numeral × Outcomes) → Nat
  | [] => 0
  | command :: commands => command.2.targets.length * command.1.decimal + askedRuns commands

def goodRuns : List (Numeral × Outcomes) → Nat
  | [] => 0
  | command :: commands =>
      (command.2.targets.flatMap (Target.codes command.1.decimal)).count 0 + goodRuns commands

/-- The arithmetic reads the word as `seq` does. -/
def Numeral.Plain (word : Numeral) : Prop := word.arithmetic = some (Int64.ofNat word.decimal)

instance (word : Numeral) : Decidable (Numeral.Plain word) := inferInstanceAs (Decidable (_ = _))

theorem goodRuns_le (commands : List (Numeral × Outcomes)) :
    goodRuns commands ≤ askedRuns commands := by
  induction commands with
  | nil => exact Nat.le_refl 0
  | cons command commands ih =>
      rw [goodRuns, askedRuns]
      exact Nat.add_le_add (count_codes_le command.1.decimal command.2.targets) ih

/-- If no command is refused and no word is read in two ways, the totals are those of the runs. -/
theorem counted_of_plain {commands : List (Numeral × Outcomes)}
    (plain : ∀ command ∈ commands, Numeral.Plain command.1)
    (accepted : ∀ command ∈ commands, ¬ Refused command) :
    countedRuns (allTurns commands) = Int64.ofNat (askedRuns commands) ∧
      countedGood (allTurns commands) = Int64.ofNat (goodRuns commands) := by
  induction commands with
  | nil => exact ⟨rfl, rfl⟩
  | cons command commands ih =>
      obtain ⟨runs, good⟩ := ih (fun later member => plain later (List.mem_cons_of_mem _ member))
        fun later member => accepted later (List.mem_cons_of_mem _ member)
      have read : command.1.arithmetic = some (Int64.ofNat command.1.decimal) :=
        plain command List.mem_cons_self
      obtain ⟨reading, _, other, turns⟩ :=
        commandTurns_of_accepted (accepted command List.mem_cons_self)
      rw [← Option.some.inj (read.symm.trans other)] at turns
      have split : allTurns (command :: commands) = commandTurns command ++ allTurns commands :=
        List.flatMap_cons
      rw [split, countedRuns_append, countedGood_append, runs, good, turns, countedRuns_map,
        askedRuns, goodRuns, Int64.ofNat_add, Int64.ofNat_add]
      refine ⟨rfl, congrArg (· + _) ?_⟩
      rw [countedGood, List.flatMap_map]
      rfl

theorem length_codes_le (iterations : Nat) (targets : List Target) :
    (targets.flatMap (Target.codes iterations)).length ≤ targets.length * iterations := by
  induction targets with
  | nil => simp
  | cons target targets ih =>
      have first : (target.codes iterations).length ≤ iterations := by
        rw [Target.codes]
        split
        · simp
        · simp
      rw [List.flatMap_cons, List.length_append, List.length_cons, Nat.succ_mul]
      omega

/-- A bad run is missing among the good ones. -/
theorem goodRuns_lt {commands : List (Numeral × Outcomes)}
    (accepted : ∀ command ∈ commands, ¬ Refused command)
    (failure : ∃ code ∈ acceptedCodes commands, code ≠ 0) :
    goodRuns commands < askedRuns commands := by
  have whole : acceptedCodes commands =
      commands.flatMap fun command => command.2.targets.flatMap (Target.codes command.1.decimal) := by
    rw [acceptedCodes, List.takeWhile_eq_self_iff.mpr]
    simpa using accepted
  have counts : ∀ commands : List (Numeral × Outcomes),
      goodRuns commands = (commands.flatMap fun command =>
          command.2.targets.flatMap (Target.codes command.1.decimal)).count 0 ∧
        (commands.flatMap fun command =>
          command.2.targets.flatMap (Target.codes command.1.decimal)).length ≤
            askedRuns commands := by
    intro commands
    induction commands with
    | nil => exact ⟨rfl, Nat.le_refl 0⟩
    | cons command commands ih =>
        have first := length_codes_le command.1.decimal command.2.targets
        rw [goodRuns, askedRuns, List.flatMap_cons, List.count_append, List.length_append, ih.1]
        exact ⟨rfl, Nat.add_le_add first ih.2⟩
  obtain ⟨good, length⟩ := counts commands
  rw [← whole] at good length
  obtain ⟨code, member, bad⟩ := failure
  have missing : (acceptedCodes commands).count 0 < (acceptedCodes commands).length :=
    List.count_lt_length_iff.mpr ⟨code, member, bad⟩
  omega

/-- The second condition on a bad run in numbers. -/
theorem verdict_of_plain {settings : Settings} {commands : List (Numeral × Outcomes)}
    (plain : ∀ command ∈ commands, Numeral.Plain command.1) (room : askedRuns commands < 2 ^ 63)
    (accepted : ∀ command ∈ commands, ¬ Refused command)
    (failure : ∃ code ∈ acceptedCodes commands, code ≠ 0) :
    verdict settings.relaxes (countedGood (allTurns commands)).toInt
        (countedRuns (allTurns commands)).toInt ≠ .success ↔
      (settings.relaxes = true → 20 * goodRuns commands < 19 * askedRuns commands) := by
  have part := goodRuns_le commands
  have fewer := goodRuns_lt accepted failure
  obtain ⟨runs, good⟩ := counted_of_plain plain accepted
  rw [runs, good, Int64.toInt_ofNat_of_lt room, Int64.toInt_ofNat_of_lt (by omega), ne_eq,
    verdict_success_iff settings.relaxes part]
  cases settings.relaxes with
  | false =>
      simp only [Bool.false_eq_true, if_false, false_imp_iff, iff_true]
      omega
  | true =>
      simp only [if_true, true_imp_iff]
      omega

theorem shyLaw_iff_stopsInTime (settings : Settings) (commands : List (Numeral × Outcomes)) :
    ShyLaw (Script.main settings (numberLabels commands)) ↔ StopsInTime settings commands := by
  rw [shyLaw_iff_codes, StopsInTime]
  split
  · next shy =>
      have stopped : ∀ turn ∈ allTurns commands, OnlyLast (· ≠ 0) turn.codes →
          (∃ code ∈ turn.codes, code ≠ 0) → turn.stops settings.optshy = true := by
        intro turn member last failure
        cases turn with
        | refused => rfl
        | run word cmd target => exact stops_of_last_failure shy (mem_allTurns member) last failure
      have each := onlyLast_untilStop_iff stopped
      simp only [not_not] at each
      rw [← each, performedCodes]
      constructor
      · exact And.left
      · exact fun last => ⟨last, fun failure => .inl (any_stops_of_bad stopped last failure)⟩
  · next lenient =>
      obtain ⟨codes, stopped⟩ := performed_of_lenient lenient commands
      rw [codes, stopped]

/-- The script stops in time exactly under the condition, and `-s` given once never stops it. Where
each word means one number, the patterns of the summary ask for 19 of 20 runs on a host that makes
the script relax, and for all of them elsewhere. -/
theorem shy_stops_iff (settings : Settings) (commands : List (Numeral × Outcomes)) :
    (ShyLaw (Script.main settings (numberLabels commands)) ↔ StopsInTime settings commands) ∧
    (settings.optshy ≤ 1 → (∀ command ∈ commands, Numeral.Plain command.1) →
      askedRuns commands < 2 ^ 63 →
      (ShyLaw (Script.main settings (numberLabels commands)) ↔
        OnlyLast (· ≠ 0) (acceptedCodes commands) ∧
          ((∃ code ∈ acceptedCodes commands, code ≠ 0) → settings.relaxes = true →
            (∃ command ∈ commands, Refused command) ∨
              20 * goodRuns commands < 19 * askedRuns commands))) := by
  refine ⟨shyLaw_iff_stopsInTime settings commands, ?_⟩
  intro lenient plain room
  rw [shyLaw_iff_stopsInTime, StopsInTime, if_neg (Nat.not_lt_of_le lenient)]
  refine and_congr_right fun _ => forall_congr' fun failure => ?_
  by_cases refused : ∃ command ∈ commands, Refused command
  · exact iff_of_true (.inl refused) fun _ => .inl refused
  · have accepted : ∀ command ∈ commands, ¬ Refused command := by
      simpa using refused
    rw [or_iff_right refused, verdict_of_plain plain room accepted failure]
    exact forall_congr' fun _ => (or_iff_right refused).symm

/-- One bad run of twenty, the last one, is enough only where all runs have to be good. -/
theorem shy_stops_iff_last :
    ShyLaw (Script.main { optshy := 1, runningUnderPREEMPT := true, runningAsRoot := true }
        (numberLabels [(⟨[2, 0], by decide⟩,
          { targets := [⟨true, fun i => if i = 19 then 1 else 0⟩] })])) ∧
      ¬ ShyLaw (Script.main { optshy := 1 } (numberLabels [(⟨[2, 0], by decide⟩,
          { targets := [⟨true, fun i => if i = 19 then 1 else 0⟩] })])) := by
  have last : OnlyLast (· ≠ 0) (List.replicate 19 0 ++ [1]) := by
    refine (onlyLast_append_iff (by simp)).mpr ?_
    intro before output after shape _
    obtain ⟨_, same⟩ : before = [] ∧ output :: after = [1] :=
      (List.singleton_eq_append_iff.mp shape).resolve_right (by simp)
    exact (List.cons.inj same).2
  have codes : acceptedCodes [(⟨[2, 0], by decide⟩,
      { targets := [⟨true, fun i => if i = 19 then 1 else 0⟩] })] = List.replicate 19 0 ++ [1] := by
    decide
  constructor
  · refine ((shy_stops_iff _ _).2 (by decide) (by decide) (by decide)).mpr ⟨codes ▸ last, ?_⟩
    intro _ relaxed
    exact absurd relaxed (by decide)
  · intro law
    have condition := ((shy_stops_iff _ _).2 (by decide) (by decide) (by decide)).mp law
    have missed := condition.2 ⟨1, by decide, by decide⟩ (by decide)
    exact absurd missed (by decide)

/-- With `-s` given once the second run is started although the first one failed. -/
theorem shy_once :
    ¬ ShyLaw (Script.main { optshy := 1 } (numberLabels [(⟨[2], by decide⟩,
      { targets := [⟨true, fun i => if i = 0 then 1 else 0⟩] })])) := by
  intro law
  exact absurd (law.stops [] 1 [0] (by decide) (by decide)) (by decide)

end Libpreempt.TestMatrix
