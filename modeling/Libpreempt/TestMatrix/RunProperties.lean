import Libpreempt.Sequence.Stopping
import Libpreempt.TestMatrix.ChoreProperties

/-! What a `<NUMBER>` command makes of the counters and the history. -/

set_option autoImplicit false

namespace Libpreempt.TestMatrix

open Libpreempt.Sequence Libpreempt.Shell Libpreempt.Transition

/-!
## One target
-/

/-- The exit codes of the runs in so many iterations. -/
def Target.codes (iterations : Nat) (target : Target) : List Nat :=
  if target.isExecutable then (List.range iterations).map target.exitCode else []

def Target.good (iterations : Nat) (target : Target) : Nat := (target.codes iterations).count 0

/-- `((Bad && optshy > 1))` behind the iterations. -/
def Target.stops (optshy : Nat) (cmd : Int64) (iterations : Nat) (target : Target) : Bool :=
  cmd - Int64.ofNat (target.good iterations) ≠ 0 ∧ 1 < optshy

theorem Target.good_le (iterations : Nat) (target : Target) :
    target.good iterations ≤ iterations := by
  have bound : (target.codes iterations).length ≤ iterations := by
    rw [codes]
    split
    · simp
    · simp
  exact Nat.le_trans List.count_le_length bound

theorem Target.iterate_eq (target : Target) (iterations : Nat) :
    target.iterate iterations = (Int64.ofNat (target.good iterations), target.codes iterations) := by
  induction iterations with
  | zero => simp [iterate, good, codes]
  | succ iterations ih =>
      rw [iterate] at ih
      rw [iterate, List.range_succ, List.foldl_append, ih]
      by_cases executable : target.isExecutable = true
      · by_cases zero : target.exitCode iterations = 0
        · simp [good, codes, executable, List.range_succ, zero]
        · simp [good, codes, executable, List.range_succ, zero]
      · simp [good, codes, executable]

/-- The counters and the history behind the iterations. -/
def Script.counted (cmd : Int64) (iterations : Nat) (script : Script) (target : Target) : Script :=
  let good := Int64.ofNat (target.good iterations)
  { script with
    totalRuns := script.totalRuns + cmd
    totalGood := script.totalGood + good
    totalBad := script.totalBad + (cmd - good)
    rows := script.rows ++ [⟨good, cmd - good, target.codes iterations⟩] }

theorem Script.turn_eq (optshy : Nat) (cmd : Int64) (iterations : Nat) (script : Script)
    (target : Target) :
    script.turn optshy cmd iterations target =
      if target.stops optshy cmd iterations then (script.counted cmd iterations target).die
      else script.counted cmd iterations target := by
  simp only [turn, target.iterate_eq, Target.stops, counted, decide_eq_true_eq]

/-- The loop counts the targets up to the first that stops it. -/
theorem Script.turns_eq (optshy : Nat) (cmd : Int64) (iterations : Nat) {script : Script}
    (running : script.exited = none) (targets : List Target) :
    script.turns optshy cmd iterations targets =
      { (untilStop (Target.stops optshy cmd iterations) targets).foldl (counted cmd iterations) script
        with exited := if targets.any (Target.stops optshy cmd iterations) then some 1 else none } := by
  induction targets generalizing script with
  | nil =>
      cases script
      cases running
      rfl
  | cons target targets ih =>
      rw [turns, turn_eq]
      cases stops : target.stops optshy cmd iterations with
      | true => simp [die, exit, untilStop, stops]
      | false =>
          have next : (script.counted cmd iterations target).exited = none := running
          simp [next, ih next, untilStop, stops]

/-!
## All targets
-/

theorem foldl_counted (reading iterations : Nat) (script : Script) (targets : List Target) :
    targets.foldl (Script.counted (Int64.ofNat reading) iterations) script =
      { script with
        totalRuns := script.totalRuns + Int64.ofNat (targets.length * reading)
        totalGood := script.totalGood +
          Int64.ofNat ((targets.flatMap (Target.codes iterations)).count 0)
        totalBad := script.totalBad + (Int64.ofNat (targets.length * reading) -
          Int64.ofNat ((targets.flatMap (Target.codes iterations)).count 0))
        rows := script.rows ++ targets.map fun target =>
          ⟨Int64.ofNat (target.good iterations),
            Int64.ofNat reading - Int64.ofNat (target.good iterations),
            target.codes iterations⟩ } := by
  induction targets generalizing script with
  | nil =>
      cases script
      simp
  | cons target targets ih =>
      rw [List.foldl_cons, ih]
      simp only [Script.counted, List.length_cons, Nat.succ_mul, List.flatMap_cons,
        List.count_append, Int64.ofNat_add, List.map_cons, List.append_assoc, Target.good,
        List.singleton_append, Script.mk.injEq, true_and, and_true]
      refine ⟨?_, ?_, ?_⟩
      · grind
      · grind
      · grind

/-!
## The command
-/

/-- The command comes to its targets: it builds, and enters their directory. -/
def Outcomes.Built (outcomes : Outcomes) : Prop :=
  outcomes.mkdir = 0 ∧ outcomes.make = 0 ∧ outcomes.pushd = 0

instance (outcomes : Outcomes) : Decidable outcomes.Built := inferInstanceAs (Decidable (_ ∧ _))

theorem makebuild_of_built {outcomes : Outcomes} (built : outcomes.Built) :
    makebuild outcomes = .ok 0 := by
  rw [makebuild_eq, if_pos ⟨built.1, built.2.1⟩]

theorem number_of_unbuilt (settings : Settings) (word : Numeral) {outcomes : Outcomes}
    (unbuilt : ¬ outcomes.Built) (script : Script) :
    ∃ status, status ≠ 0 ∧ script.number settings word outcomes = script.exit status := by
  by_cases made : outcomes.mkdir = 0 ∧ outcomes.make = 0
  · have outside : outcomes.pushd ≠ 0 := fun inside => unbuilt ⟨made.1, made.2, inside⟩
    exact ⟨1, by decide, by simp [Script.number, makebuild_eq, made, outside, Script.die]⟩
  · exact ⟨255, by decide, by simp [Script.number, makebuild_eq, made]⟩

theorem number_of_unread (settings : Settings) {word : Numeral} {outcomes : Outcomes}
    (built : outcomes.Built) (unread : word.arithmetic = none) (script : Script) :
    script.number settings word outcomes = { script with summary := true, exited := some 1 } := by
  simp [Script.number, makebuild_of_built built, built.2.2, unread, Script.exit]

theorem number_of_read (settings : Settings) {word : Numeral} {outcomes : Outcomes}
    {script : Script} {cmd : Int64} (running : script.exited = none) (built : outcomes.Built)
    (read : word.arithmetic = some cmd) :
    script.number settings word outcomes =
      { (untilStop (Target.stops settings.optshy cmd word.decimal) outcomes.targets).foldl
          (Script.counted cmd word.decimal)
          { script with
            summary := true
            optrelax := script.optrelax || settings.relaxes }
        with exited := if outcomes.targets.any (Target.stops settings.optshy cmd word.decimal)
          then some 1 else none } := by
  rw [← Script.turns_eq settings.optshy cmd word.decimal (by exact running) outcomes.targets]
  simp [Script.number, makebuild_of_built built, built.2.2, read]

theorem round_number (settings : Settings) (word : Numeral) (outcomes : Outcomes)
    (script : Script) :
    script.round settings (.number word) outcomes =
      (script.begun (.number word)).number settings word outcomes := by
  simp [Script.round, Script.perform]

/-!
## Bookkeeping
-/

/-- What a `<NUMBER>` command makes of the counters with the targets that had their turn. -/
structure Booked (source : Script) (turned : List Target) (iterations : Nat) (target : Script) :
    Prop where
  totalRuns : target.totalRuns.toInt = source.totalRuns.toInt + (turned.length * iterations : Nat)
  totalGood : target.totalGood.toInt = source.totalGood.toInt +
    ((turned.flatMap (Target.codes iterations)).count 0 : Nat)
  bad : ∀ row ∈ target.rows, 0 ≤ row.bad.toInt
  total : target.totalGood.toInt + target.totalBad.toInt = target.totalRuns.toInt

/-- All targets have their turn, or the first ones if the command ends the script. -/
def BookkeepingLaw (source : Script) (label : Command × Outcomes) (target : Script) : Prop :=
  ∀ word, label.1 = .number word → ∃ turned, turned <+: label.2.targets ∧
    target.rows.length = source.rows.length + turned.length ∧
    (target.exited = none → turned = label.2.targets) ∧
    Booked source turned word.decimal target

/-- A command that comes to its targets has none, or means the same number to `seq` and to the
arithmetic and leaves room in the counter for the targets that have their turn. -/
def BookkeepingGuard (settings : Settings) (source : Script) (label : Command × Outcomes) : Prop :=
  ∀ word cmd, label.1 = .number word → label.2.Built → word.arithmetic = some cmd →
    label.2.targets = [] ∨
      cmd.toInt = word.decimal ∧
        source.totalRuns.toInt +
          ((untilStop (Target.stops settings.optshy cmd word.decimal) label.2.targets).length *
            word.decimal : Nat) < 2 ^ 63

structure Balanced (script : Script) : Prop where
  good : 0 ≤ script.totalGood.toInt
  bad : 0 ≤ script.totalBad.toInt
  rows : ∀ row ∈ script.rows, 0 ≤ row.bad.toInt
  total : script.totalGood.toInt + script.totalBad.toInt = script.totalRuns.toInt

theorem toInt_add_of_room {a b : Int64} (left : 0 ≤ a.toInt) (right : 0 ≤ b.toInt)
    (room : a.toInt + b.toInt < 2 ^ 63) : (a + b).toInt = a.toInt + b.toInt := by
  rw [Int64.toInt_add]
  exact Int.bmod_eq_of_le (by omega) (by omega)

theorem toInt_ofNat_sub {n m : Nat} (below : m ≤ n) (fits : n < 2 ^ 63) :
    (Int64.ofNat n - Int64.ofNat m).toInt = (n - m : Nat) := by
  rw [Int64.toInt_sub, Int64.toInt_ofNat_of_lt fits, Int64.toInt_ofNat_of_lt (by omega),
    Int.bmod_eq_of_le (by omega) (by omega)]
  omega

theorem number_turned {settings : Settings} {word : Numeral} {outcomes : Outcomes}
    {cmd : Int64} {reading : Nat} (script : Script) (running : script.exited = none)
    (built : outcomes.Built) (read : word.arithmetic = some cmd)
    (same : cmd = Int64.ofNat reading) {turned : List Target}
    (turns : turned = untilStop (Target.stops settings.optshy cmd word.decimal) outcomes.targets) :
    let good := (turned.flatMap (Target.codes word.decimal)).count 0
    let runs := turned.length * reading
    script.number settings word outcomes =
      { script with
        summary := true
        optrelax := script.optrelax || settings.relaxes
        totalRuns := script.totalRuns + Int64.ofNat runs
        totalGood := script.totalGood + Int64.ofNat good
        totalBad := script.totalBad + (Int64.ofNat runs - Int64.ofNat good)
        rows := script.rows ++ turned.map fun target =>
          ⟨Int64.ofNat (target.good word.decimal),
            Int64.ofNat reading - Int64.ofNat (target.good word.decimal),
            target.codes word.decimal⟩
        exited := if outcomes.targets.any (Target.stops settings.optshy cmd word.decimal)
          then some 1 else none } := by
  subst same
  rw [number_of_read settings running built read, ← turns, foldl_counted]

theorem number_counted {settings : Settings} {word : Numeral} {outcomes : Outcomes}
    {cmd : Int64} {reading : Nat} (script : Script) (running : script.exited = none)
    (built : outcomes.Built) (read : word.arithmetic = some cmd)
    (same : cmd = Int64.ofNat reading)
    (passing : ∀ target ∈ outcomes.targets,
      target.stops settings.optshy cmd word.decimal = false) :
    let good := (outcomes.targets.flatMap (Target.codes word.decimal)).count 0
    let runs := outcomes.targets.length * reading
    script.number settings word outcomes =
      { script with
        summary := true
        optrelax := script.optrelax || settings.relaxes
        totalRuns := script.totalRuns + Int64.ofNat runs
        totalGood := script.totalGood + Int64.ofNat good
        totalBad := script.totalBad + (Int64.ofNat runs - Int64.ofNat good)
        rows := script.rows ++ outcomes.targets.map fun target =>
          ⟨Int64.ofNat (target.good word.decimal),
            Int64.ofNat reading - Int64.ofNat (target.good word.decimal),
            target.codes word.decimal⟩ } := by
  have none : outcomes.targets.any (Target.stops settings.optshy cmd word.decimal) = false :=
    List.any_eq_false.mpr fun target member => by simp [passing target member]
  rw [number_turned script running built read same (untilStop_eq_self passing).symm, none]
  simp [running]

theorem count_codes_le (iterations : Nat) (targets : List Target) :
    (targets.flatMap (Target.codes iterations)).count 0 ≤ targets.length * iterations := by
  induction targets with
  | nil => simp
  | cons target targets ih =>
      have first := target.good_le iterations
      rw [Target.good] at first
      rw [List.flatMap_cons, List.count_append, List.length_cons, Nat.succ_mul]
      omega

/-- Runs of which no more than all are good keep the counters balanced, if there is room. -/
theorem Balanced.add {source final : Script} (balanced : Balanced source) {runs good : Nat}
    {rows : List Row} (part : good ≤ runs) (room : source.totalRuns.toInt + runs < 2 ^ 63)
    (fine : ∀ row ∈ rows, 0 ≤ row.bad.toInt)
    (totalRuns : final.totalRuns = source.totalRuns + Int64.ofNat runs)
    (totalGood : final.totalGood = source.totalGood + Int64.ofNat good)
    (totalBad : final.totalBad = source.totalBad + (Int64.ofNat runs - Int64.ofNat good))
    (history : final.rows = source.rows ++ rows) :
    final.totalRuns.toInt = source.totalRuns.toInt + runs ∧
      final.totalGood.toInt = source.totalGood.toInt + good ∧ Balanced final := by
  obtain ⟨sourceGood, sourceBad, sourceRows, total⟩ := balanced
  have allRuns := Int64.toInt_ofNat_of_lt (n := runs) (by omega)
  have goodRuns := Int64.toInt_ofNat_of_lt (n := good) (by omega)
  have badRuns := toInt_ofNat_sub part (by omega)
  have runsAdded := toInt_add_of_room (a := source.totalRuns) (b := Int64.ofNat runs)
    (by omega) (by omega) (by omega)
  have goodAdded := toInt_add_of_room (a := source.totalGood) (b := Int64.ofNat good)
    sourceGood (by omega) (by omega)
  have badAdded := toInt_add_of_room (a := source.totalBad)
    (b := Int64.ofNat runs - Int64.ofNat good) sourceBad (by omega) (by omega)
  rw [← totalRuns, allRuns] at runsAdded
  rw [← totalGood, goodRuns] at goodAdded
  rw [← totalBad, badRuns] at badAdded
  refine ⟨runsAdded, goodAdded, by omega, by omega, ?_, by omega⟩
  intro row member
  rw [history] at member
  rcases List.mem_append.mp member with old | new
  · exact sourceRows row old
  · exact fine row new

/-- The counters behind a command, if its word means one number and there is room, or if there
is no target. -/
theorem number_booked {settings : Settings} {word : Numeral} {outcomes : Outcomes}
    {script : Script} {cmd : Int64} (running : script.exited = none) (built : outcomes.Built)
    (read : word.arithmetic = some cmd) (balanced : Balanced script) {turned : List Target}
    (turns : turned = untilStop (Target.stops settings.optshy cmd word.decimal) outcomes.targets)
    (room : turned = [] ∨ cmd.toInt = word.decimal ∧
      script.totalRuns.toInt + (turned.length * word.decimal : Nat) < 2 ^ 63) :
    Booked script turned word.decimal (script.number settings word outcomes) ∧
      Balanced (script.number settings word outcomes) := by
  obtain ⟨reading, below, _, same⟩ := Numeral.arithmetic_eq_some read
  rw [number_turned script running built read same turns]
  have part := count_codes_le word.decimal turned
  suffices added : _ ∧ _ ∧ Balanced _ from
    ⟨⟨added.1, added.2.1, added.2.2.rows, added.2.2.total⟩, added.2.2⟩
  rcases room with none | ⟨equal, fits⟩
  · have count := script.totalRuns.toInt_lt
    rw [none] at part ⊢
    refine balanced.add part (by simpa using count) (by simp) ?_ rfl ?_ rfl
    · simp
    · simp
  · have bound := cmd.toInt_lt
    have small : word.decimal < 2 ^ 63 := by omega
    rw [same, Int64.toInt_ofNat_of_lt (by omega)] at equal
    obtain rfl : reading = word.decimal := by omega
    refine balanced.add part fits ?_ rfl rfl rfl rfl
    intro row member
    obtain ⟨target, _, rfl⟩ := List.mem_map.mp member
    have difference := toInt_ofNat_sub (target.good_le word.decimal) small
    exact difference ▸ (by omega)

/-- A count that is right shows that both readings of the word agree. -/
theorem room_of_totalRuns {settings : Settings} {word : Numeral} {outcomes : Outcomes}
    {script : Script} {cmd : Int64} (running : script.exited = none) (built : outcomes.Built)
    (read : word.arithmetic = some cmd) (nonneg : 0 ≤ script.totalRuns.toInt)
    {turned : List Target}
    (turns : turned = untilStop (Target.stops settings.optshy cmd word.decimal) outcomes.targets)
    (counted : (script.number settings word outcomes).totalRuns.toInt =
      script.totalRuns.toInt + (turned.length * word.decimal : Nat)) :
    turned = [] ∨ cmd.toInt = word.decimal ∧
      script.totalRuns.toInt + (turned.length * word.decimal : Nat) < 2 ^ 63 := by
  by_cases none : turned = []
  · exact .inl none
  have some : 0 < turned.length := List.length_pos_iff.mpr none
  obtain ⟨reading, below, _, same⟩ := Numeral.arithmetic_eq_some read
  have bound := (script.number settings word outcomes).totalRuns.toInt_lt
  have fits : script.totalRuns.toInt + (turned.length * word.decimal : Nat) < 2 ^ 63 := by omega
  have part : turned.length * reading ≤ turned.length * word.decimal :=
    Nat.mul_le_mul_left _ below
  have once : word.decimal ≤ turned.length * word.decimal := Nat.le_mul_of_pos_left _ some
  have runs := Int64.toInt_ofNat_of_lt (n := turned.length * reading) (by omega)
  have total := toInt_add_of_room (a := script.totalRuns)
    (b := Int64.ofNat (turned.length * reading)) nonneg (by omega) (by omega)
  rw [number_turned script running built read same turns] at counted
  have products : turned.length * reading = turned.length * word.decimal := by
    have difference := total.symm.trans counted
    omega
  have agree : reading = word.decimal := Nat.eq_of_mul_eq_mul_left some products
  refine .inr ⟨?_, fits⟩
  rw [same, agree, Int64.toInt_ofNat_of_lt (by omega)]

/-- A command that ends before the run loop counts nothing. -/
theorem booked_nothing {script final : Script} (balanced : Balanced script) (iterations : Nat)
    (runs : final.totalRuns = script.totalRuns) (good : final.totalGood = script.totalGood)
    (bad : final.totalBad = script.totalBad) (rows : final.rows = script.rows) :
    Booked script [] iterations final where
  totalRuns := by simp [runs]
  totalGood := by simp [good]
  bad := rows ▸ balanced.rows
  total := by rw [good, bad, runs, balanced.total]

/-!
## Runs of the script
-/

theorem round_other (settings : Settings) {script : Script} (running : script.exited = none)
    {command : Command} (other : ∀ word, command ≠ .number word) (outcomes : Outcomes) :
    (script.round settings command outcomes).totalRuns = script.totalRuns ∧
      (script.round settings command outcomes).totalGood = script.totalGood ∧
      (script.round settings command outcomes).totalBad = script.totalBad ∧
      (script.round settings command outcomes).rows = script.rows := by
  cases command with
  | list => simp [Script.round, Script.perform, Script.begun]
  | number word => exact absurd rfl (other word)
  | chore chore =>
      obtain ⟨exited, _, round⟩ := round_chore_ends chore outcomes settings script running
      rw [round]
      exact ⟨rfl, rfl, rfl, rfl⟩
  | stress | afk =>
      simp only [Script.round, Script.perform, Script.series]
      split
      · simp [Script.begun]
      · simp [Script.begun, Script.die, Script.exit]
  | unknown word => simp [Script.round, Script.perform, Script.begun, Script.die, Script.exit]

theorem step_script {settings : Settings} {source target : Script} {label : Command × Outcomes}
    (stepped : (Script.machine settings).step source label = some target) :
    source.exited = none ∧ target = source.round settings label.1 label.2 := by
  simp only [Script.machine] at stepped
  split at stepped
  · next running => exact ⟨running, (Option.some.inj stepped).symm⟩
  · cases stepped

theorem balanced_initial : Balanced {} := ⟨by decide, by decide, by simp, by decide⟩

theorem Balanced.totalRuns {script : Script} (balanced : Balanced script) :
    0 ≤ script.totalRuns.toInt :=
  balanced.total ▸ Int.add_nonneg balanced.good balanced.bad

theorem number_unturned (settings : Settings) (word : Numeral) {outcomes : Outcomes}
    (script : Script) (left : ¬ outcomes.Built ∨ word.arithmetic = none) (balanced : Balanced script) :
    Booked script [] word.decimal (script.number settings word outcomes) ∧
      (script.number settings word outcomes).rows = script.rows ∧
      (script.number settings word outcomes).exited ≠ none := by
  by_cases built : outcomes.Built
  · have unread := left.resolve_left (not_not_intro built)
    rw [number_of_unread settings built unread]
    exact ⟨booked_nothing balanced _ rfl rfl rfl rfl, rfl, by simp⟩
  · obtain ⟨status, _, ended⟩ := number_of_unbuilt settings word built script
    rw [ended]
    exact ⟨booked_nothing balanced _ rfl rfl rfl rfl, rfl, by simp [Script.exit]⟩

/-- A `<NUMBER>` command obeys the law exactly if it is guarded, and then leaves the counters
balanced. -/
theorem bookkeeping_number (settings : Settings) (word : Numeral) (outcomes : Outcomes)
    (script : Script) (running : script.exited = none) (balanced : Balanced script) :
    (BookkeepingLaw script (.number word, outcomes) (script.number settings word outcomes) ↔
      BookkeepingGuard settings script (.number word, outcomes)) ∧
    (BookkeepingGuard settings script (.number word, outcomes) →
      (script.number settings word outcomes).exited = none →
      Balanced (script.number settings word outcomes)) := by
  by_cases left : ¬ outcomes.Built ∨ word.arithmetic = none
  · obtain ⟨booked, rows, ended⟩ := number_unturned settings word script left balanced
    refine ⟨iff_of_true ?_ ?_, fun _ completed => absurd completed ended⟩
    · rintro other same
      cases same
      exact ⟨[], List.nil_prefix, by rw [rows]; rfl, fun completed => absurd completed ended,
        booked⟩
    · rintro other cmd same built read
      cases same
      rcases left with unbuilt | unread
      · exact absurd built unbuilt
      · cases unread.symm.trans read
  · obtain ⟨built, read⟩ := not_or.mp left
    rw [not_not] at built
    obtain ⟨cmd, read⟩ := Option.ne_none_iff_exists'.mp read
    obtain ⟨reading, _, _, same⟩ := Numeral.arithmetic_eq_some read
    let turned := untilStop (Target.stops settings.optshy cmd word.decimal) outcomes.targets
    have number := number_turned script running built read same (show turned = _ from rfl)
    have guarded : BookkeepingGuard settings script (.number word, outcomes) ↔
        (turned = [] ∨ cmd.toInt = word.decimal ∧
          script.totalRuns.toInt + (turned.length * word.decimal : Nat) < 2 ^ 63) := by
      rw [untilStop_eq_nil_iff]
      constructor
      · exact fun guard => guard word cmd rfl built read
      · rintro room other reading same _ readOther
        cases same
        cases read.symm.trans readOther
        exact room
    rw [guarded]
    refine ⟨⟨?_, ?_⟩, fun room _ => (number_booked running built read balanced rfl room).2⟩
    · intro law
      obtain ⟨others, _, length, _, booked⟩ := law word rfl
      have same : others.length = turned.length := by
        rw [number] at length
        simpa using length.symm
      have counted := booked.totalRuns
      rw [same] at counted
      exact room_of_totalRuns running built read balanced.totalRuns rfl counted
    · rintro room other same
      cases same
      refine ⟨turned, untilStop_prefix _ _, ?_, ?_,
        (number_booked running built read balanced rfl room).1⟩
      · rw [number, List.length_append, List.length_map]
      · intro completed
        refine untilStop_eq_self fun target member => ?_
        rw [number] at completed
        have never : outcomes.targets.any
            (Target.stops settings.optshy cmd word.decimal) = false := by
          simpa using completed
        exact Bool.not_eq_true _ ▸ List.any_eq_false.mp never target member

theorem law_begun (script : Script) (command : Command) (label : Command × Outcomes)
    (target : Script) :
    BookkeepingLaw (script.begun command) label target ↔ BookkeepingLaw script label target := by
  have booked : ∀ turned iterations, Booked (script.begun command) turned iterations target ↔
      Booked script turned iterations target :=
    fun _ _ => ⟨fun law => ⟨law.1, law.2, law.3, law.4⟩, fun law => ⟨law.1, law.2, law.3, law.4⟩⟩
  simp only [BookkeepingLaw, booked]
  rfl

theorem bookkeeping_round (settings : Settings) {source : Script} (command : Command)
    (outcomes : Outcomes) (running : source.exited = none) (balanced : Balanced source) :
    (BookkeepingLaw source (command, outcomes) (source.round settings command outcomes) ↔
      BookkeepingGuard settings source (command, outcomes)) ∧
    (BookkeepingGuard settings source (command, outcomes) →
      (source.round settings command outcomes).exited = none →
      Balanced (source.round settings command outcomes)) := by
  by_cases numbered : ∃ word, command = .number word
  · obtain ⟨word, rfl⟩ := numbered
    rw [round_number, ← law_begun source (.number word)]
    exact bookkeeping_number settings word outcomes (source.begun (.number word)) running
      ⟨balanced.good, balanced.bad, balanced.rows, balanced.total⟩
  · have other : ∀ word, command ≠ .number word := fun word same => numbered ⟨word, same⟩
    obtain ⟨runs, good, bad, rows⟩ := round_other settings running other outcomes
    refine ⟨iff_of_true ?_ ?_, fun _ _ => ⟨?_, ?_, ?_, ?_⟩⟩
    · exact fun word same => absurd same (other word)
    · exact fun word _ same => absurd same (other word)
    · rw [good]
      exact balanced.good
    · rw [bad]
      exact balanced.bad
    · rw [rows]
      exact balanced.rows
    · rw [good, bad, runs]
      exact balanced.total

/-- In every run the law holds behind each command exactly if each is guarded. -/
theorem bookkeeping_iff (settings : Settings) (commands : List (Command × Outcomes)) :
    (Script.machine settings).EachStep BookkeepingLaw (Script.machine settings).initial commands ↔
      (Script.machine settings).EachStep
        (fun source label _ => BookkeepingGuard settings source label)
        (Script.machine settings).initial commands := by
  apply Machine.eachStep_iff_guarded fun script => script.exited = none → Balanced script
  · intro source label target balanced stepped
    obtain ⟨running, rfl⟩ := step_script stepped
    exact (bookkeeping_round settings label.1 label.2 running (balanced running)).1
  · intro source label target balanced stepped law alive
    obtain ⟨running, rfl⟩ := step_script stepped
    obtain ⟨exactly, kept⟩ :=
      bookkeeping_round settings label.1 label.2 running (balanced running)
    exact kept (exactly.mp law) alive
  · exact fun _ => balanced_initial

/-- `seq 1 010` makes ten iterations, and the arithmetic counts eight. -/
theorem bookkeeping_octal :
    ¬ (Script.machine {}).EachStep BookkeepingLaw (Script.machine {}).initial
      [(.number ⟨[0, 1, 0], by decide⟩, { targets := [⟨true, fun _ => 0⟩] })] := by
  intro law
  have step := law [] (.number ⟨[0, 1, 0], by decide⟩, { targets := [⟨true, fun _ => 0⟩] }) [] _ _
    rfl rfl rfl
  obtain ⟨turned, _, length, _, booked⟩ := step _ rfl
  have once : turned.length = 1 := by
    have rows : 1 = 0 + turned.length := length
    omega
  have counted := booked.totalRuns
  rw [once] at counted
  exact absurd counted (by decide)

end Libpreempt.TestMatrix
