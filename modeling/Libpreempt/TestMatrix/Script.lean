import Libpreempt.Shell.Numeral
import Libpreempt.TestMatrix.Summary
import Libpreempt.Transition.Machine

/-! The command loop of `testmatrix.sh` and the summary behind it. -/

set_option autoImplicit false

namespace Libpreempt.TestMatrix

open Libpreempt.Shell Libpreempt.Transition

structure Settings where
  /-- How often the option `-s` was given. -/
  optshy : Nat := 0
  runningUnderPREEMPT : Bool := false
  runningUnderLinux : Bool := false
  runningAsRoot : Bool := false
  userMaximumRTPriority : Nat := 32

/-- Whether a `<NUMBER>` command sets `optrelax`. -/
def Settings.relaxes (settings : Settings) : Bool :=
  !settings.runningUnderPREEMPT ||
    if settings.runningAsRoot then false
    else if settings.userMaximumRTPriority = 0 then false
    else if settings.userMaximumRTPriority < 32 then true
    else settings.userMaximumRTPriority < 99 && settings.runningUnderLinux

/-- What a command finds at a target: whether there is an executable, and the
exit code of each iteration. -/
structure Target where
  isExecutable : Bool
  exitCode : Nat → Nat

/-- What the programs started by a command return. -/
structure Outcomes where
  mkdir : Nat := 0
  ln : Nat := 0
  make : Nat := 0
  pushd : Nat := 0
  rm : Nat := 0
  targets : List Target := []
  -- of the runs of the script itself
  jiva : Nat → Nat := fun _ => 0

inductive Chore where
  | make
  | build
  | rebuild
  | clean
  | realclean
deriving DecidableEq, Repr

inductive Command where
  | list
  | number (word : Numeral)
  | chore (chore : Chore)
  | stress
  | afk
  | unknown (word : List Char)
deriving DecidableEq

/-- The counters of one target behind its iterations, and the exit codes of its runs. -/
structure Row where
  good : Int64
  bad : Int64
  codes : List Nat
deriving DecidableEq

/-- `executed` and `rows` are the history of the run: the commands begun, and
the targets that had their turn. -/
structure Script where
  optrelax : Bool := false
  summary : Bool := false
  totalRuns : Int64 := 0
  totalGood : Int64 := 0
  totalBad : Int64 := 0
  executed : List Command := []
  rows : List Row := []
  exited : Option Nat := none
deriving DecidableEq

/-!
## Functions, which return a status or exit with one
-/

/-- The status `-1` of an `exit` is 255. -/
def makemakefile (outcomes : Outcomes) : Except Nat Nat :=
  if outcomes.mkdir = 0 then .ok outcomes.ln else .error 255

/-- The status of `makemakefile` is not looked at. -/
def makebuild (outcomes : Outcomes) : Except Nat Nat := do
  let _ ← makemakefile outcomes
  if outcomes.make = 0 then .ok 0 else .error 255

/-- The operation of a command, `rm` where it is no function. -/
def Chore.operation (outcomes : Outcomes) : Chore → Except Nat Nat
  | .make => makemakefile outcomes
  | .build | .rebuild => makebuild outcomes
  | .clean | .realclean => .ok outcomes.rm

/-- The value of `CmdSuccess` behind the command. All but `make` assign to a
variable of another name, `CmdSucccess`. -/
def Chore.cmdSuccess (outcomes : Outcomes) (chore : Chore) : Except Nat Bool := do
  let status ← chore.operation outcomes
  match chore with
  | .make => .ok (status = 0)
  | .build | .rebuild | .clean | .realclean => .ok true

/-!
## The `<NUMBER>` command
-/

/-- The iterations of one target: `Good`, and the exit codes of the runs. -/
def Target.iterate (target : Target) (iterations : Nat) : Int64 × List Nat :=
  (List.range iterations).foldl (fun (good, codes) i =>
    if target.isExecutable then
      let result := target.exitCode i
      (if result = 0 then good + 1 else good, codes ++ [result])
    else (good, codes)) (0, [])

namespace Script

def exit (script : Script) (status : Nat) : Script := { script with exited := some status }

def die (script : Script) : Script := script.exit 1

/-- `Cmd` is read by `seq` for the iterations, and by the arithmetic as `cmd`. -/
def turn (optshy : Nat) (cmd : Int64) (iterations : Nat) (script : Script) (target : Target) :
    Script :=
  let (good, codes) := target.iterate iterations
  let bad := cmd - good
  let script := { script with
    totalRuns := script.totalRuns + cmd
    totalGood := script.totalGood + good
    totalBad := script.totalBad + bad
    rows := script.rows ++ [⟨good, bad, codes⟩] }
  if bad ≠ 0 ∧ 1 < optshy then script.die else script

def turns (optshy : Nat) (cmd : Int64) (iterations : Nat) (script : Script) :
    List Target → Script
  | [] => script
  | target :: targets =>
      let script := script.turn optshy cmd iterations target
      if script.exited = none then script.turns optshy cmd iterations targets else script

/-- A word that the arithmetic cannot read ends the script. -/
def number (settings : Settings) (word : Numeral) (outcomes : Outcomes) (script : Script) :
    Script :=
  match makebuild outcomes with
  | .error status => script.exit status
  | .ok status =>
      if status ≠ 0 then script.die
      else if outcomes.pushd ≠ 0 then script.die
      else
        let script := { script with summary := true }
        match word.arithmetic with
        | none => script.exit 1
        | some cmd =>
            let script := { script with optrelax := script.optrelax || settings.relaxes }
            script.turns settings.optshy cmd word.decimal outcomes.targets

/-!
## The loop
-/

def fnnoStress : List Nat := [0, 1, 1, 2, 3, 5, 8, 12]

def fnnoAfk : List Nat :=
  fnnoStress ++
    [21, 34, 55, 89, 144, 233, 377, 610, 987, 1597, 2584, 4181, 6765, 10946, 17711, 28657, 46368]

/-- The script is run for each number, and the first failure is fatal. -/
def series (fnno : List Nat) (outcomes : Outcomes) (script : Script) : Script :=
  if (List.range fnno.length).all fun i => outcomes.jiva i = 0 then script else script.die

/-- The branches of the `case`, with the value of `CmdSuccess`. -/
def perform (settings : Settings) (script : Script) (outcomes : Outcomes) :
    Command → Script × Bool
  | .list => (script, true)
  | .number word => (script.number settings word outcomes, true)
  | .chore chore =>
      match chore.cmdSuccess outcomes with
      | .error status => (script.exit status, true)
      | .ok cmdSuccess => (script, cmdSuccess)
  | .stress => (script.series fnnoStress outcomes, true)
  | .afk => (script.series fnnoAfk outcomes, true)
  | .unknown _ => (script.die, true)

def begun (script : Script) (command : Command) : Script :=
  { script with executed := script.executed ++ [command] }

def round (settings : Settings) (script : Script) (command : Command) (outcomes : Outcomes) :
    Script :=
  let (script, cmdSuccess) := (script.begun command).perform settings outcomes command
  if script.exited = none ∧ cmdSuccess = false then script.die else script

def machine (settings : Settings) : Machine Script (Command × Outcomes) where
  initial := {}
  step script label :=
    if script.exited = none then some (script.round settings label.1 label.2) else none

/-- The summary of all `<NUMBER>` commands. -/
def summarise (script : Script) : Script :=
  if script.exited = none ∧ script.summary then
    { script with
      totalBad := script.totalRuns - script.totalGood
      exited := (verdict script.optrelax script.totalGood.toInt script.totalRuns.toInt).exitStatus }
  else script

def status (script : Script) : Nat := script.exited.getD 0

/-- The script with these commands, up to its end. -/
def main (settings : Settings) (commands : List (Command × Outcomes)) : Script :=
  ((machine settings).advance (machine settings).initial commands).summarise

end Script

end Libpreempt.TestMatrix
