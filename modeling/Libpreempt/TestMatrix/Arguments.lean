import Libpreempt.Shell.Getopts
import Libpreempt.TestMatrix.Script

/-! The arguments of `testmatrix.sh`: its options, its commands, and the status
of the script called with them. A file `.testrc` is not there. -/

set_option autoImplicit false

namespace Libpreempt.TestMatrix

open Libpreempt.Shell

/-- `DOPERc:o:j:vsSh` -/
def optstring : List Char :=
  ['D', 'O', 'P', 'E', 'R', 'c', ':', 'o', ':', 'j', ':', 'v', 's', 'S', 'h']

/-- The global variables that options change. -/
structure Options where
  configuration : Word := ['a', 'l', 'l']
  optimizations : List Word := []
  /-- Behind `make` and the number of jobs. -/
  make : List Word := []
  underSudo : Bool := false
  optverbose : Nat := 0
  optshy : Nat := 0
deriving DecidableEq

def debug : Word := ['d', 'e', 'b', 'u', 'g']
def profile : Word := ['p', 'r', 'o', 'f', 'i', 'l', 'e']
def enlightened : Word := ['e', 'n', 'l', 'i', 'g', 'h', 't', 'e', 'n', 'e', 'd']
def release : Word := ['r', 'e', 'l', 'e', 'a', 's', 'e']

def levels : List Word :=
  [['O', '0'], ['O', '1'], ['O', '2'], ['O', '3'], ['O', 's'], ['O', 'f', 'a', 's', 't']]

/-- The branches of the `case`; `usage` exits with its argument. -/
def Options.take (globbing : Globbing) (options : Options) : OptionEvent → Except Nat Options
  | .invalid => .error 1
  | .option letter optarg =>
      let optarg := optarg.getD []
      match letter with
      | 'D' => .ok { options with optimizations := options.optimizations ++ [debug] }
      | 'O' => .ok { options with optimizations := options.optimizations ++ levels }
      | 'P' => .ok { options with optimizations := options.optimizations ++ [profile] }
      | 'E' => .ok { options with optimizations := options.optimizations ++ [enlightened] }
      | 'R' => .ok { options with optimizations := options.optimizations ++ [release] }
      | 'c' => .ok { options with configuration := optarg }
      | 'o' =>
          .ok { options with optimizations := options.optimizations ++ globbing.unquoted optarg }
      | 'j' =>
          .ok { options with make := options.make ++ globbing.unquoted ('-' :: 'j' :: optarg) }
      | 'v' => .ok { options with optverbose := options.optverbose + 1 }
      | 's' => .ok { options with optshy := options.optshy + 1 }
      | 'S' => .ok { options with underSudo := true }
      | 'h' => .error 0
      | _ => .error 1

/-- The loop over `getopts`, and the arguments behind the options. -/
def arguments (globbing : Globbing) (words : List Word) : Except Nat (Options × List Word) :=
  let (events, cmds) := Getopts.scan (optionKind optstring) none words
  (events.foldlM (Options.take globbing) {}).map fun options => (options, cmds)

/-- Decimal digits as the character has them. -/
def digit (c : Char) : Option (Fin 10) :=
  if h : '0' ≤ c ∧ c ≤ '9' then some ⟨c.toNat - '0'.toNat, by
    have upper : c.toNat ≤ '9'.toNat := h.2
    have nine : '9'.toNat = '0'.toNat + 9 := rfl
    omega⟩ else none

def numeral (word : Word) : Option Numeral :=
  match word.mapM digit with
  | some (first :: rest) => some ⟨first :: rest, List.cons_ne_nil first rest⟩
  | _ => none

/-- The branches of the `case`. A word that starts with a digit and is no numeral has none here:
it goes where the numerals go, and `seq` and the arithmetic read it in notations of their own. -/
def command (word : Word) : Option Command :=
  match numeral word with
  | some numeral => some (.number numeral)
  | none =>
      if Pattern.accepts [.bracket [('0', '9')], .star] word then none
      else if word = ['l', 'i', 's', 't'] then some .list
      else if word = ['m', 'a', 'k', 'e'] then some (.chore .make)
      else if word = ['b', 'u', 'i', 'l', 'd'] then some (.chore .build)
      else if word = ['r', 'e', 'b', 'u', 'i', 'l', 'd'] then some (.chore .rebuild)
      else if word = ['a', 'f', 'k'] then some .afk
      else if word = ['s', 't', 'r', 'e', 's', 's'] then some .stress
      else if word = ['c', 'l', 'e', 'a', 'n'] then some (.chore .clean)
      else if word = ['r', 'e', 'a', 'l', 'c', 'l', 'e', 'a', 'n'] then some (.chore .realclean)
      else some (.unknown word)

/-- What the script finds on its system: the programs that `which` knows, what it finds out about
the kernel and the user, and what becomes of a command line with which it calls itself. -/
structure Host extends Globbing, Settings where
  which : Word → Bool
  /-- The arguments with which the script is started, or the status if it is not: no program has
  the first word for its name, or `sudo` refuses it. -/
  start : List Word → Except Nat (List Word)

def Options.settings (options : Options) (host : Host) : Settings :=
  { host.toSettings with optshy := options.optshy }

/-- `$Sudo` -/
def Options.sudo (options : Options) : List Word :=
  if options.underSudo then [['s', 'u', 'd', 'o']] else []

/-- `for x in $Sudo ${CC[0]} ${Make[0]}` -/
def Options.tools (options : Options) : List Word :=
  options.sudo ++ [['g', '+', '+'], ['m', 'a', 'k', 'e']]

/-- `for Cmd in ${Cmds[@]}` -/
def commandsOf (globbing : Globbing) (cmds : List Word) : Option (List Command) :=
  (cmds.flatMap globbing.unquoted).mapM command

/-- The commands, each with its outcomes. -/
def labelled (commands : List Command) (outcomes : Nat → Outcomes) : List (Command × Outcomes) :=
  commands.zipIdx.map fun (command, i) => (command, outcomes i)

/-- The status of the script; `outcomes` are those of its commands, in order. -/
def invoke (host : Host) (words : List Word) (outcomes : Nat → Outcomes) : Option Nat :=
  match arguments host.toGlobbing words with
  | .error status => some status
  | .ok (options, cmds) =>
      if options.tools.all host.which then
        (commandsOf host.toGlobbing cmds).map fun commands =>
          (Script.main (options.settings host) (labelled commands outcomes)).status
      else some 1

/-!
## The script called by itself
-/

/-- `jiva="$0 -DOER -s -c${Configuration:-all}"` -/
def jiva (zero configuration : List Char) : List Char :=
  zero ++ [' ', '-', 'D', 'O', 'E', 'R', ' ', '-', 's', ' ', '-', 'c'] ++
    if configuration = [] then ['a', 'l', 'l'] else configuration

/-- `$Sudo $jiva $fn` -/
def Options.callLine (options : Options) (globbing : Globbing) (zero : List Char) (fn : Nat) :
    List Word :=
  options.sudo ++ globbing.unquoted (jiva zero options.configuration) ++
    globbing.unquoted (Nat.toDigits 10 fn)

/-- The status of the call; `inner` is what the script that is called finds, and `outcomes` are
those of its commands. -/
def child (host inner : Host) (options : Options) (zero : List Char) (fn : Nat)
    (outcomes : Nat → Outcomes) : Option Nat :=
  match host.start (options.callLine host.toGlobbing zero fn) with
  | .error status => some status
  | .ok words => invoke inner words outcomes

/-- The calls for the numbers in `fnno` have these statuses. -/
def Calls (host : Host) (inner : Nat → Host) (options : Options) (zero : List Char)
    (fnno : List Nat) (children : Nat → Nat → Outcomes) (outcomes : Outcomes) : Prop :=
  ∀ i < fnno.length,
    child host (inner i) options zero (fnno.getD i 0) (children i) = some (outcomes.jiva i)

end Libpreempt.TestMatrix
