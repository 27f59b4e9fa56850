import Libpreempt.TestMatrix.ArgumentsProperties
import Libpreempt.TestMatrix.ExitStatus
import Libpreempt.TestMatrix.TargetsProperties

/-! The status of the script called by a user, and by itself for `stress` and
`afk`. -/

set_option autoImplicit false

namespace Libpreempt.TestMatrix

open Libpreempt.Shell

/-!
## Words of digits
-/

theorem digit_digitChar {n : Nat} (below : n < 10) : digit n.digitChar = some ⟨n, below⟩ := by
  have each : ∀ d : Fin 10, digit d.val.digitChar = some d := by decide
  exact each ⟨n, below⟩

/-- The digits of a number are read back as they stand, the first of which is no zero unless it
is the only one. -/
theorem mapM_digit_toDigits (n : Nat) :
    ∃ digits, (Nat.toDigits 10 n).mapM digit = some digits ∧ digits ≠ [] ∧
      positional 10 digits = n ∧ ∀ second rest, digits ≠ 0 :: second :: rest := by
  induction n using Nat.strongRecOn with
  | ind n ih =>
      by_cases below : n < 10
      · rw [Nat.toDigits_of_lt_base below]
        refine ⟨[⟨n, below⟩], ?_, List.cons_ne_nil _ _, ?_, ?_⟩
        · rw [List.mapM_cons, digit_digitChar below]
          rfl
        · exact Nat.zero_add n
        · simp
      · obtain ⟨digits, read, nonempty, value, leading⟩ := ih (n / 10) (by omega)
        have last : n % 10 < 10 := Nat.mod_lt n (by decide)
        rw [Nat.toDigits_of_base_le (by decide) (by omega)]
        refine ⟨digits ++ [⟨n % 10, last⟩], ?_, by simp, ?_, ?_⟩
        · rw [List.mapM_append, read, List.mapM_cons, digit_digitChar last]
          rfl
        · rw [positional, List.foldl_append, ← positional, value]
          simp only [List.foldl_cons, List.foldl_nil]
          omega
        · intro second rest same
          cases digits with
          | nil => exact nonempty rfl
          | cons first digits =>
              obtain ⟨rfl, others⟩ := List.cons.inj same
              cases digits with
              | nil =>
                  have zero : n / 10 = 0 := value.symm.trans rfl
                  omega
              | cons second digits => exact leading second digits rfl

/-- The word that the shell makes of a number. -/
theorem numeral_toDigits (n : Nat) :
    ∃ word, numeral (Nat.toDigits 10 n) = some word ∧ word.decimal = n ∧ Numeral.Plain word := by
  obtain ⟨digits, read, nonempty, value, leading⟩ := mapM_digit_toDigits n
  cases digits with
  | nil => exact absurd rfl nonempty
  | cons first rest =>
      refine ⟨⟨first :: rest, nonempty⟩, by rw [numeral, read], value, ?_⟩
      rw [Numeral.Plain, Numeral.arithmetic]
      split
      · next second rest shape => exact absurd shape (leading second rest)
      · rw [wrapped_eq]
        rfl

theorem plain_of_digit {c : Char} {value : Fin 10} (read : digit c = some value) :
    blank c = false ∧ special c = false := by
  rw [digit] at read
  split at read
  · next bounds =>
      have other : ∀ d : Char, ¬ ('0' ≤ d ∧ d ≤ '9') → (c == d) = false := by
        intro d outside
        rw [beq_eq_false_iff_ne]
        rintro rfl
        exact outside bounds
      simp [blank, special, other ' ' (by decide), other '\t' (by decide), other '\n' (by decide),
        other '*' (by decide), other '?' (by decide), other '[' (by decide),
        other '\\' (by decide)]
  · cases read

theorem plain_of_mapM_digit {word : Word} {digits : List (Fin 10)}
    (read : word.mapM digit = some digits) : ∀ c ∈ word, blank c = false ∧ special c = false := by
  induction word generalizing digits with
  | nil => simp
  | cons first word ih =>
      rw [List.mapM_cons] at read
      cases known : digit first with
      | none =>
          rw [known] at read
          cases read
      | some value =>
          cases rest : word.mapM digit with
          | none =>
              rw [known, rest] at read
              cases read
          | some values =>
              intro c member
              rcases List.mem_cons.mp member with rfl | later
              · exact plain_of_digit known
              · exact ih rest c later

theorem keeps_of_numeral (globbing : Globbing) {word : Word} {value : Numeral}
    (read : numeral word = some value) : globbing.Keeps word := by
  rw [numeral] at read
  split at read
  · next first rest digits =>
      have plain := plain_of_mapM_digit digits
      refine Globbing.keeps_of_plain ?_ (fun c inside => (plain c inside).1)
        fun c inside => (plain c inside).2
      rintro rfl
      cases digits
  · cases read

theorem command_of_numeral {word : Word} {value : Numeral} (read : numeral word = some value) :
    command word = some (.number value) := by
  rw [command, read]

/-!
## Called by a user
-/

theorem invoke_eq {host : Host} {words cmds : List Word} {options : Options}
    {commands : List Command} (accepted : arguments host.toGlobbing words = .ok (options, cmds))
    (ready : options.tools.all host.which = true)
    (known : commandsOf host.toGlobbing cmds = some commands) (outcomes : Nat → Outcomes) :
    invoke host words outcomes =
      some (Script.main (options.settings host) (labelled commands outcomes)).status := by
  simp only [invoke, accepted, ready, known, if_true, Option.map_some]

theorem commandsOf_singleton {globbing : Globbing} {cmd : Word} {command : Command}
    (kept : globbing.unquoted cmd = [cmd]) (known : TestMatrix.command cmd = some command) :
    commandsOf globbing [cmd] = some [command] := by
  simp [commandsOf, kept, known]

theorem labelled_singleton (command : Command) (outcomes : Nat → Outcomes) :
    labelled [command] outcomes = [(command, outcomes 0)] := rfl

/-- The script exits with the status of the first command that fails; if none does, with 0 or 1 as
enough of all runs are good. -/
theorem invoke_status (host : Host) {words cmds : List Word} {options : Options}
    {commands : List Command} (accepted : arguments host.toGlobbing words = .ok (options, cmds))
    (ready : options.tools.all host.which = true)
    (known : commandsOf host.toGlobbing cmds = some commands) (outcomes : Nat → Outcomes)
    (plain : ∀ number ∈ numbersOf (labelled commands outcomes), Numeral.Plain number.1)
    (room : askedRuns (numbersOf (labelled commands outcomes)) < 2 ^ 63) :
    invoke host words outcomes =
      some (((labelled commands outcomes).findSome? fun command =>
        command.1.failure (options.settings host) command.2).getD
        (if Enough host.relaxes (numbersOf (labelled commands outcomes)) then 0 else 1)) := by
  rw [invoke_eq accepted ready known, main_status _ plain room]
  rfl

/-- No file matches a pattern, every program is there, and the script, called `t`, is found. -/
def Host.unmatched : Host where
  toGlobbing := Programs.unmatched.toGlobbing
  which _ := true
  start
    | ['s', 'u', 'd', 'o'] :: ['t'] :: words => .ok words
    | ['t'] :: words => .ok words
    | _ => .error 127

/-- What `rm` returns is lost, and 19 of 20 runs are enough. -/
theorem invoke_status_clean :
    invoke .unmatched [['-', 'c', 'x'], ['c', 'l', 'e', 'a', 'n'], ['1', '0']]
      (fun i => if i = 0 then { rm := 1 } else
        { targets := [⟨true, fun _ => 0⟩, ⟨true, fun i => if i = 3 then 1 else 0⟩] }) = some 0 :=
  (invoke_status .unmatched
    (show arguments _ _ = .ok ({ configuration := ['x'] }, [['c', 'l', 'e', 'a', 'n'], ['1', '0']])
      from rfl) rfl
    (show commandsOf _ _ = some [.chore .clean, .number ⟨[1, 0], by decide⟩] from by decide) _
    (by decide) (by decide)).trans (by decide)

/-!
## Called by itself
-/

/-- What a run of the script for one number needs to succeed. -/
def Passes (settings : Settings) (fn : Nat) (outcomes : Outcomes) : Prop :=
  let runs := outcomes.targets.length * fn
  let good := (outcomes.targets.flatMap (Target.codes fn)).count 0
  outcomes.Built ∧ if settings.relaxes then 19 * runs ≤ 20 * good else good = runs

/-- A text that stays one word. -/
def Plain (text : List Char) : Prop := text.all (fun c => !blank c && !special c) = true

instance (text : List Char) : Decidable (Plain text) := inferInstanceAs (Decidable (_ = _))

theorem plain_iff {text : List Char} :
    Plain text ↔ ∀ c ∈ text, blank c = false ∧ special c = false := by
  simp [Plain]

def configured (configuration : List Char) : Word :=
  if configuration = [] then ['a', 'l', 'l'] else configuration

theorem configured_ne_nil (configuration : List Char) : configured configuration ≠ [] := by
  rw [configured]
  split
  · exact List.cons_ne_nil _ _
  · assumption

theorem plain_configured {configuration : List Char} (plain : Plain configuration) :
    Plain (configured configuration) := by
  rw [configured]
  split
  · decide
  · exact plain

theorem splitWords_of_plain {word : Word} (nonempty : word ≠ []) (plain : Plain word) :
    splitWords word = [word] :=
  splitWords_of_unblank nonempty fun c inside => (plain_iff.mp plain c inside).1

theorem jiva_words (globbing : Globbing) {zero configuration : List Char} (named : zero ≠ [])
    (plainZero : Plain zero) (plain : Plain configuration) :
    globbing.unquoted (jiva zero configuration) =
      [zero, ['-', 'D', 'O', 'E', 'R'], ['-', 's'], '-' :: 'c' :: configured configuration] := by
  have shape : jiva zero configuration =
      zero ++ ' ' :: (['-', 'D', 'O', 'E', 'R'] ++ ' ' ::
        (['-', 's'] ++ ' ' :: ('-' :: 'c' :: configured configuration))) := by
    simp [jiva, configured]
  have last : Plain ('-' :: 'c' :: configured configuration) := plain_configured plain
  have fixed : ['-', 'D', 'O', 'E', 'R', '-', 's', ' '].any special = false := rfl
  have unspecial : ∀ c ∈ jiva zero configuration, special c = false := by
    rw [shape]
    intro c member
    have inside : c ∈ zero ∨ c ∈ ['-', 'D', 'O', 'E', 'R', '-', 's', ' '] ∨
        c ∈ '-' :: 'c' :: configured configuration := by
      simp only [List.mem_append, List.mem_cons, List.not_mem_nil, or_false] at member ⊢
      grind
    rcases inside with first | middle | behind
    · exact (plain_iff.mp plainZero c first).2
    · exact Bool.not_eq_true _ ▸ List.any_eq_false.mp fixed c middle
    · exact (plain_iff.mp last c behind).2
  rw [Globbing.unquoted_of_plain unspecial, shape, splitWords_append rfl, splitWords_append rfl,
    splitWords_append rfl, splitWords_of_plain named plainZero,
    splitWords_of_plain (List.cons_ne_nil _ _) (by decide),
    splitWords_of_plain (List.cons_ne_nil _ _) (by decide),
    splitWords_of_plain (List.cons_ne_nil _ _) last]
  rfl

/-- What the script finds in the arguments that it gives to itself. -/
def nestedOptions (configuration : List Char) : Options where
  configuration := configured configuration
  optimizations := [debug] ++ levels ++ [enlightened, release]
  optshy := 1

theorem not_dashed_of_numeral {cmd : Word} {number : Numeral} (read : numeral cmd = some number) :
    ∀ c cs, cmd ≠ '-' :: c :: cs := by
  rintro c cs rfl
  have dash : digit '-' = none := by decide
  rw [numeral, List.mapM_cons, dash] at read
  cases read

theorem arguments_child (globbing : Globbing) (configuration : List Char) {cmd : Word}
    {number : Numeral} (read : numeral cmd = some number) :
    arguments globbing
        [['-', 'D', 'O', 'E', 'R'], ['-', 's'], '-' :: 'c' :: configured configuration, cmd] =
      .ok (nestedOptions configuration, [cmd]) := by
  have flags : Getopts.Cluster (optionKind optstring)
      [('D', none), ('O', none), ('E', none), ('R', none)] ['D', 'O', 'E', 'R'] [] :=
    .flags rfl (.flags rfl (.flags rfl (.flag rfl)))
  have shy : Getopts.Cluster (optionKind optstring) [('s', none)] ['s'] [] := .flag rfl
  have named : Getopts.Cluster (optionKind optstring) [('c', some (configured configuration))]
      ('c' :: configured configuration) [] := .attached rfl (configured_ne_nil configuration)
  refine (arguments_of_accepts globbing ⟨_, [cmd], rfl,
    .cluster flags (.cluster shy (.cluster named .nil)),
    .operand [] (not_dashed_of_numeral read)⟩ ?_).trans rfl
  simp

/-- The arguments with which the script calls itself, if it can be started under its name. -/
theorem start_callLine {host : Host} {options : Options} {zero : List Char} (named : zero ≠ [])
    (plainZero : Plain zero) (plain : Plain options.configuration)
    (starts : ∀ words, host.start (options.sudo ++ zero :: words) = .ok words) (fn : Nat) :
    host.start (options.callLine host.toGlobbing zero fn) =
      .ok [['-', 'D', 'O', 'E', 'R'], ['-', 's'], '-' :: 'c' :: configured options.configuration,
        Nat.toDigits 10 fn] := by
  obtain ⟨number, read, _, _⟩ := numeral_toDigits fn
  rw [Options.callLine, jiva_words host.toGlobbing named plainZero plain,
    (keeps_of_numeral host.toGlobbing read).unquoted, List.append_assoc]
  exact starts _

theorem child_eq {host inner : Host} {options : Options} {zero : List Char} (named : zero ≠ [])
    (plainZero : Plain zero) (plain : Plain options.configuration)
    (starts : ∀ words, host.start (options.sudo ++ zero :: words) = .ok words)
    (ready : inner.which ['g', '+', '+'] = true ∧ inner.which ['m', 'a', 'k', 'e'] = true) (fn : Nat)
    (outcomes : Nat → Outcomes) :
    ∃ number, number.decimal = fn ∧ Numeral.Plain number ∧
      child host inner options zero fn outcomes =
        some (Script.main { inner.toSettings with optshy := 1 }
          [(.number number, outcomes 0)]).status := by
  obtain ⟨number, read, decimal, same⟩ := numeral_toDigits fn
  refine ⟨number, decimal, same, ?_⟩
  have tools : ∀ options : Options, options.underSudo = false →
      options.tools.all inner.which = true := by
    intro options plainUser
    simp [Options.tools, Options.sudo, plainUser, ready]
  have kept := (keeps_of_numeral inner.toGlobbing read).unquoted
  rw [child, start_callLine named plainZero plain starts]
  refine (invoke_eq (arguments_child inner.toGlobbing options.configuration read) (tools _ rfl)
    (commandsOf_singleton kept (command_of_numeral read)) _).trans ?_
  rw [labelled_singleton]
  rfl

theorem child_status_iff {host inner : Host} {options : Options} {zero : List Char}
    (named : zero ≠ []) (plainZero : Plain zero) (plain : Plain options.configuration)
    (starts : ∀ words, host.start (options.sudo ++ zero :: words) = .ok words)
    (ready : inner.which ['g', '+', '+'] = true ∧ inner.which ['m', 'a', 'k', 'e'] = true) {fn : Nat}
    {outcomes : Nat → Outcomes} (room : (outcomes 0).targets.length * fn < 2 ^ 63) :
    child host inner options zero fn outcomes = some 0 ↔
      Passes inner.toSettings fn (outcomes 0) := by
  obtain ⟨number, rfl, same, status⟩ := child_eq named plainZero plain starts ready fn outcomes
  generalize outcomes 0 = outcomes at *
  have asked : askedRuns [(number, outcomes)] = outcomes.targets.length * number.decimal := by
    simp [askedRuns]
  have good : goodRuns [(number, outcomes)] =
      (outcomes.targets.flatMap (Target.codes number.decimal)).count 0 := by
    simp [goodRuns]
  rw [status, Option.some.injEq, main_status _ (by simpa [numbersOf] using same) (asked ▸ room),
    Passes]
  by_cases built : outcomes.Built
  · have fine : Command.failure { inner.toSettings with optshy := 1 } outcomes (.number number) =
        none := by
      simp [Command.failure, built.1, built.2.1, built.2.2]
    simp [fine, numbersOf, built, Enough, asked, good, Settings.relaxes]
  · refine iff_of_false ?_ fun passes => built passes.1
    by_cases unmade : outcomes.mkdir ≠ 0 ∨ outcomes.make ≠ 0
    · simp [Command.failure, if_pos unmade]
    · have outside : outcomes.pushd ≠ 0 := by
        rw [not_or, not_not, not_not] at unmade
        exact fun inside => built ⟨unmade.1, unmade.2, inside⟩
      simp [Command.failure, if_neg unmade, outside]

/-- A command that calls the script for each number succeeds if all of these calls do. -/
theorem series_status (settings : Settings) {command : Command} {fnno : List Nat}
    {outcomes : Outcomes} (other : numbersOf [(command, outcomes)] = [])
    (series : command.failure settings outcomes = seriesFailure fnno outcomes) :
    (Script.main settings [(command, outcomes)]).status = 0 ↔
      ∀ i < fnno.length, outcomes.jiva i = 0 := by
  have enough : Enough settings.relaxes [] := by
    cases settings.relaxes with
    | false => rfl
    | true => exact Nat.le_refl 0
  rw [main_status settings (by simp [other]) (by simp [other, askedRuns])]
  rw [List.findSome?_singleton, series, other, if_pos enough, seriesFailure]
  split
  · next fine => exact iff_of_true rfl fine
  · next failing => exact iff_of_false Nat.one_ne_zero failing

/-- The commands that call the script, with their numbers. -/
def nesting : List (Word × List Nat) :=
  [(['s', 't', 'r', 'e', 's', 's'], Script.fnnoStress), (['a', 'f', 'k'], Script.fnnoAfk)]

/-- Where the script can start itself, `stress` and `afk` succeed when it succeeds for each of
their numbers. It takes the configuration from its caller, and with `-s` given once it counts bad
runs. -/
theorem nested_status_iff (host : Host) (inner : Nat → Host) {zero : List Char} {words : List Word}
    {cmd : Word} {fnno : List Nat} {options : Options} (nests : (cmd, fnno) ∈ nesting)
    (accepted : arguments host.toGlobbing words = .ok (options, [cmd]))
    (ready : options.tools.all host.which = true)
    (starts : ∀ words, host.start (options.sudo ++ zero :: words) = .ok words)
    (innerReady : ∀ i, (inner i).which ['g', '+', '+'] = true ∧
      (inner i).which ['m', 'a', 'k', 'e'] = true)
    (named : zero ≠ []) (plainZero : Plain zero) (plain : Plain options.configuration)
    (children : Nat → Nat → Outcomes) (outcomes : Nat → Outcomes)
    (calls : Calls host inner options zero fnno children (outcomes 0))
    (room : ∀ i < fnno.length, (children i 0).targets.length * fnno.getD i 0 < 2 ^ 63) :
    (∀ i, ∃ given, host.start (options.callLine host.toGlobbing zero (fnno.getD i 0)) = .ok given ∧
      arguments (inner i).toGlobbing given =
        .ok (nestedOptions options.configuration, [Nat.toDigits 10 (fnno.getD i 0)])) ∧
    (invoke host words outcomes = some 0 ↔
      ∀ i < fnno.length, Passes (inner i).toSettings (fnno.getD i 0) (children i 0)) := by
  refine ⟨fun i => ?_, ?_⟩
  · obtain ⟨number, read, _, _⟩ := numeral_toDigits (fnno.getD i 0)
    exact ⟨_, start_callLine named plainZero plain starts _,
      arguments_child (inner i).toGlobbing options.configuration read⟩
  · have performed : ∃ command, TestMatrix.command cmd = some command ∧
        host.unquoted cmd = [cmd] ∧
        ∀ (settings : Settings) (outcomes : Outcomes), numbersOf [(command, outcomes)] = [] ∧
          command.failure settings outcomes = seriesFailure fnno outcomes := by
      rcases List.mem_cons.mp nests with same | later
      · cases same
        refine ⟨.stress, by decide, ?_, fun _ _ => ⟨rfl, rfl⟩⟩
        exact (Globbing.keeps_of_all (List.cons_ne_nil _ _) (by decide)).unquoted
      · cases List.mem_singleton.mp later
        refine ⟨.afk, by decide, ?_, fun _ _ => ⟨rfl, rfl⟩⟩
        exact (Globbing.keeps_of_all (List.cons_ne_nil _ _) (by decide)).unquoted
    obtain ⟨command, known, kept, performs⟩ := performed
    obtain ⟨other, series⟩ := performs (options.settings host) (outcomes 0)
    rw [invoke_eq accepted ready (commandsOf_singleton kept known), labelled_singleton,
      Option.some.injEq, series_status _ other series]
    refine forall₂_congr fun i inside => ?_
    rw [← child_status_iff named plainZero plain starts (innerReady i) (room i inside),
      calls i inside, Option.some.injEq]

/-- Two tests that never fail. -/
def faultless : Outcomes where
  targets := [⟨true, fun _ => 0⟩, ⟨true, fun _ => 0⟩]

/-- The calls of `stress` for these, under `sudo`. -/
theorem nested_status_iff_stress :
    ∃ outcomes : Outcomes, Calls .unmatched (fun _ => .unmatched)
        { configuration := ['x'], underSudo := true } ['t'] Script.fnnoStress
        (fun _ _ => faultless) outcomes ∧
      invoke .unmatched [['-', 'S', 'c', 'x'], ['s', 't', 'r', 'e', 's', 's']]
        (fun _ => outcomes) = some 0 := by
  have starts : ∀ words, Host.unmatched.start
      (Options.sudo { configuration := ['x'], underSudo := true } ++ ['t'] :: words) = .ok words :=
    fun _ => rfl
  have calls : ∃ outcomes : Outcomes, Calls .unmatched (fun _ => .unmatched)
      { configuration := ['x'], underSudo := true } ['t'] Script.fnnoStress
      (fun _ _ => faultless) outcomes := by
    refine ⟨{ jiva := fun i => (child .unmatched .unmatched
      { configuration := ['x'], underSudo := true } ['t'] (Script.fnnoStress.getD i 0)
      (fun _ => faultless)).getD 0 }, fun i _ => ?_⟩
    obtain ⟨_, _, _, status⟩ := child_eq (List.cons_ne_nil _ _) (by decide) (by decide) starts
      (show Host.unmatched.which _ = true ∧ Host.unmatched.which _ = true from ⟨rfl, rfl⟩)
      (Script.fnnoStress.getD i 0) (fun _ => faultless)
    change _ = some (Option.getD (child _ _ _ _ _ _) 0)
    rw [status, Option.getD_some]
  obtain ⟨outcomes, calls⟩ := calls
  refine ⟨outcomes, calls, ((nested_status_iff .unmatched (fun _ => .unmatched)
    (List.mem_cons_self ..)
    (show arguments _ _ = .ok ({ configuration := ['x'], underSudo := true },
      [['s', 't', 'r', 'e', 's', 's']]) from rfl) rfl starts (fun _ => ⟨rfl, rfl⟩) (by decide)
    (by decide) (by decide) _ _ calls (by decide)).2).mpr ?_⟩
  have good : ∀ runs, (faultless.targets.flatMap (Target.codes runs)).count 0 = 2 * runs := by
    intro runs
    simp [faultless, Target.codes]
    omega
  intro i _
  rw [Passes, good]
  refine ⟨⟨rfl, rfl, rfl⟩, ?_⟩
  split
  · change 19 * (2 * _) ≤ 20 * (2 * _)
    omega
  · rfl

end Libpreempt.TestMatrix
