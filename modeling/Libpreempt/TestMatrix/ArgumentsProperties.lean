import Libpreempt.TestMatrix.Arguments

/-! Which arguments the script accepts and what they mean, and the status of the
script called with numbers, by itself or by a user. -/

set_option autoImplicit false

namespace Libpreempt.TestMatrix

open Libpreempt.Shell

/-!
## Options
-/

/-- The variables behind the options, whatever their order is between the letters. -/
def Options.behind (globbing : Globbing) (options : List (Char × Option Word)) : Options where
  configuration :=
    ((options.filter (·.1 = 'c')).getLast?.map fun option => option.2.getD []).getD ['a', 'l', 'l']
  optimizations := options.flatMap fun option =>
    match option.1 with
    | 'D' => [debug]
    | 'O' => levels
    | 'P' => [profile]
    | 'E' => [enlightened]
    | 'R' => [release]
    | 'o' => globbing.unquoted (option.2.getD [])
    | _ => []
  make := (options.filter (·.1 = 'j')).flatMap fun option =>
    globbing.unquoted ('-' :: 'j' :: option.2.getD [])
  underSudo := options.any (·.1 = 'S')
  optverbose := options.countP (·.1 = 'v')
  optshy := options.countP (·.1 = 's')

theorem kind_dash : optionKind optstring '-' = none := by decide

/-- The letters of the options other than `-h`. -/
def letters : List Char := ['D', 'O', 'P', 'E', 'R', 'c', 'o', 'j', 'v', 's', 'S']

theorem mem_letters_of_kind {c : Char} (known : optionKind optstring c ≠ none) (other : c ≠ 'h') :
    c ∈ letters := by
  by_contra outside
  simp only [letters, List.mem_cons, List.not_mem_nil, or_false, not_or] at outside
  apply known
  simp only [optstring, optionKind]
  grind

theorem take_of_letter (globbing : Globbing) (options : Options) {option : Char × Option Word}
    (member : option.1 ∈ letters) :
    ∃ next, options.take globbing (Getopts.read option) = .ok next := by
  obtain ⟨letter, optarg⟩ := option
  simp only [letters, List.mem_cons, List.not_mem_nil, or_false] at member
  rcases member with rfl | rfl | rfl | rfl | rfl | rfl | rfl | rfl | rfl | rfl | rfl <;>
    exact ⟨_, rfl⟩

theorem letter_of_take {globbing : Globbing} {options next : Options} {event : OptionEvent}
    (taken : options.take globbing event = .ok next) :
    ∃ option, event = Getopts.read option ∧ option.1 ≠ 'h' := by
  cases event with
  | invalid => cases taken
  | option letter optarg =>
      refine ⟨(letter, optarg), rfl, ?_⟩
      rintro rfl
      cases taken

theorem behind_snoc (globbing : Globbing) (options : List (Char × Option Word))
    {option : Char × Option Word} (member : option.1 ∈ letters) :
    (Options.behind globbing options).take globbing (Getopts.read option) =
      .ok (Options.behind globbing (options ++ [option])) := by
  obtain ⟨letter, optarg⟩ := option
  simp only [letters, List.mem_cons, List.not_mem_nil, or_false] at member
  rcases member with rfl | rfl | rfl | rfl | rfl | rfl | rfl | rfl | rfl | rfl | rfl <;>
    simp [Options.take, Getopts.read, Options.behind, List.filter_append]

theorem foldlM_take (globbing : Globbing) {options : List (Char × Option Word)}
    (members : ∀ option ∈ options, option.1 ∈ letters) :
    (options.map Getopts.read).foldlM (Options.take globbing) {} =
      .ok (Options.behind globbing options) := by
  induction options using List.reverseRecOn with
  | nil => rfl
  | append_singleton options option ih =>
      have before := ih fun other member => members other (List.mem_append_left _ member)
      rw [List.map_append, List.foldlM_append, before]
      change (Options.behind globbing options).take globbing (Getopts.read option) >>= pure = _
      rw [behind_snoc globbing options (members option (by simp))]
      rfl

theorem read_of_foldlM {globbing : Globbing} {events : List OptionEvent} {options next : Options}
    (taken : events.foldlM (Options.take globbing) options = .ok next) :
    ∃ spelled : List (Char × Option Word),
      events = spelled.map Getopts.read ∧ ∀ option ∈ spelled, option.1 ≠ 'h' := by
  induction events generalizing options with
  | nil => exact ⟨[], rfl, fun _ member => absurd member List.not_mem_nil⟩
  | cons event events ih =>
      rw [List.foldlM_cons] at taken
      cases first : options.take globbing event with
      | error status =>
          rw [first] at taken
          cases taken
      | ok middle =>
          rw [first] at taken
          obtain ⟨option, rfl, other⟩ := letter_of_take first
          obtain ⟨spelled, rfl, others⟩ := ih taken
          exact ⟨option :: spelled, rfl, List.forall_mem_cons.mpr ⟨other, others⟩⟩

theorem accepts_of_arguments {globbing : Globbing} {words cmds : List Word} {options : Options}
    (accepted : arguments globbing words = .ok (options, cmds)) :
    ∃ spelled, Getopts.Accepts (optionKind optstring) words spelled cmds ∧
      (∀ option ∈ spelled, option.1 ≠ 'h') ∧ options = Options.behind globbing spelled := by
  simp only [arguments] at accepted
  cases taken : (Getopts.scan (optionKind optstring) none words).1.foldlM
      (Options.take globbing) {} with
  | error status =>
      rw [taken] at accepted
      cases accepted
  | ok next =>
      rw [taken] at accepted
      cases accepted
      obtain ⟨spelled, events, others⟩ := read_of_foldlM taken
      have scanned : Getopts.scan (optionKind optstring) none words =
          (spelled.map Getopts.read, _) := Prod.ext events rfl
      have accepts := (Getopts.scan_eq_iff kind_dash).mp scanned
      refine ⟨spelled, accepts, others, ?_⟩
      obtain ⟨_, _, _, spells, _⟩ := accepts
      rw [events, foldlM_take globbing fun option member =>
        mem_letters_of_kind (spells.known member) (others option member)] at taken
      exact (Except.ok.inj taken).symm

theorem arguments_of_accepts (globbing : Globbing) {words cmds : List Word}
    {spelled : List (Char × Option Word)}
    (accepts : Getopts.Accepts (optionKind optstring) words spelled cmds)
    (others : ∀ option ∈ spelled, option.1 ≠ 'h') :
    arguments globbing words = .ok (Options.behind globbing spelled, cmds) := by
  have scanned := (Getopts.scan_eq_iff kind_dash).mpr accepts
  obtain ⟨_, _, _, spells, _⟩ := accepts
  simp only [arguments, scanned]
  rw [foldlM_take globbing fun option member =>
    mem_letters_of_kind (spells.known member) (others option member)]
  rfl

/-- The script accepts the command lines of known options without `-h`, and what it makes of the
options does not depend on how they are spelled. -/
theorem arguments_ok_iff (globbing : Globbing) (words : List Word) (options : Options)
    (cmds : List Word) :
    arguments globbing words = .ok (options, cmds) ↔
      ∃ spelled, Getopts.Accepts (optionKind optstring) words spelled cmds ∧
        (∀ option ∈ spelled, option.1 ≠ 'h') ∧ options = Options.behind globbing spelled := by
  constructor
  · exact accepts_of_arguments
  · rintro ⟨spelled, accepts, others, rfl⟩
    exact arguments_of_accepts globbing accepts others

/-!
## Command lines that are refused
-/

theorem event_of_foldlM {globbing : Globbing} {events : List OptionEvent} {options : Options}
    {status : Nat} (refused : events.foldlM (Options.take globbing) options = .error status) :
    ∃ (spelled : List (Char × Option Word)) (event : OptionEvent) (rest : List OptionEvent)
      (before : Options), events = spelled.map Getopts.read ++ event :: rest ∧
        (∀ option ∈ spelled, option.1 ≠ 'h') ∧ before.take globbing event = .error status := by
  induction events generalizing options with
  | nil => cases refused
  | cons event events ih =>
      rw [List.foldlM_cons] at refused
      cases first : options.take globbing event with
      | error other =>
          rw [first] at refused
          cases refused
          exact ⟨[], event, events, options, rfl, by simp, first⟩
      | ok middle =>
          rw [first] at refused
          obtain ⟨option, rfl, other⟩ := letter_of_take first
          obtain ⟨spelled, event, rest, before, rfl, others, last⟩ := ih refused
          exact ⟨option :: spelled, event, rest, before, rfl,
            List.forall_mem_cons.mpr ⟨other, others⟩, last⟩

theorem arguments_of_event {globbing : Globbing} {words : List Word}
    {options : List (Char × Option Word)} {c : Char} {more : List Char} {later : List Word}
    (reaches : Getopts.Reaches (optionKind optstring) words options c more later)
    (others : ∀ option ∈ options, option.1 ≠ 'h') {status : Nat}
    (refused : ∀ before : Options, before.take globbing
      (Getopts.heard (optionKind optstring) c more later) = .error status) :
    arguments globbing words = .error status := by
  obtain ⟨rest, events⟩ := Getopts.events_of_reaches kind_dash reaches
  simp only [arguments, events, List.foldlM_append]
  rw [foldlM_take globbing fun option member =>
    mem_letters_of_kind (reaches.known member) (others option member)]
  change Except.map _ (List.foldlM _ _ (_ :: rest)) = _
  rw [List.foldlM_cons, refused]
  rfl

/-- The script refuses the command lines in which it comes, behind known options, to `-h` or to a
letter that it cannot read, and exits with 0 or with 1. -/
theorem arguments_error_iff (globbing : Globbing) (words : List Word) (status : Nat) :
    arguments globbing words = .error status ↔
      ∃ options c more later,
        Getopts.Reaches (optionKind optstring) words options c more later ∧
        (∀ option ∈ options, option.1 ≠ 'h') ∧
        (c = 'h' ∧ status = 0 ∨
          (optionKind optstring c = none ∨
            optionKind optstring c = some true ∧ more = [] ∧ later = []) ∧ status = 1) := by
  constructor
  · intro refused
    simp only [arguments] at refused
    cases taken : (Getopts.scan (optionKind optstring) none words).1.foldlM
        (Options.take globbing) {} with
    | ok next =>
        rw [taken] at refused
        cases refused
    | error other =>
        rw [taken] at refused
        cases refused
        obtain ⟨spelled, event, rest, before, events, others, last⟩ := event_of_foldlM taken
        obtain ⟨c, more, later, reaches, reads⟩ :=
          (Getopts.event_iff_reaches kind_dash).mp ⟨rest, events⟩
        refine ⟨spelled, c, more, later, reaches, others, ?_⟩
        cases event with
        | invalid =>
            cases last
            exact .inr ⟨(Getopts.heard_invalid_iff more later).mp reads, rfl⟩
        | option letter argument =>
            obtain ⟨rfl, known⟩ := Getopts.letter_of_heard more later reads
            by_cases help : letter = 'h'
            · subst help
              cases last
              exact .inl ⟨rfl, rfl⟩
            · have member : (letter, argument).1 ∈ letters := mem_letters_of_kind known help
              obtain ⟨next, fine⟩ := take_of_letter globbing before member
              cases fine.symm.trans last
  · rintro ⟨options, c, more, later, reaches, others, ⟨rfl, rfl⟩ | ⟨unreadable, rfl⟩⟩
    · apply arguments_of_event reaches others
      intro before
      rw [Getopts.heard_flag more later (show optionKind optstring 'h' = some false by decide)]
      rfl
    · apply arguments_of_event reaches others
      intro before
      rw [(Getopts.heard_invalid_iff more later).mpr unreadable]
      rfl

end Libpreempt.TestMatrix
