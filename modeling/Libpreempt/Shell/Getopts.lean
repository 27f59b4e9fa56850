import Libpreempt.Shell.Words

/-! The builtin `getopts` over the arguments of a script, called until it finds
no more options, and the command lines that it reads without complaint. -/

set_option autoImplicit false

namespace Libpreempt.Shell

/-- Whether a letter is an option, and whether it takes an argument. -/
def optionKind : List Char → Char → Option Bool
  | [], _ => none
  | letter :: rest, c =>
      if c = ':' then none
      else if letter = c then some (rest.head? = some ':')
      else optionKind rest c

/-- What one call sets the variable to: the letter, with `OPTARG`, or `?`. -/
inductive OptionEvent where
  | option (letter : Char) (argument : Option Word)
  | invalid
deriving DecidableEq, Repr

namespace Getopts

variable (kinds : Char → Option Bool)

/-- The letters of one word, and the letter that still wants the next word. -/
def cluster : List Char → List OptionEvent × Option Char
  | [] => ([], none)
  | c :: cs =>
      match kinds c with
      | none => let (events, wanting) := cluster cs; (.invalid :: events, wanting)
      | some false => let (events, wanting) := cluster cs; (.option c none :: events, wanting)
      | some true => if cs = [] then ([], some c) else ([.option c (some cs)], none)

/-- The words up to the first operand. An argument may be any word. -/
def scan : Option Char → List Word → List OptionEvent × List Word
  | none, [] => ([], [])
  | some _, [] => ([.invalid], [])
  | some c, word :: words =>
      let (events, operands) := scan none words
      (.option c (some word) :: events, operands)
  | none, word :: words =>
      match word with
      | ['-', '-'] => ([], words)
      | '-' :: c :: cs =>
          let (events, wanting) := cluster kinds (c :: cs)
          let (later, operands) := scan wanting words
          (events ++ later, operands)
      | _ => ([], word :: words)

/-!
## Command lines
-/

/-- The options that the letters of one word stand for, with the word behind it. -/
inductive Cluster : List (Char × Option Word) → List Char → List Word → Prop where
  | flag {c : Char} : kinds c = some false → Cluster [(c, none)] [c] []
  | flags {c : Char} {options : List (Char × Option Word)} {cs : List Char} {words : List Word} :
      kinds c = some false → Cluster options cs words →
      Cluster ((c, none) :: options) (c :: cs) words
  | attached {c : Char} {argument : Word} : kinds c = some true → argument ≠ [] →
      Cluster [(c, some argument)] (c :: argument) []
  | detached {c : Char} {argument : Word} : kinds c = some true →
      Cluster [(c, some argument)] [c] [argument]

inductive Spells : List (Char × Option Word) → List Word → Prop where
  | nil : Spells [] []
  | cluster {first rest : List (Char × Option Word)} {cs : List Char} {words later : List Word} :
      Cluster kinds first cs words → Spells rest later →
      Spells (first ++ rest) (('-' :: cs) :: (words ++ later))

/-- What stands behind the options, and the operands in it. -/
inductive Ends : List Word → List Word → Prop where
  | nil : Ends [] []
  | terminator (operands : List Word) : Ends (['-', '-'] :: operands) operands
  | operand {word : Word} (words : List Word) :
      (∀ c cs, word ≠ '-' :: c :: cs) → Ends (word :: words) (word :: words)

def Accepts (words : List Word) (options : List (Char × Option Word)) (operands : List Word) :
    Prop :=
  ∃ spelled tail, words = spelled ++ tail ∧ Spells kinds options spelled ∧ Ends tail operands

def read (option : Char × Option Word) : OptionEvent := .option option.1 option.2

/-!
## What is read is what is spelled
-/

variable {kinds}

theorem read_injective : Function.Injective read := by
  rintro ⟨letter, argument⟩ ⟨other, otherArgument⟩ same
  cases same
  rfl

theorem map_read_injective {options others : List (Char × Option Word)}
    (same : options.map read = others.map read) : options = others :=
  List.map_injective_iff.mpr read_injective same

theorem Cluster.ne_nil {options : List (Char × Option Word)} {cs : List Char} {words : List Word}
    (spelled : Cluster kinds options cs words) : cs ≠ [] := by
  cases spelled <;> exact List.cons_ne_nil _ _

theorem Cluster.ne_dash (unknown : kinds '-' = none) {options : List (Char × Option Word)}
    {cs : List Char} {words : List Word} (spelled : Cluster kinds options cs words) :
    cs ≠ ['-'] := by
  rintro rfl
  cases spelled with
  | flag known => cases unknown.symm.trans known
  | flags known rest => exact rest.ne_nil rfl
  | attached known some => exact some rfl
  | detached known => cases unknown.symm.trans known

theorem Cluster.known {options : List (Char × Option Word)} {cs : List Char} {words : List Word}
    (spelled : Cluster kinds options cs words) {option : Char × Option Word}
    (member : option ∈ options) : kinds option.1 ≠ none := by
  induction spelled with
  | flag known =>
      cases List.mem_singleton.mp member
      simp [known]
  | flags known _ ih =>
      rcases List.mem_cons.mp member with rfl | later
      · simp [known]
      · exact ih later
  | attached known =>
      cases List.mem_singleton.mp member
      simp [known]
  | detached known =>
      cases List.mem_singleton.mp member
      simp [known]

theorem Spells.known {options : List (Char × Option Word)} {spelled : List Word}
    (spells : Spells kinds options spelled) {option : Char × Option Word}
    (member : option ∈ options) : kinds option.1 ≠ none := by
  induction spells with
  | nil => cases member
  | cluster first _ ih =>
      rcases List.mem_append.mp member with inside | later
      · exact first.known inside
      · exact ih later

theorem scan_cluster {cs : List Char} (nonempty : cs ≠ []) (other : cs ≠ ['-']) (words : List Word) :
    scan kinds none (('-' :: cs) :: words) =
      ((cluster kinds cs).1 ++ (scan kinds (cluster kinds cs).2 words).1,
        (scan kinds (cluster kinds cs).2 words).2) := by
  cases cs with
  | nil => exact absurd rfl nonempty
  | cons c cs =>
      rw [scan]
      rintro rfl rfl
      exact other rfl

theorem scan_wanting (c : Char) (word : Word) (words : List Word) :
    scan kinds (some c) (word :: words) =
      (read (c, some word) :: (scan kinds none words).1, (scan kinds none words).2) := rfl

theorem scan_ends {tail operands : List Word} (ends : Ends tail operands) :
    scan kinds none tail = ([], operands) := by
  cases ends with
  | nil => rfl
  | terminator operands => rfl
  | operand words other =>
      rw [scan]
      · intro same
        exact other _ _ same
      · exact other

theorem cluster_flag {c : Char} (known : kinds c = some false) (cs : List Char) :
    cluster kinds (c :: cs) = (read (c, none) :: (cluster kinds cs).1, (cluster kinds cs).2) := by
  rw [cluster, known]
  rfl

theorem scan_of_cluster {options : List (Char × Option Word)} {cs : List Char} {words : List Word}
    (spelled : Cluster kinds options cs words) (later : List Word) :
    (cluster kinds cs).1 ++ (scan kinds (cluster kinds cs).2 (words ++ later)).1 =
        options.map read ++ (scan kinds none later).1 ∧
      (scan kinds (cluster kinds cs).2 (words ++ later)).2 = (scan kinds none later).2 := by
  induction spelled with
  | flag known =>
      rw [cluster_flag known]
      exact ⟨rfl, rfl⟩
  | flags known _ ih =>
      rw [cluster_flag known]
      exact ⟨congrArg (_ :: ·) ih.1, ih.2⟩
  | attached known some =>
      rw [cluster, known]
      simp only [if_neg some]
      exact ⟨rfl, rfl⟩
  | detached known =>
      rw [cluster, known]
      exact ⟨rfl, rfl⟩

theorem scan_of_spells (unknown : kinds '-' = none) {options : List (Char × Option Word)}
    {spelled : List Word} (spells : Spells kinds options spelled) {tail operands : List Word}
    (ends : Ends tail operands) :
    scan kinds none (spelled ++ tail) = (options.map read, operands) := by
  induction spells with
  | nil => exact scan_ends ends
  | cluster first _ ih =>
      obtain ⟨events, rest⟩ := scan_of_cluster first (_ ++ tail)
      rw [List.cons_append, List.append_assoc, scan_cluster first.ne_nil (first.ne_dash unknown),
        events, rest, ih, List.map_append]

variable (kinds) in
/-- The options of a word of which the last may still want its argument. -/
def Continues (options : List (Char × Option Word)) (cs : List Char) : Option Char → Prop
  | none => Cluster kinds options cs []
  | some letter => ∀ argument, Cluster kinds (options ++ [(letter, some argument)]) cs [argument]

theorem continues_of_read {options : List (Char × Option Word)} {cs : List Char}
    (nonempty : cs ≠ []) (events : (cluster kinds cs).1 = options.map read) :
    Continues kinds options cs (cluster kinds cs).2 := by
  induction cs generalizing options with
  | nil => exact absurd rfl nonempty
  | cons c cs ih =>
      cases known : kinds c with
      | none =>
          rw [cluster, known] at events
          cases options with
          | nil => cases events
          | cons option options => cases events
      | some takes =>
          cases takes with
          | false =>
              rw [cluster_flag known] at events ⊢
              cases options with
              | nil => cases events
              | cons option options =>
                  obtain ⟨same, others⟩ := List.cons.inj events
                  obtain rfl := read_injective same
                  by_cases last : cs = []
                  · subst last
                    obtain rfl : options = [] := by simpa [cluster] using others.symm
                    exact .flag known
                  · have inner := ih last others
                    cases wanting : (cluster kinds cs).2 with
                    | none =>
                        rw [wanting] at inner
                        exact .flags known inner
                    | some letter =>
                        rw [wanting] at inner
                        exact fun argument => .flags known (inner argument)
          | true =>
              rw [cluster, known] at events ⊢
              by_cases last : cs = []
              · subst last
                obtain rfl : options = [] := by simpa using events.symm
                intro argument
                exact .detached known
              · simp only [if_neg last] at events ⊢
                obtain rfl : options = [(c, some cs)] := map_read_injective events.symm
                exact .attached known last

theorem accepts_of_scan (words : List Word) :
    (∀ options operands, scan kinds none words = (options.map read, operands) →
      Accepts kinds words options operands) ∧
    ∀ c options operands, scan kinds (some c) words = (options.map read, operands) →
      ∃ argument rest others, words = argument :: rest ∧
        options = (c, some argument) :: others ∧ Accepts kinds rest others operands := by
  induction words with
  | nil =>
      constructor
      · intro options operands result
        obtain ⟨events, rest⟩ := Prod.mk.inj result
        obtain rfl : options = [] := by simpa using events.symm
        cases rest
        exact ⟨[], [], rfl, .nil, .nil⟩
      · intro c options operands result
        cases options with
        | nil => cases (Prod.mk.inj result).1
        | cons option options => cases (Prod.mk.inj result).1
  | cons word words ih =>
      obtain ⟨plain, wanted⟩ := ih
      constructor
      · intro options operands result
        by_cases dashed : ∃ c cs, word = '-' :: c :: cs
        · obtain ⟨c, cs, rfl⟩ := dashed
          by_cases terminator : c :: cs = ['-']
          · cases terminator
            obtain ⟨events, rest⟩ := Prod.mk.inj result
            obtain rfl : options = [] := by simpa using events.symm
            cases rest
            exact ⟨[], _, rfl, .nil, .terminator _⟩
          · rw [scan_cluster (List.cons_ne_nil c cs) terminator] at result
            obtain ⟨events, rest⟩ := Prod.mk.inj result
            obtain ⟨first, later, rfl, firstRead, laterRead⟩ := List.map_eq_append_iff.mp events.symm
            have inner := continues_of_read (List.cons_ne_nil c cs) firstRead.symm
            cases wanting : (cluster kinds (c :: cs)).2 with
            | none =>
                rw [wanting] at inner rest laterRead
                obtain ⟨spelled, tail, rfl, spells, ends⟩ :=
                  plain later operands (Prod.ext laterRead.symm rest)
                exact ⟨_, tail, rfl, .cluster inner spells, ends⟩
            | some letter =>
                rw [wanting] at inner rest laterRead
                obtain ⟨argument, _, others, rfl, rfl, spelled, tail, rfl, spells, ends⟩ :=
                  wanted letter later operands (Prod.ext laterRead.symm rest)
                refine ⟨('-' :: c :: cs) :: ([argument] ++ spelled), tail, rfl, ?_, ends⟩
                rw [← List.singleton_append, ← List.append_assoc]
                exact .cluster (inner argument) spells
        · have other : ∀ c cs, word ≠ '-' :: c :: cs := by
            intro c cs same
            exact dashed ⟨c, cs, same⟩
          have ends := Ends.operand words other
          rw [scan_ends ends] at result
          obtain ⟨events, rest⟩ := Prod.mk.inj result
          obtain rfl : options = [] := by simpa using events.symm
          cases rest
          exact ⟨[], _, rfl, .nil, ends⟩
      · intro c options operands result
        rw [scan_wanting] at result
        obtain ⟨events, rest⟩ := Prod.mk.inj result
        cases options with
        | nil => cases events
        | cons option options =>
            obtain ⟨same, others⟩ := List.cons.inj events
            obtain rfl := read_injective same
            exact ⟨word, words, options, rfl, rfl, plain options operands (Prod.ext others rest)⟩

/-- The options and operands that are read without complaint are those that the words spell. -/
theorem scan_eq_iff (unknown : kinds '-' = none) {words : List Word}
    {options : List (Char × Option Word)} {operands : List Word} :
    scan kinds none words = (options.map read, operands) ↔
      Accepts kinds words options operands := by
  constructor
  · exact (accepts_of_scan words).1 options operands
  · rintro ⟨spelled, tail, rfl, spells, ends⟩
    exact scan_of_spells unknown spells ends

/-!
## The letter behind the options
-/

variable (kinds) in
/-- Behind the options the letter `c` is come to, with `more` behind it in its word and the words
`later` behind that. -/
inductive Reaches :
    List Word → List (Char × Option Word) → Char → List Char → List Word → Prop where
  | flags {flags : List Char} {c : Char} {more : List Char} (later : List Word) :
      (∀ flag ∈ flags, kinds flag = some false) → flags ++ c :: more ≠ ['-'] →
      Reaches (('-' :: (flags ++ c :: more)) :: later) (flags.map fun flag => (flag, none)) c more
        later
  | cluster {first rest : List (Char × Option Word)} {cs : List Char} {words behind : List Word}
      {c : Char} {more : List Char} {later : List Word} :
      Cluster kinds first cs words → Reaches behind rest c more later →
      Reaches (('-' :: cs) :: (words ++ behind)) (first ++ rest) c more later

variable (kinds) in
/-- What the letter is read as. -/
def heard (c : Char) (more : List Char) (later : List Word) : OptionEvent :=
  match kinds c with
  | none => .invalid
  | some false => read (c, none)
  | some true =>
      if more = [] then
        match later with
        | [] => .invalid
        | word :: _ => read (c, some word)
      else read (c, some more)

section Heard

variable {c : Char} (more : List Char) (later : List Word)

theorem heard_unknown (known : kinds c = none) : heard kinds c more later = .invalid := by
  simp only [heard, known]

theorem heard_flag (known : kinds c = some false) :
    heard kinds c more later = read (c, none) := by
  simp only [heard, known]

theorem heard_detached (known : kinds c = some true) (word : Word) :
    heard kinds c [] (word :: later) = read (c, some word) := by
  simp only [heard, known, if_true]

theorem heard_missing (known : kinds c = some true) : heard kinds c [] [] = .invalid := by
  simp only [heard, known, if_true]

theorem heard_attached (known : kinds c = some true) {more : List Char} (some : more ≠ []) :
    heard kinds c more later = read (c, .some more) := by
  simp only [heard, known, if_neg some]

theorem heard_invalid_iff :
    heard kinds c more later = .invalid ↔
      kinds c = none ∨ kinds c = some true ∧ more = [] ∧ later = [] := by
  cases known : kinds c with
  | none => simp [heard_unknown more later known]
  | some takes =>
      cases takes with
      | false => simp [heard_flag more later known, read]
      | true =>
          by_cases last : more = []
          · subst last
            cases later with
            | nil => simp [heard_missing known]
            | cons word later => simp [heard_detached later known, read]
          · simp [heard_attached later known last, read, last]

theorem letter_of_heard {letter : Char} {argument : Option Word}
    (reads : heard kinds c more later = .option letter argument) : letter = c ∧ kinds c ≠ none := by
  cases known : kinds c with
  | none =>
      rw [heard_unknown more later known] at reads
      cases reads
  | some takes =>
      refine ⟨?_, Option.some_ne_none _⟩
      cases takes with
      | false =>
          rw [heard_flag more later known] at reads
          cases reads
          rfl
      | true =>
          by_cases last : more = []
          · subst last
            cases later with
            | nil =>
                rw [heard_missing known] at reads
                cases reads
            | cons word later =>
                rw [heard_detached later known] at reads
                cases reads
                rfl
          · rw [heard_attached later known last] at reads
            cases reads
            rfl

end Heard

theorem Reaches.known {words later : List Word} {options : List (Char × Option Word)} {c : Char}
    {more : List Char} (reaches : Reaches kinds words options c more later)
    {option : Char × Option Word} (member : option ∈ options) : kinds option.1 ≠ none := by
  induction reaches with
  | flags later all _ =>
      obtain ⟨flag, inside, rfl⟩ := List.mem_map.mp member
      simp [all flag inside]
  | cluster first _ ih =>
      rcases List.mem_append.mp member with inside | behind
      · exact first.known inside
      · exact ih behind

theorem events_of_flags {flags : List Char} (known : ∀ flag ∈ flags, kinds flag = some false)
    (c : Char) (more : List Char) (later : List Word) :
    ∃ rest, (cluster kinds (flags ++ c :: more)).1 ++
        (scan kinds (cluster kinds (flags ++ c :: more)).2 later).1 =
      (flags.map fun flag => (flag, none)).map read ++ heard kinds c more later :: rest := by
  induction flags with
  | nil =>
      simp only [List.nil_append, cluster, heard]
      cases kinds c with
      | none => exact ⟨_, rfl⟩
      | some takes =>
          cases takes with
          | false => exact ⟨_, rfl⟩
          | true =>
              by_cases last : more = []
              · simp only [if_pos last]
                cases later with
                | nil => exact ⟨_, rfl⟩
                | cons word later => exact ⟨_, rfl⟩
              · simp only [if_neg last]
                exact ⟨_, rfl⟩
  | cons flag flags ih =>
      obtain ⟨first, others⟩ := List.forall_mem_cons.mp known
      obtain ⟨rest, events⟩ := ih others
      rw [List.cons_append, cluster_flag first]
      exact ⟨rest, congrArg (_ :: ·) events⟩

theorem events_of_reaches (unknown : kinds '-' = none) {words later : List Word}
    {options : List (Char × Option Word)} {c : Char} {more : List Char}
    (reaches : Reaches kinds words options c more later) :
    ∃ rest, (scan kinds none words).1 = options.map read ++ heard kinds c more later :: rest := by
  induction reaches with
  | @flags flags c more later known other =>
      rw [scan_cluster (by simp) other]
      exact events_of_flags known c more later
  | @cluster _ _ _ _ behind _ _ _ first _ ih =>
      obtain ⟨rest, events⟩ := ih
      rw [scan_cluster first.ne_nil (first.ne_dash unknown), (scan_of_cluster first behind).1, events,
        ← List.append_assoc, ← List.map_append]
      exact ⟨rest, rfl⟩

theorem flags_of_event {cs : List Char} {options : List (Char × Option Word)}
    {event : OptionEvent} {rest : List OptionEvent}
    (events : (cluster kinds cs).1 = options.map read ++ event :: rest) :
    ∃ flags c more, cs = flags ++ c :: more ∧ (∀ flag ∈ flags, kinds flag = some false) ∧
      options = flags.map (fun flag => (flag, none)) ∧ ∀ later, heard kinds c more later = event := by
  induction cs generalizing options with
  | nil => simp [cluster] at events
  | cons c cs ih =>
      cases known : kinds c with
      | none =>
          rw [cluster, known] at events
          cases options with
          | nil =>
              cases events
              exact ⟨[], c, cs, rfl, by simp, rfl, fun later => heard_unknown cs later known⟩
          | cons option options => cases events
      | some takes =>
          cases takes with
          | false =>
              rw [cluster_flag known] at events
              cases options with
              | nil =>
                  cases events
                  exact ⟨[], c, cs, rfl, by simp, rfl, fun later => heard_flag cs later known⟩
              | cons option options =>
                  obtain ⟨same, others⟩ := List.cons.inj events
                  obtain rfl := read_injective same
                  obtain ⟨flags, letter, more, rfl, all, rfl, reads⟩ := ih others
                  exact ⟨c :: flags, letter, more, rfl, List.forall_mem_cons.mpr ⟨known, all⟩, rfl,
                    reads⟩
          | true =>
              rw [cluster, known] at events
              by_cases last : cs = []
              · simp [last] at events
              · simp only [if_neg last] at events
                obtain ⟨rfl, same⟩ : options = [] ∧ event = .option c (some cs) := by
                  cases options with
                  | nil => exact ⟨rfl, (List.cons.inj events).1.symm⟩
                  | cons option options => simp at events
                refine ⟨[], c, cs, rfl, by simp, rfl, fun later => ?_⟩
                rw [heard_attached later known last, same]
                rfl

theorem flags_of_wanting {cs : List Char} {options : List (Char × Option Word)} {letter : Char}
    (events : (cluster kinds cs).1 = options.map read)
    (wanting : (cluster kinds cs).2 = some letter) :
    ∃ flags, cs = flags ++ [letter] ∧ (∀ flag ∈ flags, kinds flag = some false) ∧
      options = flags.map (fun flag => (flag, none)) ∧ kinds letter = some true := by
  induction cs generalizing options with
  | nil => cases wanting
  | cons c cs ih =>
      cases known : kinds c with
      | none =>
          rw [cluster, known] at events
          cases options with
          | nil => cases events
          | cons option options => cases events
      | some takes =>
          cases takes with
          | false =>
              rw [cluster_flag known] at events wanting
              cases options with
              | nil => cases events
              | cons option options =>
                  obtain ⟨same, others⟩ := List.cons.inj events
                  obtain rfl := read_injective same
                  obtain ⟨flags, rfl, all, rfl, takes⟩ := ih others wanting
                  exact ⟨c :: flags, rfl, List.forall_mem_cons.mpr ⟨known, all⟩, rfl, takes⟩
          | true =>
              rw [cluster, known] at events wanting
              by_cases last : cs = []
              · simp only [if_pos last] at events wanting
                cases wanting
                obtain rfl : options = [] := by simpa using events.symm
                exact ⟨[], by rw [last]; rfl, by simp, rfl, known⟩
              · simp only [if_neg last] at wanting
                cases wanting

/-- The event is one of the words behind, or one that the letters of the first word make. -/
theorem append_eq_append_cons {first behind before : List OptionEvent} {event : OptionEvent}
    {rest : List OptionEvent} (events : first ++ behind = before ++ event :: rest) :
    (∃ middle, before = first ++ middle ∧ behind = middle ++ event :: rest) ∨
      ∃ middle, first = before ++ event :: middle := by
  rcases List.append_eq_append_iff.mp events with ⟨middle, same, later⟩ | ⟨middle, same, later⟩
  · exact .inl ⟨middle, same, later⟩
  · cases middle with
    | nil => exact .inl ⟨[], by simpa using same.symm, by simpa using later.symm⟩
    | cons other middle =>
        obtain ⟨rfl, _⟩ := List.cons.inj later
        exact .inr ⟨middle, same⟩

theorem reaches_of_event (words : List Word) :
    (∀ options event rest, (scan kinds none words).1 = options.map read ++ event :: rest →
      ∃ c more later, Reaches kinds words options c more later ∧
        heard kinds c more later = event) ∧
    ∀ letter, kinds letter = some true → ∀ options event rest,
      (scan kinds (some letter) words).1 = options.map read ++ event :: rest →
      options = [] ∧ heard kinds letter [] words = event ∨
        ∃ argument behind others, words = argument :: behind ∧
          options = (letter, some argument) :: others ∧
          ∃ c more later, Reaches kinds behind others c more later ∧
            heard kinds c more later = event := by
  induction words with
  | nil =>
      constructor
      · intro options event rest events
        simp [scan] at events
      · intro letter takes options event rest events
        cases options with
        | nil =>
            cases events
            exact .inl ⟨rfl, heard_missing takes⟩
        | cons option options => simp [scan] at events
  | cons word words ih =>
      obtain ⟨plain, wanted⟩ := ih
      constructor
      · intro options event rest events
        by_cases dashed : ∃ c cs, word = '-' :: c :: cs
        · obtain ⟨c, cs, rfl⟩ := dashed
          by_cases terminator : c :: cs = ['-']
          · cases terminator
            simp [scan] at events
          · rw [scan_cluster (List.cons_ne_nil c cs) terminator] at events
            rcases append_eq_append_cons events with ⟨_, split, behind⟩ | ⟨_, inside⟩
            · obtain ⟨first, others, rfl, firstRead, rfl⟩ := List.map_eq_append_iff.mp split
              have inner := continues_of_read (List.cons_ne_nil c cs) firstRead.symm
              cases wanting : (cluster kinds (c :: cs)).2 with
              | none =>
                  rw [wanting] at inner behind
                  obtain ⟨letter, more, later, reaches, reads⟩ := plain others event rest behind
                  exact ⟨letter, more, later, .cluster inner reaches, reads⟩
              | some letter =>
                  obtain ⟨flags, shape, known, rfl, takes⟩ :=
                    flags_of_wanting firstRead.symm wanting
                  rw [wanting] at inner behind
                  rw [shape] at terminator inner ⊢
                  rcases wanted letter takes others event rest behind with
                    ⟨rfl, reads⟩ | ⟨argument, words, others, rfl, rfl, _, _, _, reaches, reads⟩
                  · rw [List.append_nil]
                    exact ⟨letter, [], words, .flags words known terminator, reads⟩
                  · have whole := Reaches.cluster (inner argument) reaches
                    rw [List.append_assoc] at whole
                    exact ⟨_, _, _, whole, reads⟩
            · obtain ⟨flags, letter, more, shape, known, rfl, reads⟩ := flags_of_event inside
              rw [shape] at terminator ⊢
              exact ⟨letter, more, words, .flags words known terminator, reads words⟩
        · have other : ∀ c cs, word ≠ '-' :: c :: cs := by
            intro c cs same
            exact dashed ⟨c, cs, same⟩
          rw [scan_ends (.operand words other)] at events
          simp at events
      · intro letter takes options event rest events
        rw [scan_wanting] at events
        cases options with
        | nil =>
            obtain ⟨rfl, _⟩ := List.cons.inj events
            exact .inl ⟨rfl, heard_detached words takes word⟩
        | cons option options =>
            obtain ⟨same, later⟩ := List.cons.inj events
            obtain rfl := read_injective same
            exact .inr ⟨word, words, options, rfl, rfl, plain options event rest later⟩

/-- What is read behind some options is what their letters are followed by. -/
theorem event_iff_reaches (unknown : kinds '-' = none) {words : List Word}
    {options : List (Char × Option Word)} {event : OptionEvent} :
    (∃ rest, (scan kinds none words).1 = options.map read ++ event :: rest) ↔
      ∃ c more later, Reaches kinds words options c more later ∧
        heard kinds c more later = event := by
  constructor
  · rintro ⟨rest, events⟩
    exact (reaches_of_event words).1 options event rest events
  · rintro ⟨c, more, later, reaches, rfl⟩
    exact events_of_reaches unknown reaches

end Getopts

end Libpreempt.Shell
