import Libpreempt.Preempt.CriticalTask
import Libpreempt.Preempt.MonoTaskConcurrencyProperties

/-! The runs of a `critical_task` do not overlap, so the one field `usec_` holds
the duration of the newest run once its `hook` has stored it, and a run that
ends has met its deadline. -/

set_option autoImplicit false

namespace Libpreempt.Preempt.CriticalTask

open Libpreempt.Base Libpreempt.Stdlib Libpreempt.Transition

variable {strerror : Int → StdString} {us clock : Int}

inductive Effect (us : Int) (source : CriticalTask) : Action → CriticalTask → Prop where
  | task {action : MonoTask.Action} {mono : MonoTask.Shared Thread} {changing : Bool}
      (allowed : source.Allows action = true)
      (stepped : (MonoTask.concurrent Thread).step source.mono action = some mono) :
      Effect us source (.task action)
        { source with mono, changing, hook := enter source.hook action }
  | changed {priority errnum : Int} :
      Effect us source (.changeScheduling priority errnum) { source with changing := false }
  | started {id : ThreadId} {now : Int} (entered : source.hook id = .entered)
      (later : source.clock ≤ now) :
      Effect us source (.readStart id now) { source.place id (.started now) with clock := now }
  | stopped {id : ThreadId} {start now : Int} (started : source.hook id = .started start)
      (later : source.clock ≤ now) :
      Effect us source (.readStop id now)
        { source.place id (.stopped start now) with clock := now }
  | stored {id : ThreadId} {start stop : Int} (stopped : source.hook id = .stopped start stop) :
      Effect us source (.store id)
        { source.place id (.stored start stop) with usec := some (microseconds start stop) }
  | tested {id : ThreadId} {start stop : Int} (stored : source.hook id = .stored start stop) :
      Effect us source (.test id)
        { source.place id (.tested start stop) with
          exited :=
            if deadline us start < stop then some (exitText us (source.usec.getD 0)) else none }

theorem step_effect {source target : CriticalTask} {action : Action}
    (stepped : (machine strerror us clock).step source action = some target) :
    source.exited = none ∧ Effect us source action target := by
  simp only [machine] at stepped
  split at stepped
  · rename_i alive
    refine ⟨alive, ?_⟩
    cases action with
    | task action =>
        simp only [step, taskStep] at stepped
        split at stepped
        · rename_i allowed
          obtain ⟨mono, performed, rfl⟩ := Option.map_eq_some_iff.mp stepped
          exact .task allowed performed
        · cases stepped
    | changeScheduling priority errnum =>
        simp only [step] at stepped
        split at stepped
        · rename_i allowed
          rw [Thread.changeScheduling_of_success strerror _ _ _ allowed.2] at stepped
          cases stepped
          exact .changed
        · cases stepped
    | readStart id now =>
        simp only [step] at stepped
        split at stepped
        · rename_i allowed
          cases stepped
          exact .started allowed.1 allowed.2
        · cases stepped
    | readStop id now =>
        cases place : source.hook id with
        | started start =>
            simp only [step, place] at stepped
            split at stepped
            · rename_i later
              cases stepped
              exact .stopped place later
            · cases stepped
        | absent | entered | stopped | stored | tested => simp [step, place] at stepped
    | store id =>
        cases place : source.hook id with
        | stopped start stop =>
            simp only [step, place, Option.some.injEq] at stepped
            subst target
            exact .stored place
        | absent | entered | started | stored | tested => simp [step, place] at stepped
    | test id =>
        cases place : source.hook id with
        | stored start stop =>
            simp only [step, place, Option.some.injEq] at stepped
            subst target
            exact .tested place
        | absent | entered | started | stopped | tested => simp [step, place] at stepped
  · cases stepped

/-- A `critical_task` uses its `mono_task` as any caller may. -/
theorem simulation_mono :
    Simulation (machine strerror us clock) (MonoTask.concurrent Thread) Action.erase
      fun critical mono => critical.mono = mono where
  start := rfl
  forth source mono action target related stepped := by
    subst mono
    obtain ⟨_, effect⟩ := step_effect stepped
    cases effect with
    | task allowed performed =>
        exact ⟨_, by simp [Action.erase, performed], rfl⟩
    | changed | started _ _ | stopped _ _ | stored _ | tested _ => exact ⟨source.mono, rfl, rfl⟩

theorem mono_valid {critical : CriticalTask}
    (reached : (machine strerror us clock).Reachable critical) : critical.mono.Valid := by
  obtain ⟨mono, monoReached, rfl⟩ := simulation_mono.reachable reached
  exact MonoTask.valid_of_reachable monoReached

/-!
## The invariant
-/

def Hook.Ordered (clock : Int) : Hook → Prop
  | .started start => start ≤ clock
  | .stopped start stop | .stored start stop | .tested start stop => start ≤ stop ∧ stop ≤ clock
  | .absent | .entered => True

theorem Hook.Ordered.later {hook : Hook} {clock now : Int} (ordered : hook.Ordered clock)
    (later : clock ≤ now) : hook.Ordered now := by
  cases hook with
  | absent | entered => trivial
  | started start => exact Int.le_trans ordered later
  | stopped start stop | stored start stop | tested start stop =>
      exact ⟨ordered.1, Int.le_trans ordered.2 later⟩

def Hook.Measured (hook : Hook) (start stop : Int) : Prop :=
  hook = .stored start stop ∨ hook = .tested start stop

structure Valid (us : Int) (critical : CriticalTask) : Prop where
  mono : critical.mono.Valid
  absent : ∀ id, id ∉ critical.mono.begun → critical.hook id = .absent
  tested : ∀ id ∈ critical.mono.finished, ∃ start stop, critical.hook id = .tested start stop
  ordered : ∀ id, (critical.hook id).Ordered critical.clock
  stored : ∀ id start stop, id + 1 = critical.mono.created →
    (critical.hook id).Measured start stop → critical.usec = some (microseconds start stop)
  exit : critical.exited.isSome = true ↔
    ∃ id start stop, critical.hook id = .tested start stop ∧ deadline us start < stop

theorem Valid.begun {critical : CriticalTask} (valid : Valid us critical) {id : ThreadId}
    (present : critical.hook id ≠ .absent) : id ∈ critical.mono.begun := by
  by_contra missing
  exact present (valid.absent id missing)

theorem Valid.unfinished {critical : CriticalTask} (valid : Valid us critical) {id : ThreadId}
    (present : critical.hook id ≠ .absent)
    (pending : ∀ start stop, critical.hook id ≠ .tested start stop) :
    critical.mono.Unfinished id := by
  refine ⟨valid.mono.bounded id (valid.begun present), ?_⟩
  intro ended
  obtain ⟨start, stop, tested⟩ := valid.tested id ended
  exact pending start stop tested

theorem Valid.newest {critical : CriticalTask} (valid : Valid us critical) {id : ThreadId}
    (unfinished : critical.mono.Unfinished id) : id + 1 = critical.mono.created :=
  valid.mono.newest id (valid.mono.holder_of_unfinished unfinished)

theorem Valid.place {critical : CriticalTask} (valid : Valid us critical)
    (alive : critical.exited = none) {id : ThreadId} (unfinished : critical.mono.Unfinished id)
    (begun : id ∈ critical.mono.begun) {hook : Hook} {clock : Int} {usec : Option Int}
    {exited : Option StdString} (later : critical.clock ≤ clock) (ordered : hook.Ordered clock)
    (stored : ∀ start stop, hook.Measured start stop → usec = some (microseconds start stop))
    (exit : exited.isSome = true ↔
      ∃ start stop, hook = .tested start stop ∧ deadline us start < stop) :
    Valid us { critical.place id hook with clock, usec, exited } := by
  have other : ∀ thread, thread ≠ id →
      Function.update critical.hook id hook thread = critical.hook thread :=
    fun thread different => Function.update_of_ne different _ _
  have own : Function.update critical.hook id hook id = hook := Function.update_self ..
  refine ⟨valid.mono, ?_, ?_, ?_, ?_, ?_⟩
  · intro thread missing
    have different : thread ≠ id := fun same => missing (same ▸ begun)
    exact (other thread different).trans (valid.absent thread missing)
  · intro thread ended
    have different : thread ≠ id := fun same => unfinished.2 (same ▸ ended)
    obtain ⟨start, stop, tested⟩ := valid.tested thread ended
    exact ⟨start, stop, (other thread different).trans tested⟩
  · intro thread
    change Hook.Ordered clock (Function.update critical.hook id hook thread)
    by_cases same : thread = id
    · rw [same, own]
      exact ordered
    · rw [other thread same]
      exact (valid.ordered thread).later later
  · intro thread start stop newest measured
    have same : thread = id :=
      Nat.succ.inj (newest.trans (valid.newest unfinished).symm)
    subst thread
    change Hook.Measured (Function.update critical.hook id hook id) start stop at measured
    rw [own] at measured
    exact stored start stop measured
  · constructor
    · intro left
      obtain ⟨start, stop, tested, exceeded⟩ := exit.mp left
      exact ⟨id, start, stop, own.trans tested, exceeded⟩
    · intro overran
      obtain ⟨thread, start, stop, tested, exceeded⟩ := overran
      change Function.update critical.hook id hook thread = _ at tested
      by_cases same : thread = id
      · rw [same, own] at tested
        exact exit.mpr ⟨start, stop, tested, exceeded⟩
      · rw [other thread same] at tested
        have left := valid.exit.mpr ⟨thread, start, stop, tested, exceeded⟩
        rw [alive] at left
        cases left

theorem Valid.keep {critical : CriticalTask} (valid : Valid us critical)
    {mono : MonoTask.Shared Thread} (changing : Bool) (monoValid : mono.Valid)
    (begun : mono.begun = critical.mono.begun)
    (tested : ∀ id ∈ mono.finished, ∃ start stop, critical.hook id = .tested start stop)
    (newest : ∀ id, id + 1 = mono.created →
      id + 1 = critical.mono.created ∨ critical.hook id = .absent) :
    Valid us { critical with mono, changing } := by
  refine ⟨monoValid, ?_, tested, valid.ordered, ?_, valid.exit⟩
  · intro id missing
    exact valid.absent id (begun ▸ missing)
  · intro id start stop last measured
    rcases newest id last with same | fresh
    · exact valid.stored id start stop same measured
    · rcases measured with stored | tested
      · cases fresh.symm.trans stored
      · cases fresh.symm.trans tested

theorem Valid.enter {critical : CriticalTask} (valid : Valid us critical)
    {mono : MonoTask.Shared Thread} (changing : Bool) (monoValid : mono.Valid) {id : ThreadId}
    (fresh : id ∉ critical.mono.begun) (begun : mono.begun = critical.mono.begun ++ [id])
    (finished : mono.finished = critical.mono.finished)
    (created : mono.created = critical.mono.created) :
    Valid us
      { critical with mono, changing, hook := Function.update critical.hook id .entered } := by
  have other : ∀ thread, thread ≠ id →
      Function.update critical.hook id .entered thread = critical.hook thread :=
    fun thread different => Function.update_of_ne different _ _
  have own : Function.update critical.hook id .entered id = .entered := Function.update_self ..
  refine ⟨monoValid, ?_, ?_, ?_, ?_, ?_⟩
  · intro thread missing
    rw [begun, List.mem_append, List.mem_singleton, not_or] at missing
    exact (other thread missing.2).trans (valid.absent thread missing.1)
  · intro thread ended
    rw [finished] at ended
    have different : thread ≠ id := fun same => fresh (same ▸ valid.mono.started thread ended)
    obtain ⟨start, stop, tested⟩ := valid.tested thread ended
    exact ⟨start, stop, (other thread different).trans tested⟩
  · intro thread
    change Hook.Ordered critical.clock (Function.update critical.hook id .entered thread)
    by_cases same : thread = id
    · rw [same, own]
      trivial
    · rw [other thread same]
      exact valid.ordered thread
  · intro thread start stop newest measured
    change Hook.Measured (Function.update critical.hook id .entered thread) start stop at measured
    by_cases same : thread = id
    · rw [same, own] at measured
      rcases measured with stored | tested
      · cases stored
      · cases tested
    · rw [other thread same] at measured
      exact valid.stored thread start stop (newest.trans created) measured
  · refine valid.exit.trans (exists_congr fun thread => ?_)
    change _ ↔ ∃ start stop,
      Function.update critical.hook id .entered thread = .tested start stop ∧ _
    by_cases same : thread = id
    · rw [same, own, valid.absent id fresh]
      simp
    · rw [other thread same]

theorem Valid.next {source target : CriticalTask} {action : Action} (valid : Valid us source)
    (alive : source.exited = none) (effect : Effect us source action target)
    (monoValid : target.mono.Valid) : Valid us target := by
  cases effect with
  | task allowed performed =>
      rename_i action mono changing
      cases MonoTask.step_effect valid.mono performed with
      | called _ | passed _ _ | blocked _ _ | joined _ _ _ _ _ | threw _ | assigned _ _ _ =>
          exact valid.keep changing monoValid rfl valid.tested fun _ same => .inl same
      | created place =>
          refine valid.keep changing monoValid rfl valid.tested fun id same => .inr ?_
          refine valid.absent id fun begun => ?_
          exact absurd (valid.mono.bounded id begun) (Nat.not_lt_of_ge (Nat.le_of_succ_le_succ
            (Nat.le_of_eq same.symm)))
      | begun bound fresh => exact valid.enter changing monoValid fresh rfl rfl rfl
      | finished running fresh =>
          rename_i id
          refine valid.keep changing monoValid rfl ?_ fun _ same => .inl same
          intro thread ended
          rcases List.mem_append.mp ended with old | new
          · exact valid.tested thread old
          · rw [List.mem_singleton.mp new]
            cases place : source.hook id with
            | tested start stop => exact ⟨start, stop, rfl⟩
            | absent | entered | started | stopped | stored => simp [Allows, place] at allowed
  | changed => exact valid.keep false valid.mono rfl valid.tested fun _ same => .inl same
  | started entered later =>
      rename_i id now
      have present : source.hook id ≠ .absent := by simp [entered]
      have unfinished := valid.unfinished present (by simp [entered])
      refine valid.place alive unfinished (valid.begun present) later (Int.le_refl now) ?_ ?_
      · intro start stop measured
        rcases measured with stored | tested
        · cases stored
        · cases tested
      · simp [alive, CriticalTask.place]
  | stopped started later =>
      rename_i id start now
      have present : source.hook id ≠ .absent := by simp [started]
      have unfinished := valid.unfinished present (by simp [started])
      have before : start ≤ source.clock := by
        have ordered := valid.ordered id
        rw [started] at ordered
        exact ordered
      refine valid.place alive unfinished (valid.begun present) later
        ⟨Int.le_trans before later, Int.le_refl now⟩ ?_ ?_
      · intro start stop measured
        rcases measured with stored | tested
        · cases stored
        · cases tested
      · simp [alive, CriticalTask.place]
  | stored stopped =>
      rename_i id start stop
      have present : source.hook id ≠ .absent := by simp [stopped]
      have unfinished := valid.unfinished present (by simp [stopped])
      have ordered := valid.ordered id
      rw [stopped] at ordered
      refine valid.place alive unfinished (valid.begun present) (Int.le_refl _) ordered ?_ ?_
      · intro first last measured
        rcases measured with same | tested
        · cases same
          rfl
        · cases tested
      · simp [alive, CriticalTask.place]
  | tested stored =>
      rename_i id start stop
      have present : source.hook id ≠ .absent := by simp [stored]
      have unfinished := valid.unfinished present (by simp [stored])
      have ordered := valid.ordered id
      rw [stored] at ordered
      refine valid.place alive unfinished (valid.begun present) (Int.le_refl _) ordered ?_ ?_
      · intro first last measured
        rcases measured with other | same
        · cases other
        · cases same
          exact valid.stored id start stop (valid.newest unfinished) (.inl stored)
      · by_cases exceeded : deadline us start < stop
        · simp [exceeded]
        · simp [exceeded]

theorem valid_initial : Valid us (machine strerror us clock).initial := by
  refine ⟨MonoTask.valid_initial, fun _ _ => rfl, ?_, fun _ => trivial, ?_, ?_⟩
  · intro id ended
    cases ended
  · intro id start stop newest
    cases newest
  · simp [machine]

theorem valid_of_reachable {critical : CriticalTask}
    (reached : (machine strerror us clock).Reachable critical) : Valid us critical := by
  apply reached.invariant (Valid us) valid_initial
  intro source action target sourceReached valid stepped
  obtain ⟨alive, effect⟩ := step_effect stepped
  exact valid.next alive effect (mono_valid (sourceReached.next stepped))

/-!
## The deadline
-/

theorem microseconds_eq {start stop : Int} (ordered : start ≤ stop) :
    microseconds start stop = (stop - start) / 1000 :=
  Int.tdiv_eq_ediv_of_nonneg (Int.sub_nonneg_of_le ordered)

theorem deadline_lt_iff {us start stop : Int} :
    deadline us start < stop ↔ us * 1000 < stop - start := by
  unfold deadline
  omega

theorem micros_le {us start stop : Int} (met : ¬ deadline us start < stop) :
    (stop - start) / 1000 ≤ us := by
  rw [deadline_lt_iff] at met
  omega

theorem inactive_after_join {source target : CriticalTask} {action : Action}
    (valid : Valid us source) (effect : Effect us source action target)
    (place : source.mono.point = .testing .join ∨ source.mono.point = .joining .join)
    (returned : target.mono.point = .idle) :
    target.mono.task.joinable = false ∧ target.exited = source.exited := by
  cases effect with
  | task allowed performed =>
      have moved := MonoTask.step_effect valid.mono performed
      exact ⟨MonoTask.inactive_after_join moved place returned, rfl⟩
  | changed | started _ _ | stopped _ _ | stored _ | tested _ =>
      change source.mono.point = .idle at returned
      simp [returned] at place

theorem runtime_after_join {source target : CriticalTask} {action : Action}
    (valid : Valid us source) (later : Valid us target) (alive : source.exited = none)
    (effect : Effect us source action target)
    (place : source.mono.point = .testing .join ∨ source.mono.point = .joining .join)
    (returned : target.mono.point = .idle) (spawned : 0 < target.mono.created) :
    ∃ start stop, target.hook (target.mono.created - 1) = .tested start stop ∧
      target.runtime = some ((stop - start) / 1000) ∧ (stop - start) / 1000 ≤ us := by
  obtain ⟨inactive, same⟩ := inactive_after_join valid effect place returned
  have newest : target.mono.created - 1 + 1 = target.mono.created := Nat.sub_add_cancel spawned
  have ended := later.mono.all_finished returned inactive (target.mono.created - 1)
    (Nat.sub_lt spawned Nat.one_pos)
  obtain ⟨start, stop, tested⟩ := later.tested _ ended
  have ordered := later.ordered (target.mono.created - 1)
  rw [tested] at ordered
  refine ⟨start, stop, tested, ?_, micros_le fun exceeded => ?_⟩
  · rw [← microseconds_eq ordered.1]
    exact later.stored _ start stop newest (.inr tested)
  · have left := later.exit.mpr ⟨_, start, stop, tested, exceeded⟩
    rw [same, alive] at left
    cases left

theorem exit_iff {source target : CriticalTask} {action : Action} (alive : source.exited = none)
    (effect : Effect us source action target) :
    target.exited.isSome = true ↔ ∃ id start stop, action = .test id ∧
      source.hook id = .stored start stop ∧ us * 1000 < stop - start := by
  cases effect with
  | task _ _ | changed | started _ _ | stopped _ _ | stored _ => simp [alive, place]
  | tested stored =>
      rename_i id start stop
      simp only [← deadline_lt_iff]
      constructor
      · intro left
        refine ⟨id, start, stop, rfl, stored, ?_⟩
        by_contra met
        rw [if_neg met] at left
        cases left
      · intro overran
        obtain ⟨other, first, last, same, measured, exceeded⟩ := overran
        cases same
        cases stored.symm.trans measured
        rw [if_pos exceeded]
        rfl

/-- The process exits exactly when a run exceeds its deadline, every run that
ends was tested, and a `join()` that returns leaves the duration of the newest
run. -/
theorem critical_task_deadline (strerror : Int → StdString) (us clock : Int) :
    (∀ critical, (machine strerror us clock).Reachable critical →
      (critical.exited.isSome = true ↔ ∃ id start stop,
        critical.hook id = .tested start stop ∧ us * 1000 < stop - start) ∧
      ∀ id ∈ critical.mono.finished, ∃ start stop, critical.hook id = .tested start stop) ∧
    ∀ source target action, (machine strerror us clock).Reachable source →
      (machine strerror us clock).step source action = some target →
      (target.exited.isSome = true ↔ ∃ id start stop, action = .test id ∧
        source.hook id = .stored start stop ∧ us * 1000 < stop - start) ∧
      (source.mono.point = .testing .join ∨ source.mono.point = .joining .join →
        target.mono.point = .idle → 0 < target.mono.created →
        ∃ start stop, target.hook (target.mono.created - 1) = .tested start stop ∧
          target.runtime = some ((stop - start) / 1000) ∧ (stop - start) / 1000 ≤ us) := by
  constructor
  · intro critical reached
    have valid := valid_of_reachable reached
    refine ⟨?_, valid.tested⟩
    simp only [valid.exit, deadline_lt_iff]
  · intro source target action reached stepped
    obtain ⟨alive, effect⟩ := step_effect stepped
    refine ⟨exit_iff alive effect, ?_⟩
    intro place returned spawned
    exact runtime_after_join (valid_of_reachable reached)
      (valid_of_reachable (reached.next stepped)) alive effect place returned spawned

theorem critical_task_deadline_once :
    ∃ source target,
      (machine (fun _ => []) 20000 0).run (machine (fun _ => []) 20000 0).initial
        [.task (.call .spawn), .task .test, .task (.construct true), .task .assign,
          .changeScheduling 32 0, .task (.begin 0), .readStart 0 100, .readStop 0 3000600, .store 0,
          .test 0, .task (.finish 0), .task (.call .join), .task .test] = some source ∧
      (machine (fun _ => []) 20000 0).step source (.task .joined) = some target ∧
      ∃ start stop, target.hook (target.mono.created - 1) = .tested start stop ∧
        target.runtime = some ((stop - start) / 1000) ∧ (stop - start) / 1000 ≤ 20000 := by
  have ran : ((machine (fun _ => []) 20000 0).run (machine (fun _ => []) 20000 0).initial
      [.task (.call .spawn), .task .test, .task (.construct true), .task .assign,
        .changeScheduling 32 0, .task (.begin 0), .readStart 0 100, .readStop 0 3000600, .store 0,
        .test 0, .task (.finish 0), .task (.call .join), .task .test]) = some _ := rfl
  refine ⟨_, _, ran, rfl, ?_⟩
  exact ((critical_task_deadline (fun _ => []) 20000 0).2 _ _ (.task .joined) ⟨_, ran⟩ rfl).2
    (.inr rfl) rfl Nat.one_pos

end Libpreempt.Preempt.CriticalTask
