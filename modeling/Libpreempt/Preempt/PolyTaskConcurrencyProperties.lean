import Libpreempt.Preempt.PolyTaskConcurrency

/-! Since `lock_` is released before the append, nothing keeps the append of
another call out of the two steps that follow it. -/

set_option autoImplicit false

namespace Libpreempt.Preempt.PolyTask

open Libpreempt.Stdlib Libpreempt.Transition

variable {Caller Thread : Type} [DecidableEq Caller] [ThreadType Thread]

theorem step_cases {growth : Growth} {shared next : Shared Caller Thread}
    {action : Action Caller} (stepped : shared.step growth action = some next) :
    (∃ caller, action = .acquire caller ∧ shared.lock = none ∧
      shared.point caller = .outside ∧ 0 < shared.remaining caller ∧
      next = { shared.move caller .guarded with
        lock := some caller
        remaining := Function.update shared.remaining caller (shared.remaining caller - 1) }) ∨
    (∃ caller, action = .release caller ∧ shared.point caller = .guarded ∧
      next = { shared.move caller .unguarded with lock := none }) ∨
    (∃ caller, action = .append caller ∧ shared.point caller = .unguarded ∧
      next = { shared.move caller (.appended shared.created) with
        task := shared.task.append growth (ThreadType.launched shared.created)
        created := shared.created + 1 }) ∨
    (∃ caller own, action = .back caller ∧ shared.point caller = .appended own ∧
      next = { shared.move caller .outside with
        returned := shared.returned ++
          [⟨caller, own, shared.task.back.bind ThreadType.getId⟩] }) := by
  cases action with
  | acquire caller =>
      simp only [Shared.step] at stepped
      split at stepped
      · rename_i allowed
        cases stepped
        exact .inl ⟨caller, rfl, allowed.1, allowed.2.1, allowed.2.2, rfl⟩
      · cases stepped
  | release caller =>
      simp only [Shared.step] at stepped
      split at stepped
      · rename_i allowed
        cases stepped
        exact .inr (.inl ⟨caller, rfl, allowed, rfl⟩)
      · cases stepped
  | append caller =>
      simp only [Shared.step] at stepped
      split at stepped
      · rename_i allowed
        cases stepped
        exact .inr (.inr (.inl ⟨caller, rfl, allowed, rfl⟩))
      · cases stepped
  | back caller =>
      simp only [Shared.step] at stepped
      split at stepped
      · rename_i own allowed
        cases stepped
        exact .inr (.inr (.inr ⟨caller, own, rfl, allowed, rfl⟩))
      · cases stepped

omit [ThreadType Thread] in
theorem Shared.point_move (shared : Shared Caller Thread) (caller other : Caller)
    (point : Point) :
    (shared.move caller point).point other = if other = caller then point else shared.point other := by
  simp [Shared.move, Function.update_apply]

/-- A call that meets no other caller does what the sequential `spawn` does. -/
theorem run_spawn {growth : Growth} {workload : Caller → Nat} {shared : Shared Caller Thread}
    {caller : Caller} (free : shared.lock = none) (outside : shared.point caller = .outside)
    (left : 0 < shared.remaining caller) :
    ∃ final, (concurrent Thread growth workload).run shared
        [.acquire caller, .release caller, .append caller, .back caller] = some final ∧
      shared.task.spawn growth (.ok (ThreadType.launched shared.created)) =
        .ok (final.task, final.task.back) ∧
      final.returned = shared.returned ++
        [⟨caller, shared.created, final.task.back.bind ThreadType.getId⟩] := by
  simp [concurrent, Shared.step, Shared.move, free, outside, left, spawn, Except.map]

def AppendGuard (shared : Shared Caller Thread) (action : Action Caller) : Prop :=
  ∀ caller, action = .append caller →
    ∀ other, other ≠ caller → ∀ own, shared.point other ≠ .appended own

def Shared.LastOwn (shared : Shared Caller Thread) : Prop :=
  ∀ caller own, shared.point caller = .appended own →
    shared.task.back.bind ThreadType.getId = some own

variable {growth : Growth} {workload : Caller → Nat}

private theorem spawnLaw_iff {source target : Shared Caller Thread} {action : Action Caller}
    (lastOwn : source.LastOwn) (stepped : source.step growth action = some target) :
    SpawnLaw source action target ↔ AppendGuard source action := by
  obtain ⟨caller, rfl, _, _, _, rfl⟩ | ⟨caller, rfl, _, rfl⟩ | ⟨caller, rfl, _, rfl⟩ |
    ⟨caller, own, rfl, appended, rfl⟩ := step_cases stepped
  · simp [SpawnLaw, AppendGuard]
  · simp [SpawnLaw, AppendGuard]
  · simp [SpawnLaw, AppendGuard]
  · have element := lastOwn caller own appended
    simp [SpawnLaw, AppendGuard, element]

theorem inside_workload {shared : Shared Caller Thread}
    (reached : (concurrent Thread growth workload).Reachable shared) {caller : Caller}
    (inside : shared.point caller ≠ .outside) : 0 < workload caller := by
  have busy := reached.invariant
    (fun shared => ∀ caller, shared.remaining caller ≤ workload caller ∧
      (shared.point caller ≠ .outside → 0 < workload caller))
    (fun caller => ⟨Nat.le_refl _, fun inside => absurd rfl inside⟩) (by
    intro source action target _ busy stepped other
    obtain ⟨caller, rfl, _, _, left, rfl⟩ | ⟨caller, rfl, point, rfl⟩ |
      ⟨caller, rfl, point, rfl⟩ | ⟨caller, own, rfl, point, rfl⟩ := step_cases stepped
    · have bound := (busy other).1
      simp only [Shared.point_move, Function.update_apply]
      by_cases same : other = caller
      · subst same
        simp only [↓reduceIte]
        exact ⟨by omega, fun _ => by omega⟩
      · simpa [same] using busy other
    all_goals
      refine ⟨(busy other).1, ?_⟩
      simp only [Shared.point_move]
      split
      · rename_i same
        subst same
        exact fun _ => (busy other).2 (by simp [point])
      · exact (busy other).2)
  exact (busy caller).2 inside

/-- A call ends with its own thread, and the vector with every thread once. -/
def Isolated (Thread : Type) [ThreadType Thread] (growth : Growth)
    (workload : Caller → Nat) : Prop :=
  ∀ actions final,
    (concurrent Thread growth workload).run (concurrent Thread growth workload).initial actions =
      some final →
    (concurrent Thread growth workload).EachStep SpawnLaw
      (concurrent Thread growth workload).initial actions ∧
    final.task.ids = (List.range final.created).map some

private theorem not_isolated_of_two {left right : Caller} (different : left ≠ right)
    (leftBusy : 0 < workload left) (rightBusy : 0 < workload right) :
    ¬ Isolated Thread growth workload := by
  intro isolated
  have paused : ∃ source, (concurrent Thread growth workload).run
      (concurrent Thread growth workload).initial [.acquire left, .release left,
        .acquire right, .release right, .append left] = some source ∧
      source.point left = .appended 0 ∧ source.point right = .unguarded := by
    simp [concurrent, Shared.step, Shared.move, leftBusy, rightBusy, different, different.symm]
  obtain ⟨source, ran, appended, ready⟩ := paused
  have stepped : (concurrent Thread growth workload).step source (.append right) = some _ :=
    if_pos ready
  have law := (isolated _ _ (Machine.run_snoc ran stepped)).1 _ (.append right) [] source _
    rfl ran stepped
  exact law left different 0 appended

section Lawful

variable [LawfulThreadType Thread]

/-- Every spawned thread is in the vector exactly once, in the order of the
appends. This part of a call needs no lock, since an append is one step. -/
theorem ids_eq_range {shared : Shared Caller Thread}
    (reached : (concurrent Thread growth workload).Reachable shared) :
    shared.task.ids = (List.range shared.created).map some := by
  refine reached.invariant
    (fun shared => shared.task.ids = (List.range shared.created).map some) rfl ?_
  intro source action target _ counted stepped
  obtain ⟨caller, rfl, _, _, _, rfl⟩ | ⟨caller, rfl, _, rfl⟩ | ⟨caller, rfl, _, rfl⟩ |
    ⟨caller, own, rfl, _, rfl⟩ := step_cases stepped
  · exact counted
  · exact counted
  · simp [counted, List.range_succ]
  · exact counted

private theorem lastOwn_step {source target : Shared Caller Thread} {action : Action Caller}
    (lastOwn : source.LastOwn) (stepped : source.step growth action = some target)
    (law : SpawnLaw source action target) : target.LastOwn := by
  intro other own pending
  obtain ⟨caller, rfl, _, _, _, rfl⟩ | ⟨caller, rfl, _, rfl⟩ | ⟨caller, rfl, _, rfl⟩ |
    ⟨caller, mine, rfl, _, rfl⟩ := step_cases stepped
  all_goals simp only [Shared.point_move] at pending
  · split at pending
    · cases pending
    · exact lastOwn other own pending
  · split at pending
    · cases pending
    · exact lastOwn other own pending
  · split at pending
    · cases pending
      simpa using getId_back_append growth source.task (ThreadType.launched source.created)
    · rename_i different
      exact absurd pending (law other different own)
  · split at pending
    · cases pending
    · exact lastOwn other own pending

theorem eachStep_spawnLaw_iff (actions : List (Action Caller)) :
    (concurrent Thread growth workload).EachStep SpawnLaw
        (concurrent Thread growth workload).initial actions ↔
      (concurrent Thread growth workload).EachStep (fun source action _ => AppendGuard source action)
        (concurrent Thread growth workload).initial actions := by
  refine Machine.eachStep_iff_guarded Shared.LastOwn ?_ ?_ ?_ actions
  · intro source action target lastOwn stepped
    exact spawnLaw_iff lastOwn stepped
  · intro source action target lastOwn stepped law
    exact lastOwn_step lastOwn stepped law
  · intro caller own pending
    cases pending

private theorem isolated_of_single
    (single : ∀ left right, 0 < workload left → 0 < workload right → left = right) :
    Isolated Thread growth workload := by
  intro actions final ran
  refine ⟨?_, ids_eq_range ⟨actions, ran⟩⟩
  rw [eachStep_spawnLaw_iff]
  refine Machine.eachStep_of_reachable ?_ actions
  rintro source action target reached stepped caller rfl other different own appended
  have otherBusy : 0 < workload other := inside_workload reached (by simp [appended])
  have callerBusy : 0 < workload caller := by
    apply inside_workload reached
    intro outside
    simp [concurrent, Shared.step, outside] at stepped
  exact different (single other caller otherBusy callerBusy)

/-- Every interleaving isolates the calls exactly when at most one caller makes
any; a given interleaving does so exactly when it appends only while no other
call has its `back()` still to read. -/
theorem spawn_isolated_iff (Thread : Type) [ThreadType Thread] [LawfulThreadType Thread]
    (growth : Growth) (workload : Caller → Nat) :
    (Isolated Thread growth workload ↔
      ∀ left right, 0 < workload left → 0 < workload right → left = right) ∧
    ∀ actions, (concurrent Thread growth workload).EachStep SpawnLaw
        (concurrent Thread growth workload).initial actions ↔
      (concurrent Thread growth workload).EachStep
        (fun source action _ => AppendGuard source action)
        (concurrent Thread growth workload).initial actions := by
  refine ⟨⟨?_, isolated_of_single⟩, eachStep_spawnLaw_iff⟩
  intro isolated left right leftBusy rightBusy
  by_contra different
  exact not_isolated_of_two different leftBusy rightBusy isolated

end Lawful

theorem spawn_isolated_iff_stdThread :
    (Isolated StdThread Growth.doubling (fun caller : Nat => if caller = 0 then 3 else 0) ↔
      ∀ left right : Nat, 0 < (if left = 0 then 3 else 0) → 0 < (if right = 0 then 3 else 0) →
        left = right) ∧
    ∀ actions, (concurrent StdThread Growth.doubling fun caller : Nat =>
        if caller = 0 then 3 else 0).EachStep SpawnLaw
        (concurrent StdThread Growth.doubling fun caller : Nat =>
          if caller = 0 then 3 else 0).initial actions ↔
      (concurrent StdThread Growth.doubling fun caller : Nat =>
        if caller = 0 then 3 else 0).EachStep (fun source action _ => AppendGuard source action)
        (concurrent StdThread Growth.doubling fun caller : Nat =>
          if caller = 0 then 3 else 0).initial actions :=
  spawn_isolated_iff StdThread Growth.doubling fun caller => if caller = 0 then 3 else 0

/-- Caller 0 created thread 0 and is handed the element of thread 1. -/
theorem spawn_returns_other_thread :
    ¬ Isolated StdThread Growth.doubling (fun _ : Nat => 1) := by
  intro isolated
  have law := (isolated [.acquire 0, .release 0, .acquire 1, .release 1, .append 0, .append 1,
    .back 0] _ rfl).1
  obtain ⟨own, returned⟩ := law [.acquire 0, .release 0, .acquire 1, .release 1, .append 0,
    .append 1] (.back 0) [] _ _ rfl rfl rfl
  have mismatch : [(⟨0, 0, some 1⟩ : Return Nat)] = [⟨0, own, some own⟩] := returned
  simp only [List.cons.injEq, Return.mk.injEq, Option.some.injEq, and_true, true_and] at mismatch
  exact absurd (mismatch.1.trans mismatch.2.symm) (by decide)

end Libpreempt.Preempt.PolyTask
