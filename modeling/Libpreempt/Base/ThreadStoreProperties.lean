import Libpreempt.Base.ThreadStore
import Libpreempt.Base.ThreadingProperties

/-! A `join()` clears the flag of one value only. The other copies keep theirs,
so the flag tells that this value has not joined its thread. -/

set_option autoImplicit false

namespace Libpreempt.Base

open Libpreempt.Transition

variable {Var : Type} [DecidableEq Var] {strerror : Int → StdString}

theorem Store.value_assign (store : Store Var) (target other : Var) (thread : Thread) :
    (store.assign target thread).value other =
      if other = target then thread else store.value other := by
  simp [Store.assign, Function.update_apply]

theorem flagged_assign {ids : List PthreadId} {store : Store Var} {target : Var} {thread : Thread}
    (new : thread.joinable = true → thread.id ∈ ids)
    (old : ∀ var, var ≠ target → (store.value var).joinable = true → (store.value var).id ∈ ids)
    (var : Var) (active : ((store.assign target thread).value var).joinable = true) :
    ((store.assign target thread).value var).id ∈ ids := by
  rw [Store.value_assign] at active ⊢
  by_cases same : var = target
  · rw [if_pos same] at active ⊢
    exact new active
  · rw [if_neg same] at active ⊢
    exact old var same active

/-- What an operation does to the store. A construction that creates no thread
assigns, like the default construction, a value that is not joinable. -/
inductive Store.Effect (strerror : Int → StdString) (store : Store Var) :
    Operation Var → Store Var → Prop where
  | cleared {operation : Operation Var} {target : Var} {thread : Thread}
      (other : ∀ var errnum, operation ≠ .join var errnum) (inactive : thread.joinable = false) :
      Effect strerror store operation (store.assign target thread)
  | created {operation : Operation Var} {target : Var} {thread : Thread}
      (other : ∀ var errnum, operation ≠ .join var errnum) (fresh : thread.id ∉ store.live) :
      Effect strerror store operation { store.assign target thread with
        created := thread.id :: store.created, live := thread.id :: store.live }
  | copied {target source : Var} :
      Effect strerror store (.copy target source) (store.assign target (store.value source))
  | joined {target : Var} {errnum : Int} (active : (store.value target).joinable = true) :
      Effect strerror store (.join target errnum)
        { store.assign target ((store.value target).join strerror errnum) with
          live := if errnum = 0 then store.live.filter (· ≠ (store.value target).id)
            else store.live }

theorem Store.perform_effect {store next : Store Var} {operation : Operation Var}
    (performed : store.perform strerror operation = some next) :
    store.Effect strerror operation next := by
  cases operation with
  | default target =>
      cases performed
      exact .cleared (by simp) rfl
  | construct target policy priority funp results =>
      cases Thread.construct_outcome strerror policy priority funp results with
      | refused absent inactive _ =>
          simp only [Store.perform, absent, Option.isSome_none, Bool.false_eq_true, if_false,
            Option.some.injEq] at performed
          subst next
          exact .cleared (by simp) inactive
      | created present active id =>
          simp only [Store.perform, present, Option.isSome_some, if_true] at performed
          split at performed
          · cases performed
          · rename_i fresh
            cases performed
            rw [← id] at fresh ⊢
            exact .created (by simp) fresh
  | copy target source =>
      cases performed
      exact .copied
  | join target errnum =>
      simp only [Store.perform] at performed
      split at performed
      · rename_i active
        cases performed
        exact .joined active
      · cases performed

theorem joinable_created {store : Store Var} (reached : (threadValues Var strerror).Reachable store)
    {var : Var} (active : (store.value var).joinable = true) :
    (store.value var).id ∈ store.created := by
  have known := reached.invariant
    (fun store => ∀ var, (store.value var).joinable = true → (store.value var).id ∈ store.created)
    (fun var active => by cases active) (by
    intro source operation target _ known performed
    cases Store.perform_effect performed with
    | cleared _ inactive =>
        exact flagged_assign (fun active => by simp [inactive] at active) fun var _ => known var
    | created _ _ =>
        exact flagged_assign (fun _ => List.mem_cons_self ..)
          fun var _ active => List.mem_cons_of_mem _ (known var active)
    | copied => exact flagged_assign (known _) fun var _ => known var
    | joined before =>
        refine flagged_assign (fun _ => ?_) fun var _ => known var
        rw [Thread.join_id]
        exact known _ before)
  exact known var active

/-- A `join()` that succeeds clears the flag of its value, and none touches another value. -/
theorem value_after_join {store next : Store Var} {target : Var} {errnum : Int}
    (performed : store.perform strerror (.join target errnum) = some next) :
    (errnum = 0 → (next.value target).joinable = false) ∧
      ∀ other, other ≠ target → next.value other = store.value other := by
  cases Store.perform_effect performed with
  | cleared other _ => exact absurd rfl (other target errnum)
  | created other _ => exact absurd rfl (other target errnum)
  | joined _ =>
      refine ⟨?_, ?_⟩
      · rintro rfl
        simp [Store.value_assign, Thread.join_joinable]
      · intro other different
        rw [Store.value_assign, if_neg different]

private theorem flagLaw_join_iff {store : Store Var} {target : Var} (sound : store.Sound)
    (before : (store.value target).joinable = true) :
    FlagLaw store (.join target 0)
        { store.assign target ((store.value target).join strerror 0) with
          live := store.live.filter (· ≠ (store.value target).id) } ↔
      SoleGuard store (.join target 0) := by
  constructor
  · rintro ⟨after, _⟩ var same other different active together
    cases same
    have kept := after other (by simpa [Store.value_assign, different] using active)
    simp [Store.value_assign, different, together] at kept
  · intro sole
    refine ⟨flagged_assign (fun active => ?_) fun var different active => ?_, ?_⟩
    · simp [Thread.join_joinable] at active
    · exact List.mem_filter.mpr
        ⟨sound var active, by simpa using sole target rfl var different active⟩
    · rintro var number same
      cases same
      exact sound target before

private theorem flagLaw_iff {store next : Store Var} {operation : Operation Var}
    (sound : store.Sound) (performed : store.perform strerror operation = some next) :
    FlagLaw store operation next ↔ SoleGuard store operation := by
  cases Store.perform_effect performed with
  | cleared other inactive =>
      refine iff_of_true ⟨?_, fun var errnum same => absurd same (other var errnum)⟩
        fun var same => absurd same (other var 0)
      exact flagged_assign (fun active => by simp [inactive] at active) fun var _ => sound var
  | created other _ =>
      refine iff_of_true ⟨?_, fun var errnum same => absurd same (other var errnum)⟩
        fun var same => absurd same (other var 0)
      exact flagged_assign (fun _ => List.mem_cons_self ..)
        fun var _ active => List.mem_cons_of_mem _ (sound var active)
  | copied =>
      refine iff_of_true ⟨?_, by simp⟩ (by simp [SoleGuard])
      exact flagged_assign (sound _) fun var _ => sound var
  | @joined target errnum before =>
      by_cases failed : errnum = 0
      · subst failed
        exact flagLaw_join_iff sound before
      · refine iff_of_true ⟨?_, ?_⟩ ?_
        · simp only [if_neg failed]
          refine flagged_assign (fun _ => ?_) fun var _ => sound var
          rw [Thread.join_id]
          exact sound target before
        · rintro var number same
          cases same
          exact sound target before
        · rintro var same
          exact absurd (Operation.join.inj same).2 failed

theorem flag_law_iff (operations : List (Operation Var)) :
    (threadValues Var strerror).EachStep FlagLaw (threadValues Var strerror).initial operations ↔
      (threadValues Var strerror).EachStep (fun source operation _ => SoleGuard source operation)
        (threadValues Var strerror).initial operations := by
  refine Machine.eachStep_iff_guarded Store.Sound ?_ ?_ ?_ operations
  · intro source operation target sound performed
    exact flagLaw_iff sound performed
  · intro source operation target _ _ law
    exact law.1
  · intro var active
    cases active

/-- What the flag of a value means: the thread was created by `pthread_create`
and this value did not join it, whatever the copies of the value did. Only while
a thread is joined through its last flagged copy does the flag also mean that the
thread is still to be joined. -/
theorem thread_flag (strerror : Int → StdString) :
    (∀ store, (threadValues Var strerror).Reachable store →
      ∀ var, (store.value var).joinable = true → (store.value var).id ∈ store.created) ∧
    (∀ store next target errnum,
      (threadValues Var strerror).step store (.join target errnum) = some next →
      (errnum = 0 → (next.value target).joinable = false) ∧
        ∀ other, other ≠ target → next.value other = store.value other) ∧
    ∀ operations, (threadValues Var strerror).EachStep FlagLaw
        (threadValues Var strerror).initial operations ↔
      (threadValues Var strerror).EachStep (fun source operation _ => SoleGuard source operation)
        (threadValues Var strerror).initial operations :=
  ⟨fun _ reached _ active => joinable_created reached active,
    fun _ _ _ _ performed => value_after_join performed, flag_law_iff⟩

/-- Value 1 joins the thread that it shares with values 0 and 2. -/
theorem thread_flag_copies :
    ∃ store next, (threadValues Nat fun _ => []).run (threadValues Nat fun _ => []).initial
        [.construct 0 schedFifo 1 true { id := 7 }, .copy 1 0, .copy 2 1] = some store ∧
      (threadValues Nat fun _ => []).step store (.join 1 0) = some next ∧
      (store.value 2).id ∈ store.created ∧ (next.value 1).joinable = false ∧
      next.value 0 = store.value 0 ∧ next.value 2 = store.value 2 ∧
      ((threadValues Nat fun _ => []).EachStep FlagLaw (threadValues Nat fun _ => []).initial
          [.construct 0 schedFifo 1 true {}, .copy 1 0, .join 0 0] ↔
        (threadValues Nat fun _ => []).EachStep
          (fun source operation _ => SoleGuard source operation)
          (threadValues Nat fun _ => []).initial
          [.construct 0 schedFifo 1 true {}, .copy 1 0, .join 0 0]) := by
  obtain ⟨store, next, ran, stepped, active⟩ :
      ∃ store next, (threadValues Nat fun _ => []).run (threadValues Nat fun _ => []).initial
          [.construct 0 schedFifo 1 true { id := 7 }, .copy 1 0, .copy 2 1] = some store ∧
        (threadValues Nat fun _ => []).step store (.join 1 0) = some next ∧
        (store.value 2).joinable = true := ⟨_, _, rfl, rfl, rfl⟩
  obtain ⟨created, joined, guarded⟩ := @thread_flag Nat _ fun _ => []
  obtain ⟨cleared, kept⟩ := joined store next 1 0 stepped
  exact ⟨store, next, ran, stepped, created store ⟨_, ran⟩ 2 active, cleared rfl,
    kept 0 (by decide), kept 2 (by decide), guarded _⟩

/-- Value 1 is a copy of value 0; it still reports joinable after value 0
joined the thread, and its own `join()` passes the joined thread. -/
theorem copy_keeps_flag :
    ¬ ∀ operations, (threadValues Nat fun _ => []).EachStep FlagLaw
      (threadValues Nat fun _ => []).initial operations := by
  intro law
  have passed := (law [.construct 0 schedFifo 1 true {}, .copy 1 0, .join 0 0, .join 1 0]
    [.construct 0 schedFifo 1 true {}, .copy 1 0, .join 0 0] (.join 1 0) [] _ _ rfl rfl rfl).2
    1 0 rfl
  exact absurd passed (by decide)

end Libpreempt.Base
