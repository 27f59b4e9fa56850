import Libpreempt.Preempt.PolyTask
import Mathlib.Data.Option.Basic

/-! What a `join()` of a `poly_task` meets depends on the joins before it: the
vector keeps the elements that were already joined. -/

set_option autoImplicit false

namespace Libpreempt.Preempt.PolyTask

open Libpreempt.Stdlib Libpreempt.Transition

variable {Thread : Type} [ThreadType Thread]

/-- The threads that the elements represent; `none` is a joined element. -/
def ids (task : PolyTask Thread) : List (Option ThreadId) :=
  task.threads.elements.map ThreadType.getId

def AllJoinable (task : PolyTask Thread) : Prop :=
  ∀ thread ∈ task.threads.elements, ThreadType.joinable thread = true

@[simp] theorem ids_empty : (empty : PolyTask Thread).ids = [] := rfl

theorem length_ids_join (task : PolyTask Thread) :
    task.join.1.ids.length = task.ids.length := by
  simp [join, ids, length_joinEach]

@[simp] theorem perform_spawn_created (growth : Growth) (session : Session Thread)
    (constructed : Bool) :
    (session.perform growth (.spawn constructed)).created =
      session.created + if constructed then 1 else 0 := by
  cases constructed <;> simp [Session.perform, ThreadType.construct, spawn, Except.map]

@[simp] theorem perform_spawn_joined (growth : Growth) (session : Session Thread)
    (constructed : Bool) :
    (session.perform growth (.spawn constructed)).joined = session.joined := by
  cases constructed <;> simp [Session.perform, ThreadType.construct, spawn, Except.map]

/-- Every spawned thread was joined or is still represented by an element. -/
def Session.Covered (session : Session Thread) : Prop :=
  ∀ id < session.created, id ∈ session.joined ∨ some id ∈ session.task.ids

theorem joinLaw_covered (growth : Growth) {session : Session Thread}
    (law : JoinLaw session .join (session.perform growth .join)) :
    (session.perform growth .join).Covered :=
  fun id bound => .inl (law.2.1 id bound)

/-- No `join()` comes after a `join()` of a task that had threads already. -/
def NoRejoin (loaded : Prop) (calls : List Call) : Prop :=
  ∀ before after, calls = before ++ .join :: after →
    loaded ∨ .spawn true ∈ before → .join ∉ after

private theorem noRejoin_spawn (loaded : Prop) (constructed : Bool) (calls : List Call) :
    NoRejoin loaded (.spawn constructed :: calls) ↔
      NoRejoin (loaded ∨ constructed = true) calls := by
  constructor
  · intro single before after shape early
    apply single (.spawn constructed :: before) after (by simp [shape])
    rcases early with (loaded | rfl) | earlier
    · exact .inl loaded
    · exact .inr (List.mem_cons_self ..)
    · exact .inr (List.mem_cons_of_mem _ earlier)
  · intro single before after shape early
    cases before with
    | nil => cases shape
    | cons first before =>
        obtain ⟨rfl, rfl⟩ : .spawn constructed = first ∧ calls = before ++ .join :: after := by
          simpa using shape
        apply single before after rfl
        rcases early with loaded | member
        · exact .inl (.inl loaded)
        · rcases List.mem_cons.mp member with same | earlier
          · cases same
            exact .inl (.inr rfl)
          · exact .inr earlier

private theorem noRejoin_join (loaded : Prop) (calls : List Call) :
    NoRejoin loaded (.join :: calls) ↔
      (loaded → .join ∉ calls) ∧ NoRejoin loaded calls := by
  constructor
  · intro single
    refine ⟨fun loaded => single [] calls rfl (.inl loaded), ?_⟩
    intro before after shape early
    exact single (.join :: before) after (by simp [shape])
      (early.imp_right (List.mem_cons_of_mem _))
  · rintro ⟨first, rest⟩ before after shape early
    cases before with
    | nil =>
        obtain rfl : calls = after := by simpa using shape
        exact first (early.resolve_right List.not_mem_nil)
    | cons head before =>
        obtain ⟨rfl, rfl⟩ : .join = head ∧ calls = before ++ .join :: after := by
          simpa using shape
        refine rest before after rfl (early.imp_right fun member => ?_)
        exact (List.mem_cons.mp member).resolve_left (by simp)

def JoinGuard (session : Session Thread) (call : Call) : Prop :=
  call = .join → session.task.AllJoinable

section Lawful

variable [LawfulThreadType Thread]

@[simp] theorem ids_append (growth : Growth) (task : PolyTask Thread) (temporary : Thread) :
    (task.append growth temporary).ids = task.ids ++ [ThreadType.getId temporary] := by
  simp [ids, append, StdVector.map_emplaceBack ThreadType.getId growth
    LawfulThreadType.getId_moveConstruct]

theorem getId_back_append (growth : Growth) (task : PolyTask Thread) (temporary : Thread) :
    (task.append growth temporary).back.bind ThreadType.getId = ThreadType.getId temporary := by
  simp [back, append, StdVector.getLast?_emplaceBack]

theorem allJoinable_iff (task : PolyTask Thread) :
    task.AllJoinable ↔ none ∉ task.ids := by
  simp only [AllJoinable, ids, List.mem_map, not_exists, not_and]
  refine forall₂_congr fun thread _ => ?_
  rw [← joinable_eq_false_iff, Bool.not_eq_false]

theorem joinable_eq_false_iff_ids (task : PolyTask Thread) :
    task.joinable = false ↔ ∀ id ∈ task.ids, id = none := by
  simp only [joinable, ids, List.any_eq_false, List.mem_map, forall_exists_index, and_imp,
    forall_apply_eq_imp_iff₂, Bool.not_eq_true, joinable_eq_false_iff]

/-!
## The loop of `join`
-/

/-- The loop reaches the end of the vector exactly when it meets no element
that was joined before. -/
theorem joinEach_error_eq_none_iff (threads : List Thread) :
    (joinEach threads).error = none ↔
      ∀ thread ∈ threads, ThreadType.joinable thread = true := by
  induction threads with
  | nil => simp [joinEach]
  | cons thread rest ih =>
      cases active : ThreadType.joinable thread with
      | false =>
          simp [joinEach, LawfulThreadType.join_notJoinable thread active, active]
      | true =>
          obtain ⟨joined, returned, _⟩ := LawfulThreadType.join_joinable thread active
          simp [joinEach, returned, active, ih]

theorem joinEach_joined {threads : List Thread}
    (active : ∀ thread ∈ threads, ThreadType.joinable thread = true) :
    (joinEach threads).joined.map some = threads.map ThreadType.getId := by
  induction threads with
  | nil => rfl
  | cons thread rest ih =>
      have first := active thread (List.mem_cons_self ..)
      obtain ⟨joined, returned, _⟩ := LawfulThreadType.join_joinable thread first
      obtain ⟨id, known⟩ := joinable_eq_true_iff.mp first
      simp [joinEach, returned, known,
        ih fun thread member => active thread (List.mem_cons_of_mem _ member)]

theorem joinEach_getId {threads : List Thread}
    (active : ∀ thread ∈ threads, ThreadType.joinable thread = true) :
    ∀ thread ∈ (joinEach threads).threads, ThreadType.getId thread = none := by
  induction threads with
  | nil => simp [joinEach]
  | cons thread rest ih =>
      obtain ⟨joined, returned, gone⟩ :=
        LawfulThreadType.join_joinable thread (active thread (List.mem_cons_self ..))
      simpa [joinEach, returned, gone] using
        ih fun thread member => active thread (List.mem_cons_of_mem _ member)

theorem joinEach_getElem? {threads : List Thread} {index : Nat} {thread : Thread}
    (present : (joinEach threads).threads[index]? = some thread) :
    ThreadType.getId thread = none ∨ threads[index]? = some thread := by
  induction threads generalizing index with
  | nil => exact .inr present
  | cons first rest ih =>
      cases active : ThreadType.joinable first with
      | false =>
          rw [joinEach, LawfulThreadType.join_notJoinable first active] at present
          exact .inr present
      | true =>
          obtain ⟨joined, returned, gone⟩ := LawfulThreadType.join_joinable first active
          rw [joinEach, returned] at present
          cases index with
          | zero =>
              cases present
              exact .inl gone
          | succ index => exact ih present

theorem join_error_eq_none_iff (task : PolyTask Thread) :
    task.join.2.2 = none ↔ task.AllJoinable :=
  joinEach_error_eq_none_iff task.threads.elements

theorem join_joined {task : PolyTask Thread} (active : task.AllJoinable) :
    task.join.2.1.map some = task.ids :=
  joinEach_joined active

theorem ids_join {task : PolyTask Thread} (active : task.AllJoinable) :
    ∀ id ∈ task.join.1.ids, id = none := by
  intro id member
  obtain ⟨thread, included, rfl⟩ := List.mem_map.mp member
  exact joinEach_getId active thread included

/-!
## The calls of one caller
-/

@[simp] theorem perform_spawn_ids (growth : Growth) (session : Session Thread)
    (constructed : Bool) :
    (session.perform growth (.spawn constructed)).task.ids =
      session.task.ids ++ if constructed then [some session.created] else [] := by
  cases constructed <;> simp [Session.perform, ThreadType.construct, spawn, Except.map]

theorem covered_spawn (growth : Growth) {session : Session Thread} (covered : session.Covered)
    (constructed : Bool) : (session.perform growth (.spawn constructed)).Covered := by
  intro id bound
  rw [perform_spawn_created] at bound
  rw [perform_spawn_joined, perform_spawn_ids, List.mem_append]
  cases constructed with
  | false => exact (covered id bound).imp_right .inl
  | true =>
      rcases Nat.lt_succ_iff_lt_or_eq.mp bound with earlier | rfl
      · exact (covered id earlier).imp_right .inl
      · exact .inr (.inr (List.mem_singleton.mpr rfl))

theorem joinLaw_iff (growth : Growth) {session : Session Thread} (covered : session.Covered) :
    JoinLaw session .join (session.perform growth .join) ↔ session.task.AllJoinable := by
  constructor
  · intro law
    exact session.task.join_error_eq_none_iff.mp law.1
  · intro active
    refine ⟨session.task.join_error_eq_none_iff.mpr active, ?_, ?_⟩
    · intro id bound
      change id ∈ session.joined ++ session.task.join.2.1
      rcases covered id bound with joined | present
      · exact List.mem_append_left _ joined
      · rw [← join_joined active, List.mem_map_of_injective (Option.some_injective _)] at present
        exact List.mem_append_right _ present
    · exact (joinable_eq_false_iff_ids _).mpr (ids_join active)

private theorem guarded_stale (growth : Growth) {session : Session Thread}
    (stale : none ∈ session.task.ids) (calls : List Call) :
    (machine Thread growth).EachStep (fun source call _ => JoinGuard source call) session calls ↔
      .join ∉ calls := by
  induction calls generalizing session with
  | nil => simp [Machine.eachStep_nil]
  | cons call calls ih =>
      rw [Machine.eachStep_cons_of_step rfl]
      cases call with
      | spawn constructed =>
          have later : none ∈ (session.perform growth (.spawn constructed)).task.ids := by
            rw [perform_spawn_ids]
            exact List.mem_append_left _ stale
          rw [ih later]
          simp [JoinGuard]
      | join =>
          have blocked : ¬ session.task.AllJoinable := by
            rw [allJoinable_iff]
            exact not_not_intro stale
          simp [JoinGuard, blocked]

private theorem guarded_iff (growth : Growth) {session : Session Thread}
    (active : session.task.AllJoinable) (calls : List Call) :
    (machine Thread growth).EachStep (fun source call _ => JoinGuard source call) session calls ↔
      NoRejoin (session.task.ids ≠ []) calls := by
  induction calls generalizing session with
  | nil => simp [Machine.eachStep_nil, NoRejoin]
  | cons call calls ih =>
      rw [Machine.eachStep_cons_of_step rfl]
      cases call with
      | spawn constructed =>
          have later : (session.perform growth (.spawn constructed)).task.AllJoinable := by
            rw [allJoinable_iff] at active ⊢
            cases constructed <;> simpa using active
          have loaded : (session.perform growth (.spawn constructed)).task.ids ≠ [] ↔
              session.task.ids ≠ [] ∨ constructed = true := by
            cases constructed <;> simp
          rw [noRejoin_spawn, ← loaded, ← ih later]
          simp [JoinGuard]
      | join =>
          have size := length_ids_join session.task
          rw [noRejoin_join]
          by_cases bare : session.task.ids = []
          · have same : (session.perform growth .join).task.ids = [] := by
              rw [bare] at size
              exact List.length_eq_zero_iff.mp size
            have later : (session.perform growth .join).task.AllJoinable := by
              rw [allJoinable_iff, same]
              exact List.not_mem_nil
            rw [ih later, same, bare]
            simp [JoinGuard, active]
          · have stale : none ∈ (session.perform growth .join).task.ids := by
              obtain ⟨id, member⟩ := List.exists_mem_of_length_pos
                (size ▸ List.length_pos_iff.mpr bare)
              exact ids_join active id member ▸ member
            rw [guarded_stale growth stale]
            constructor
            · rintro ⟨_, absent⟩
              refine ⟨fun _ => absent, ?_⟩
              intro before after shape _ member
              exact absent (by simp [shape])
            · rintro ⟨absent, _⟩
              exact ⟨fun _ => active, absent bare⟩

/-- A sequence of calls keeps the promise of every `join()` exactly when no
`join()` follows an earlier `join()` of a task with a spawned thread. -/
theorem join_law_iff (Thread : Type) [ThreadType Thread] [LawfulThreadType Thread]
    (growth : Growth) (calls : List Call) :
    (machine Thread growth).EachStep JoinLaw (machine Thread growth).initial calls ↔
      ∀ before after, calls = before ++ .join :: after →
        .spawn true ∈ before → .join ∉ after := by
  have guarded : (machine Thread growth).EachStep JoinLaw (machine Thread growth).initial calls ↔
      (machine Thread growth).EachStep (fun source call _ => JoinGuard source call)
        (machine Thread growth).initial calls := by
    refine Machine.eachStep_iff_guarded Session.Covered ?_ ?_ ?_ calls
    · rintro source call target covered stepped
      cases stepped
      cases call with
      | spawn constructed => simp [JoinLaw, JoinGuard]
      | join => simp [JoinGuard, joinLaw_iff growth covered]
    · rintro source call target covered stepped law
      cases stepped
      cases call with
      | spawn constructed => exact covered_spawn growth covered constructed
      | join => exact joinLaw_covered growth law
    · intro id bound
      exact absurd bound (Nat.not_lt_zero id)
  have fresh : (machine Thread growth).initial.task.AllJoinable := by
    intro thread member
    exact absurd member List.not_mem_nil
  rw [guarded, guarded_iff growth fresh]
  simp [NoRejoin, machine]

end Lawful

theorem join_law_iff_stdThread :
    (machine StdThread Growth.doubling).EachStep JoinLaw
        (machine StdThread Growth.doubling).initial [.join, .spawn true, .spawn true, .join] ↔
      ∀ before after, [.join, .spawn true, .spawn true, .join] = before ++ .join :: after →
        Call.spawn true ∈ before → Call.join ∉ after :=
  join_law_iff StdThread Growth.doubling [.join, .spawn true, .spawn true, .join]

/-- The second `join()` meets the element that the first one joined. -/
theorem join_law_fails_on_rejoin :
    ¬ ∀ calls, (machine StdThread Growth.doubling).EachStep JoinLaw
      (machine StdThread Growth.doubling).initial calls := by
  intro law
  have second := law [.spawn true, .join, .join] [.spawn true, .join] .join [] _ _ rfl rfl rfl
  have error : some SystemError.invalidArgument = none := second.1
  cases error

end Libpreempt.Preempt.PolyTask
