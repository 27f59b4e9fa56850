import Libpreempt.Preempt.MonoTaskConcurrency

/-! A `mono_task` is a slot for one function. Only the thread that the task or
the caller's temporary holds can have an unfinished function, and it is the
newest thread. -/

set_option autoImplicit false

namespace Libpreempt.Preempt.MonoTask

open Libpreempt.Stdlib Libpreempt.Transition

section

variable {Thread : Type} [ThreadType Thread]

def Shared.Placed (shared : Shared Thread) : Prop :=
  match shared.point with
  | .joining _ => shared.task.joinable = true
  | .constructing => shared.task.joinable = false
  | .assigning temporary =>
      shared.task.joinable = false ∧ ∃ id, ThreadType.getId temporary = some id
  | _ => True

structure Shared.Valid (shared : Shared Thread) : Prop where
  healthy : shared.fault = none
  bounded : ∀ id ∈ shared.begun, id < shared.created
  started : ∀ id ∈ shared.finished, id ∈ shared.begun
  newest : ∀ id, shared.holder = some id → id + 1 = shared.created
  others : ∀ id < shared.created, shared.holder ≠ some id → id ∈ shared.finished
  placed : shared.Placed

inductive Effect (source : Shared Thread) : Action → Shared Thread → Prop where
  | called {operation : Operation} (place : source.point = .idle) :
      Effect source (.call operation) { source with point := .testing operation }
  | passed {operation : Operation} (place : source.point = .testing operation)
      (inactive : source.task.joinable = false) :
      Effect source .test { source with point := operation.after }
  | blocked {operation : Operation} (place : source.point = .testing operation)
      (active : source.task.joinable = true) :
      Effect source .test { source with point := .joining operation }
  | joined {operation : Operation} {id : ThreadId} {thread : Thread}
      (place : source.point = .joining operation)
      (known : ThreadType.getId source.task.thread = some id) (ended : id ∈ source.finished)
      (returned : ThreadType.join source.task.thread = .ok thread)
      (gone : ThreadType.getId thread = none) :
      Effect source .joined { source with task := ⟨thread⟩, point := operation.after }
  | created (place : source.point = .constructing) :
      Effect source (.construct true)
        { source with
          point := .assigning (ThreadType.launched source.created)
          created := source.created + 1 }
  | threw (place : source.point = .constructing) :
      Effect source (.construct false) { source with point := .idle }
  | assigned {temporary thread : Thread} (place : source.point = .assigning temporary)
      (moved : ThreadType.moveAssign source.task.thread temporary = some thread)
      (same : ThreadType.getId thread = ThreadType.getId temporary) :
      Effect source .assign { source with task := ⟨thread⟩, point := .idle }
  | begun {id : ThreadId} (bound : id < source.created) (fresh : id ∉ source.begun) :
      Effect source (.begin id) { source with begun := source.begun ++ [id] }
  | finished {id : ThreadId} (running : id ∈ source.begun) (fresh : id ∉ source.finished) :
      Effect source (.finish id) { source with finished := source.finished ++ [id] }

/-!
## The invariant
-/

theorem holder_of_point {shared : Shared Thread}
    (settled : ∀ temporary, shared.point ≠ .assigning temporary) :
    shared.holder = ThreadType.getId shared.task.thread := by
  unfold Shared.holder
  cases place : shared.point with
  | assigning temporary => exact absurd place (settled temporary)
  | idle | testing | joining | constructing => rfl

theorem Shared.Valid.move {shared : Shared Thread} (valid : shared.Valid) {point : Point Thread}
    (before : ∀ temporary, shared.point ≠ .assigning temporary)
    (after : ∀ temporary, point ≠ .assigning temporary)
    (placed : Shared.Placed { shared with point }) : Shared.Valid { shared with point } := by
  have same : Shared.holder { shared with point } = shared.holder := by
    rw [holder_of_point before, holder_of_point after]
  exact ⟨valid.healthy, valid.bounded, valid.started, fun id held => valid.newest id (same ▸ held),
    fun id bound other => valid.others id bound (same ▸ other), placed⟩

theorem Shared.Valid.release {shared : Shared Thread} (valid : shared.Valid) {id : ThreadId}
    {thread : Thread} {point : Point Thread} (held : shared.holder = some id)
    (ended : id ∈ shared.finished) (gone : ThreadType.getId thread = none)
    (after : ∀ temporary, point ≠ .assigning temporary)
    (placed : Shared.Placed { shared with task := ⟨thread⟩, point }) :
    Shared.Valid { shared with task := ⟨thread⟩, point } := by
  have vacant : Shared.holder { shared with task := ⟨thread⟩, point } = none := by
    rw [holder_of_point after]
    exact gone
  refine ⟨valid.healthy, valid.bounded, valid.started, ?_, ?_, placed⟩
  · intro other present
    rw [vacant] at present
    cases present
  · intro other bound _
    by_cases same : other = id
    · rw [same]
      exact ended
    · apply valid.others other bound
      rw [held]
      intro equal
      exact same (Option.some.inj equal).symm

/-!
## The slot
-/

theorem Shared.Valid.all_finished [LawfulThreadType Thread] {shared : Shared Thread}
    (valid : shared.Valid) (rest : shared.point = .idle) (inactive : shared.task.joinable = false)
    (id : ThreadId) (bound : id < shared.created) : id ∈ shared.finished := by
  apply valid.others id bound
  rw [holder_of_point (by simp [rest]), joinable_eq_false_iff.mp inactive]
  intro none
  cases none

theorem Shared.Valid.holder_of_unfinished {shared : Shared Thread} (valid : shared.Valid)
    {id : ThreadId} (unfinished : shared.Unfinished id) : shared.holder = some id := by
  by_contra other
  exact unfinished.2 (valid.others id unfinished.1 other)

theorem Shared.Valid.finished_before {shared : Shared Thread} (valid : shared.Valid)
    {id earlier : ThreadId} (unfinished : shared.Unfinished id) (before : earlier < id) :
    earlier ∈ shared.finished := by
  apply valid.others earlier (Nat.lt_trans before unfinished.1)
  rw [valid.holder_of_unfinished unfinished]
  intro same
  exact Nat.ne_of_gt before (Option.some.inj same)

theorem slot_move {shared : Shared Thread} {point : Point Thread}
    (before : ∀ temporary, shared.point ≠ .assigning temporary)
    (after : ∀ temporary, point ≠ .assigning temporary) :
    Shared.slot { shared with point } = shared.slot := by
  unfold Shared.slot
  rw [holder_of_point before, holder_of_point after]

theorem slot_eq_vacant {shared : Shared Thread} (vacant : shared.holder = none) :
    shared.slot = .vacant := by
  unfold Shared.slot
  rw [vacant]

theorem slot_eq_done {shared : Shared Thread} {id : ThreadId} (held : shared.holder = some id)
    (ended : id ∈ shared.finished) : shared.slot = .done := by
  simp only [Shared.slot, held, ended, if_true]

theorem slot_eq_running {shared : Shared Thread} {id : ThreadId} (held : shared.holder = some id)
    (begun : id ∈ shared.begun) (pending : id ∉ shared.finished) : shared.slot = .running := by
  simp only [Shared.slot, held, begun, pending, if_true, if_false]

theorem slot_eq_ready {shared : Shared Thread} {id : ThreadId} (held : shared.holder = some id)
    (waiting : id ∉ shared.begun) (pending : id ∉ shared.finished) : shared.slot = .ready := by
  simp only [Shared.slot, held, waiting, pending, if_false]

inductive Occupancy (shared : Shared Thread) : Slot → Prop where
  | vacant (empty : shared.holder = none) : Occupancy shared .vacant
  | ready {id : ThreadId} (held : shared.holder = some id) (waiting : id ∉ shared.begun)
      (pending : id ∉ shared.finished) : Occupancy shared .ready
  | running {id : ThreadId} (held : shared.holder = some id) (begun : id ∈ shared.begun)
      (pending : id ∉ shared.finished) : Occupancy shared .running
  | done {id : ThreadId} (held : shared.holder = some id) (ended : id ∈ shared.finished) :
      Occupancy shared .done

theorem slot_occupancy (shared : Shared Thread) : Occupancy shared shared.slot := by
  cases held : shared.holder with
  | none =>
      rw [slot_eq_vacant held]
      exact .vacant held
  | some id =>
      by_cases ended : id ∈ shared.finished
      · rw [slot_eq_done held ended]
        exact .done held ended
      · by_cases begun : id ∈ shared.begun
        · rw [slot_eq_running held begun ended]
          exact .running held begun ended
        · rw [slot_eq_ready held begun ended]
          exact .ready held begun ended

theorem run_view {source target : Shared Thread} {visible : Visible} {slot after : Slot}
    {point later : Point Unit} (before : source.view = ⟨slot, point⟩)
    (final : target.view = ⟨after, later⟩)
    (stepped : Monopoly.step ⟨slot, point⟩ visible = some ⟨after, later⟩) :
    monopoly.run source.view [visible] = some target.view := by
  rw [before, final]
  simp [monopoly, stepped]

theorem view_eq {shared : Shared Thread} {slot : Slot} {point : Point Thread}
    (held : shared.slot = slot) (place : shared.point = point) :
    shared.view = ⟨slot, point.erase⟩ := by
  rw [Shared.view, held, place]

variable [LawfulThreadType Thread]

theorem Shared.Placed.assign {shared : Shared Thread} {temporary : Thread}
    (placed : shared.Placed) (place : shared.point = .assigning temporary) :
    ∃ thread, ThreadType.moveAssign shared.task.thread temporary = some thread ∧
      ThreadType.getId thread = ThreadType.getId temporary := by
  simp only [Shared.Placed, place] at placed
  exact LawfulThreadType.moveAssign_notJoinable shared.task.thread temporary placed.1

theorem step_effect {source target : Shared Thread} {action : Action} (valid : source.Valid)
    (stepped : (concurrent Thread).step source action = some target) :
    Effect source action target := by
  have placed := valid.placed
  simp only [concurrent, valid.healthy, if_true] at stepped
  cases action with
  | call operation =>
      cases place : source.point with
      | idle =>
          simp only [Shared.step, place, Option.some.injEq] at stepped
          subst target
          exact .called place
      | testing | joining | constructing | assigning => simp [Shared.step, place] at stepped
  | test =>
      cases place : source.point with
      | testing operation =>
          simp only [Shared.step, place, Option.some.injEq] at stepped
          subst target
          cases active : source.task.joinable with
          | true => exact .blocked place active
          | false => exact .passed place active
      | idle | joining | constructing | assigning => simp [Shared.step, place] at stepped
  | joined =>
      cases place : source.point with
      | joining operation =>
          simp only [Shared.Placed, place] at placed
          obtain ⟨id, known⟩ := joinable_eq_true_iff.mp placed
          obtain ⟨thread, returned, gone⟩ :=
            LawfulThreadType.join_joinable source.task.thread placed
          simp only [Shared.step, place, known, returned, Option.mem_def, Option.some.injEq,
            forall_eq'] at stepped
          split at stepped
          · rename_i ended
            cases stepped
            exact .joined place known ended returned gone
          · cases stepped
      | idle | testing | constructing | assigning => simp [Shared.step, place] at stepped
  | construct constructed =>
      cases place : source.point with
      | constructing =>
          cases constructed with
          | true =>
              simp only [Shared.step, place, ThreadType.construct, if_true,
                Option.some.injEq] at stepped
              subst target
              exact .created place
          | false =>
              simp only [Shared.step, place, ThreadType.construct, Bool.false_eq_true, if_false,
                Option.some.injEq] at stepped
              subst target
              exact .threw place
      | idle | testing | joining | assigning => simp [Shared.step, place] at stepped
  | assign =>
      cases place : source.point with
      | assigning temporary =>
          obtain ⟨thread, moved, same⟩ := placed.assign place
          simp only [Shared.step, place, moved, Option.some.injEq] at stepped
          subst target
          exact .assigned place moved same
      | idle | testing | joining | constructing => simp [Shared.step, place] at stepped
  | begin id =>
      simp only [Shared.step] at stepped
      split at stepped
      · rename_i allowed
        cases stepped
        exact .begun allowed.1 allowed.2
      · cases stepped
  | finish id =>
      simp only [Shared.step] at stepped
      split at stepped
      · rename_i allowed
        cases stepped
        exact .finished allowed.1 allowed.2
      · cases stepped

theorem Shared.Valid.next {source target : Shared Thread} {action : Action}
    (valid : source.Valid) (effect : Effect source action target) : target.Valid := by
  have placed := valid.placed
  cases effect with
  | called place =>
      exact valid.move (by simp [place]) (by simp) trivial
  | passed place inactive =>
      rename_i operation
      cases operation with
      | spawn => exact valid.move (by simp [place]) (by simp [Operation.after]) inactive
      | join => exact valid.move (by simp [place]) (by simp [Operation.after]) trivial
  | blocked place active =>
      exact valid.move (by simp [place]) (by simp) active
  | joined place known ended returned gone =>
      rename_i operation id thread
      have held : source.holder = some id := by
        rw [holder_of_point (by simp [place]), known]
      cases operation with
      | spawn =>
          exact valid.release held ended gone (by simp [Operation.after])
            (joinable_eq_false_iff.mpr gone)
      | join => exact valid.release held ended gone (by simp [Operation.after]) trivial
  | created place =>
      simp only [Shared.Placed, place] at placed
      have vacant : source.holder = none := by
        rw [holder_of_point (by simp [place])]
        exact joinable_eq_false_iff.mp placed
      have held : Shared.holder { source with
          point := .assigning (ThreadType.launched source.created)
          created := source.created + 1 } = some source.created :=
        LawfulThreadType.getId_launched source.created
      refine ⟨valid.healthy, ?_, valid.started, ?_, ?_, ?_⟩
      · intro id member
        exact Nat.lt_succ_of_lt (valid.bounded id member)
      · intro id present
        rw [held] at present
        cases present
        rfl
      · intro id bound other
        rcases Nat.lt_succ_iff_lt_or_eq.mp bound with earlier | same
        · exact valid.others id earlier (by simp [vacant])
        · rw [held, same] at other
          exact absurd rfl other
      · exact ⟨placed, source.created, LawfulThreadType.getId_launched source.created⟩
  | threw place =>
      exact valid.move (by simp [place]) (by simp) trivial
  | assigned place moved same =>
      rename_i temporary thread
      have kept : Shared.holder { source with task := ⟨thread⟩, point := .idle } =
          source.holder := by
        simp only [Shared.holder, place]
        exact same
      exact ⟨valid.healthy, valid.bounded, valid.started,
        fun id held => valid.newest id (kept ▸ held),
        fun id bound other => valid.others id bound (kept ▸ other), trivial⟩
  | begun bound fresh =>
      rename_i id
      refine ⟨valid.healthy, ?_, ?_, valid.newest, valid.others, valid.placed⟩
      · intro other member
        rcases List.mem_append.mp member with old | new
        · exact valid.bounded other old
        · rw [List.mem_singleton.mp new]
          exact bound
      · intro other member
        exact List.mem_append_left _ (valid.started other member)
  | finished running fresh =>
      rename_i id
      refine ⟨valid.healthy, valid.bounded, ?_, valid.newest, ?_, valid.placed⟩
      · intro other member
        rcases List.mem_append.mp member with old | new
        · exact valid.started other old
        · rw [List.mem_singleton.mp new]
          exact running
      · intro other bound different
        exact List.mem_append_left _ (valid.others other bound different)

theorem valid_initial : (concurrent Thread).initial.Valid := by
  have vacant : (concurrent Thread).initial.holder = none :=
    LawfulThreadType.getId_empty
  refine ⟨rfl, ?_, ?_, ?_, ?_, trivial⟩
  · intro id member
    cases member
  · intro id member
    cases member
  · intro id held
    rw [vacant] at held
    cases held
  · intro id bound
    exact absurd bound (Nat.not_lt_zero id)

theorem valid_of_reachable {shared : Shared Thread}
    (reached : (concurrent Thread).Reachable shared) : shared.Valid :=
  reached.invariant Shared.Valid valid_initial fun _ _ _ _ valid stepped =>
    valid.next (step_effect valid stepped)

/-!
## The task is a slot
-/

/-- The slot follows every step of the task. -/
theorem view_step {source target : Shared Thread} {action : Action} (valid : source.Valid)
    (effect : Effect source action target) :
    monopoly.run source.view action.erase = some target.view := by
  have placed := valid.placed
  cases effect with
  | called place =>
      rename_i operation
      have same := @slot_move Thread _ source (.testing operation) (by simp [place]) (by simp)
      exact run_view (view_eq rfl place) (view_eq same rfl) rfl
  | passed place inactive =>
      rename_i operation
      have vacant : source.slot = .vacant := by
        apply slot_eq_vacant
        rw [holder_of_point (by simp [place])]
        exact joinable_eq_false_iff.mp inactive
      have same := @slot_move Thread _ source operation.after (by simp [place])
        (by cases operation <;> simp [Operation.after])
      apply run_view (view_eq vacant place) (view_eq (same.trans vacant) rfl)
      cases operation with
      | spawn | join => rfl
  | blocked place active =>
      rename_i operation
      obtain ⟨id, known⟩ := joinable_eq_true_iff.mp active
      have held : source.holder = some id := by
        rw [holder_of_point (by simp [place]), known]
      have occupied : source.slot ≠ .vacant := by
        intro vacant
        have found := slot_occupancy source
        rw [vacant] at found
        cases found with
        | vacant empty => cases held.symm.trans empty
      have same := @slot_move Thread _ source (.joining operation) (by simp [place]) (by simp)
      apply run_view (view_eq rfl place) (view_eq same rfl)
      simp [Monopoly.step, Point.erase, occupied]
  | joined place known ended returned gone =>
      rename_i operation id thread
      have held : source.holder = some id := by
        rw [holder_of_point (by simp [place]), known]
      have vacant : Shared.slot { source with task := ⟨thread⟩, point := operation.after } =
          .vacant := by
        apply slot_eq_vacant
        rw [holder_of_point (by cases operation <;> simp [Operation.after])]
        exact gone
      apply run_view (view_eq (slot_eq_done held ended) place) (view_eq vacant rfl)
      cases operation with
      | spawn | join => rfl
  | created place =>
      have fresh : source.created ∉ source.begun := by
        intro member
        exact absurd (valid.bounded _ member) (Nat.lt_irrefl _)
      have ready : Shared.slot { source with
          point := .assigning (ThreadType.launched source.created)
          created := source.created + 1 } = .ready :=
        slot_eq_ready (LawfulThreadType.getId_launched source.created) fresh
          fun member => fresh (valid.started _ member)
      exact run_view (view_eq rfl place) (view_eq ready rfl) rfl
  | threw place =>
      have same := @slot_move Thread _ source .idle (by simp [place]) (by simp)
      exact run_view (view_eq rfl place) (view_eq same rfl) rfl
  | assigned place moved same =>
      rename_i temporary thread
      have kept : Shared.slot { source with task := ⟨thread⟩, point := .idle } = source.slot := by
        simp only [Shared.slot, Shared.holder, place, same]
      exact run_view (view_eq rfl place) (view_eq kept rfl) rfl
  | begun bound fresh =>
      rename_i id
      have pending : id ∉ source.finished := fun member => fresh (valid.started id member)
      have held := valid.holder_of_unfinished ⟨bound, pending⟩
      have running : Shared.slot { source with begun := source.begun ++ [id] } = .running :=
        slot_eq_running held (List.mem_append_right _ (List.mem_singleton_self id)) pending
      exact run_view (view_eq (slot_eq_ready held fresh pending) rfl) (view_eq running rfl) rfl
  | finished running fresh =>
      rename_i id
      have held := valid.holder_of_unfinished ⟨valid.bounded id running, fresh⟩
      have done : Shared.slot { source with finished := source.finished ++ [id] } = .done :=
        slot_eq_done held (List.mem_append_right _ (List.mem_singleton_self id))
      exact run_view (view_eq (slot_eq_running held running fresh) rfl) (view_eq done rfl) rfl

theorem step_of_view {source : Shared Thread} (valid : source.Valid) {visible : Visible}
    {after : Monopoly} (stepped : Monopoly.step source.view visible = some after) :
    ∃ action, action.erase = [visible] ∧
      ((concurrent Thread).step source action).isSome = true := by
  have placed := valid.placed
  have enabled : ∀ action, (concurrent Thread).step source action = source.step action :=
    fun _ => if_pos valid.healthy
  simp only [enabled]
  cases visible with
  | call operation =>
      cases place : source.point with
      | idle => exact ⟨.call operation, rfl, by simp [Shared.step, place]⟩
      | testing | joining | constructing | assigning =>
          simp [Monopoly.step, Shared.view, place, Point.erase] at stepped
  | test =>
      cases place : source.point with
      | testing operation => exact ⟨.test, rfl, by simp [Shared.step, place]⟩
      | idle | joining | constructing | assigning =>
          simp [Monopoly.step, Shared.view, place, Point.erase] at stepped
  | joined =>
      cases place : source.point with
      | joining operation =>
          simp only [Shared.Placed, place] at placed
          obtain ⟨thread, returned, gone⟩ :=
            LawfulThreadType.join_joinable source.task.thread placed
          have same := @holder_of_point Thread _ source (by simp [place])
          simp only [Monopoly.step, Shared.view, place, Point.erase] at stepped
          split at stepped
          · rename_i full
            have found := slot_occupancy source
            rw [full] at found
            cases found with
            | done held ended =>
                rw [same] at held
                exact ⟨.joined, rfl, by simp [Shared.step, place, held, ended, returned]⟩
          · cases stepped
      | idle | testing | constructing | assigning =>
          simp [Monopoly.step, Shared.view, place, Point.erase] at stepped
  | construct constructed =>
      cases place : source.point with
      | constructing =>
          refine ⟨.construct constructed, rfl, ?_⟩
          cases constructed with
          | true | false => simp [Shared.step, place, ThreadType.construct]
      | idle | testing | joining | assigning =>
          simp [Monopoly.step, Shared.view, place, Point.erase] at stepped
  | assign =>
      cases place : source.point with
      | assigning temporary =>
          obtain ⟨thread, moved, same⟩ := placed.assign place
          exact ⟨.assign, rfl, by simp [Shared.step, place, moved]⟩
      | idle | testing | joining | constructing =>
          simp [Monopoly.step, Shared.view, place, Point.erase] at stepped
  | begin =>
      simp only [Monopoly.step] at stepped
      split at stepped
      · rename_i full
        have found := slot_occupancy source
        rw [show source.slot = .ready from full] at found
        cases found with
        | ready held waiting pending =>
            rename_i id
            have bound : id < source.created := valid.newest id held ▸ Nat.lt_succ_self id
            exact ⟨.begin id, rfl, by simp [Shared.step, bound, waiting]⟩
      · cases stepped
  | finish =>
      simp only [Monopoly.step] at stepped
      split at stepped
      · rename_i full
        have found := slot_occupancy source
        rw [show source.slot = .running from full] at found
        cases found with
        | running held begun pending =>
            rename_i id
            exact ⟨.finish id, rfl, by simp [Shared.step, begun, pending]⟩
      · cases stepped

theorem bisimulation_monopoly :
    Bisimulation (concurrent Thread) monopoly Action.erase
      fun shared slot => shared.Valid ∧ shared.view = slot where
  start := by
    refine ⟨valid_initial, ?_⟩
    have vacant : (concurrent Thread).initial.holder = none := LawfulThreadType.getId_empty
    rw [view_eq (slot_eq_vacant vacant) rfl]
    rfl
  forth source shadow action target related stepped := by
    obtain ⟨valid, rfl⟩ := related
    have effect := step_effect valid stepped
    exact ⟨target.view, view_step valid effect, valid.next effect, rfl⟩
  back source shadow visible after related stepped := by
    obtain ⟨valid, rfl⟩ := related
    obtain ⟨action, shown, offered⟩ := step_of_view valid stepped
    obtain ⟨target, performed⟩ := Option.isSome_iff_exists.mp offered
    have effect := step_effect valid performed
    refine ⟨action, target, shown, performed, valid.next effect, ?_⟩
    have followed := view_step valid effect
    rw [shown, Machine.run_cons, stepped] at followed
    exact (Option.some.inj followed).symm

/-!
## The calls of the sequential model
-/

theorem run_join {shared : Shared Thread} (healthy : shared.fault = none)
    (rest : shared.point = .idle)
    (ended : ∀ id ∈ ThreadType.getId shared.task.thread, id ∈ shared.finished)
    (operation : Operation) :
    ∃ actions after, shared.task.join = .returned after ∧ after.joinable = false ∧
      (concurrent Thread).run shared actions =
        some { shared with task := after, point := operation.after } := by
  cases active : shared.task.joinable with
  | false =>
      refine ⟨[.call operation, .test], shared.task, by simp [join, active], active, ?_⟩
      simp [concurrent, Shared.step, healthy, rest, active]
  | true =>
      obtain ⟨thread, returned, gone⟩ := LawfulThreadType.join_joinable shared.task.thread active
      refine ⟨[.call operation, .test, .joined], ⟨thread⟩, by simp [join, active, returned],
        joinable_eq_false_iff.mpr gone, ?_⟩
      simp only [concurrent, Machine.run_cons, healthy, if_true, Shared.step, rest, active,
        Option.bind_some, returned, if_pos ended, Machine.run_nil]

/-- The steps of a call amount to `MonoTask.spawn`. -/
theorem run_spawn {shared : Shared Thread} (healthy : shared.fault = none)
    (rest : shared.point = .idle)
    (ended : ∀ id ∈ ThreadType.getId shared.task.thread, id ∈ shared.finished) :
    ∃ actions after, shared.task.spawn (.ok (ThreadType.launched shared.created)) =
        .returned after ∧
      (concurrent Thread).run shared actions =
        some { shared with task := after, created := shared.created + 1 } := by
  obtain ⟨actions, middle, joined, inactive, ran⟩ := run_join healthy rest ended .spawn
  obtain ⟨thread, moved, same⟩ := LawfulThreadType.moveAssign_notJoinable middle.thread
    (ThreadType.launched shared.created) inactive
  refine ⟨actions ++ [.construct true, .assign], ⟨thread⟩, by simp [spawn, joined, moved], ?_⟩
  rw [Machine.run_append, ran]
  simp [concurrent, Shared.step, ThreadType.construct, healthy, Operation.after, moved, rest]

theorem inactive_after_join {source target : Shared Thread} {action : Action}
    (effect : Effect source action target)
    (place : source.point = .testing .join ∨ source.point = .joining .join)
    (returned : target.point = .idle) : target.task.joinable = false := by
  cases effect with
  | called idle => simp [idle] at place
  | passed _ inactive => exact inactive
  | blocked _ _ => cases returned
  | joined _ _ _ _ gone => exact joinable_eq_false_iff.mpr gone
  | created _ => cases returned
  | threw constructing => simp [constructing] at place
  | assigned assigning _ _ => simp [assigning] at place
  | begun _ _ =>
      change source.point = .idle at returned
      simp [returned] at place
  | finished _ _ =>
      change source.point = .idle at returned
      simp [returned] at place

theorem view_after_throw {source target : Shared Thread} (valid : source.Valid)
    (effect : Effect source (.construct false) target) :
    target.task.joinable = false ∧ target.view = monopoly.initial := by
  have placed := valid.placed
  cases effect with
  | threw place =>
      simp only [Shared.Placed, place] at placed
      refine ⟨placed, view_eq (slot_eq_vacant ?_) rfl⟩
      rw [holder_of_point (by simp)]
      exact joinable_eq_false_iff.mp placed

/-- One caller's calls run one function at a time, whatever the constructors
and the functions do. After a failed construction the task shows what a fresh
one shows. -/
theorem mono_task_monopoly (Thread : Type) [ThreadType Thread] [LawfulThreadType Thread] :
    (∀ shared, (concurrent Thread).Reachable shared →
      (∀ left right, shared.Unfinished left → shared.Unfinished right → left = right) ∧
      shared.fault = none ∧
      (∀ temporary, shared.point = .assigning temporary → shared.task.joinable = false)) ∧
    (∀ source target action, (concurrent Thread).Reachable source →
      (concurrent Thread).step source action = some target →
      (∀ id, action = .begin id → ∀ earlier < id, earlier ∈ source.finished) ∧
      (source.point = .testing .join ∨ source.point = .joining .join → target.point = .idle →
        target.task.joinable = false) ∧
      (action = .construct false → target.task.joinable = false ∧
        ∀ trace, (concurrent Thread).Shows Action.erase target trace ↔
          (concurrent Thread).Shows Action.erase (concurrent Thread).initial trace)) := by
  refine ⟨?_, ?_⟩
  · intro shared reached
    have valid := valid_of_reachable reached
    refine ⟨?_, valid.healthy, ?_⟩
    · intro left right leftOpen rightOpen
      have held := valid.holder_of_unfinished leftOpen
      exact Option.some.inj (held.symm.trans (valid.holder_of_unfinished rightOpen))
    · intro temporary place
      have placed := valid.placed
      simp only [Shared.Placed, place] at placed
      exact placed.1
  · intro source target action reached stepped
    have valid := valid_of_reachable reached
    have effect := step_effect valid stepped
    refine ⟨?_, inactive_after_join effect, ?_⟩
    · intro id same earlier before
      subst action
      cases effect with
      | begun bound fresh =>
          exact valid.finished_before ⟨bound, fun ended => fresh (valid.started id ended)⟩ before
    · intro same
      subst action
      obtain ⟨inactive, view⟩ := view_after_throw valid effect
      refine ⟨inactive, ?_⟩
      exact bisimulation_monopoly.shows_congr ⟨valid.next effect, view⟩
        bisimulation_monopoly.start

end

/-- Two functions run one after the other, and the third `spawn` throws. -/
theorem mono_task_monopoly_stdThread :
    ∃ busy source target,
      (concurrent StdThread).run (concurrent StdThread).initial
        [.call .spawn, .test, .construct true, .assign, .begin 0, .call .spawn, .test, .finish 0,
          .joined, .construct true, .assign, .begin 1] = some busy ∧
      (concurrent StdThread).run busy [.call .spawn, .test, .finish 1, .joined] = some source ∧
      (concurrent StdThread).step source (.construct false) = some target ∧
      busy.Unfinished 1 ∧ ¬ busy.Unfinished 0 ∧ source.fault = none ∧
      target.task.joinable = false ∧
      (concurrent StdThread).Shows Action.erase target
        [.call .spawn, .test, .construct true, .assign, .begin, .finish, .call .join, .test,
          .joined] := by
  obtain ⟨busy, source, target, first, second, threw, unfinished⟩ :
      ∃ busy source target,
        (concurrent StdThread).run (concurrent StdThread).initial
          [.call .spawn, .test, .construct true, .assign, .begin 0, .call .spawn, .test, .finish 0,
            .joined, .construct true, .assign, .begin 1] = some busy ∧
        (concurrent StdThread).run busy [.call .spawn, .test, .finish 1, .joined] = some source ∧
        (concurrent StdThread).step source (.construct false) = some target ∧
        busy.Unfinished 1 :=
    ⟨_, _, _, rfl, rfl, rfl, by decide, by decide⟩
  have reached : (concurrent StdThread).Reachable source := Machine.Reachable.run ⟨_, first⟩ second
  obtain ⟨states, steps⟩ := mono_task_monopoly StdThread
  obtain ⟨alone, _, _⟩ := states busy ⟨_, first⟩
  obtain ⟨_, _, thrown⟩ := steps source target (.construct false) reached threw
  obtain ⟨inactive, fresh⟩ := thrown rfl
  refine ⟨busy, source, target, first, second, threw, unfinished, ?_, (states source reached).2.1,
    inactive, ?_⟩
  · intro earlier
    exact absurd (alone 0 1 earlier unfinished) (by decide)
  · rw [fresh]
    exact ⟨[.call .spawn, .test, .construct true, .assign, .begin 0, .finish 0, .call .join, .test,
      .joined], _, rfl, rfl⟩

end Libpreempt.Preempt.MonoTask
