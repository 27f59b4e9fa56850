import Libpreempt.Tests.DecrementPolicyProperties
import Libpreempt.Transition.Termination
import Mathlib.Algebra.BigOperators.Group.Finset.Basic

/-! Whatever the policy and the table, the test neither stops halfway nor goes on
forever: each step uses up some of the work that is left. -/

set_option autoImplicit false

namespace Libpreempt.Tests.Decrement

open Libpreempt.Base Libpreempt.Scheduling Libpreempt.Transition

variable {strerror : Int → StdString} {accepts : Int → Bool} {policy : Int}
  {priorityTable : List Int}

/-!
## The work that is left
-/

/-- The creation of the thread, its four steps, and a slice that ends behind each of them. -/
def Point.work : Point → Nat
  | .absent => 9
  | .entry => 8
  | .compared => 6
  | .loaded _ => 4
  | .written => 2
  | .ended => 0

def Creator.work : Creator → Nat
  | .start => 2
  | .running => 1
  | .finished | .exited => 0

def workOf (threads : Nat) (point : Nat → Point) : Nat :=
  Finset.sum (Finset.range threads) fun index => (point index).work

theorem workOf_update {threads index : Nat} (inside : index < threads) (point : Nat → Point)
    (after : Point) :
    workOf threads (Function.update point index after) + (point index).work =
      workOf threads point + after.work := by
  have member := Finset.mem_range.mpr inside
  have others : ∀ other ∈ (Finset.range threads).erase index,
      (Function.update point index after other).work = (point other).work := by
    intro other present
    rw [Function.update_of_ne (Finset.ne_of_mem_erase present)]
  rw [workOf, workOf, ← Finset.add_sum_erase _ _ member, ← Finset.add_sum_erase _ _ member,
    Finset.sum_congr rfl others, Function.update_self]
  omega

def State.work (threads : Nat) (state : State) : Nat :=
  state.creator.work + workOf threads state.point + (threads - state.joined) +
    state.current.toList.length

/-!
## What every step keeps
-/

/-- The parts of a state that do not depend on the order of the threads. -/
structure Tidy (priorityTable : List Int) (state : State) : Prop where
  created : state.context.length ≤ priorityTable.length
  joined : state.joined ≤ priorityTable.length
  fresh : state.creator = .start → state.context = []
  handles : ∀ (index : Nat) (handle : Base.Thread), state.context[index]? = some handle →
    handle.id = index
  absent : ∀ index, state.point index = .absent ↔ state.context.length ≤ index
  distinct : state.runnable.Nodup
  runnable : ∀ index, index ∈ state.runnable ↔
    state.point index ≠ .absent ∧ state.point index ≠ .ended
  held : ∀ index ∈ state.current, index ∈ state.runnable
  waited : ∀ index < state.joined, state.point index = .ended
  finished : state.creator = .finished → state.joined = priorityTable.length

def Proper (priorityTable : List Int) (state : State) : Prop :=
  state.creator = .exited ∨ Tidy priorityTable state

section Tidy

variable {state next : State} {index : Nat}

theorem Tidy.inside (tidy : Tidy priorityTable state) (active : state.point index ≠ .absent) :
    index < priorityTable.length := by
  have known := mt (tidy.absent index).mpr active
  have created := tidy.created
  omega

theorem Tidy.started (tidy : Tidy priorityTable state) (running : state.creator = .running)
    (left : state.context.length < priorityTable.length) (policy priority : Int) {handle : Base.Thread}
    (known : handle.id = state.context.length) :
    Tidy priorityTable (state.started policy priority handle) ∧
      (state.started policy priority handle).work priorityTable.length <
        state.work priorityTable.length := by
  have absent := (tidy.absent state.context.length).mpr (Nat.le_refl _)
  have waiting : state.context.length ∉ state.runnable := fun member =>
    ((tidy.runnable _).mp member).1 absent
  refine ⟨?_, ?_⟩
  · constructor
    · simpa [State.started] using Nat.succ_le_of_lt left
    · exact tidy.joined
    · intro start
      cases start
    · intro index held present
      rcases Stdlib.getElem?_append_singleton present with old | ⟨place, rfl⟩
      · exact tidy.handles index held old
      · exact known.trans place.symm
    · intro index
      by_cases last : index = state.context.length
      · simp [State.started, State.start, last]
      · have before := tidy.absent index
        simp only [State.started, State.start, Function.update_of_ne last, List.length_append,
          List.length_singleton, before]
        omega
    · have distinct := tidy.distinct.concat waiting
      rwa [List.concat_eq_append] at distinct
    · intro index
      by_cases last : index = state.context.length
      · simp [State.started, State.start, last]
      · simp [State.started, State.start, last, tidy.runnable index]
    · intro index present
      exact List.mem_append_left _ (tidy.held index present)
    · intro index before
      have gone := tidy.waited index before
      have other : index ≠ state.context.length := by
        rintro rfl
        cases gone.symm.trans absent
      exact (Function.update_of_ne other _ _).trans gone
    · intro done
      cases done
  · have used := workOf_update left state.point .entry
    simp only [absent, Point.work] at used
    simp only [State.work, State.started, State.start, running]
    omega

theorem Tidy.move (tidy : Tidy priorityTable state) {index : Nat} (after : Point)
    (active : state.point index ≠ .absent ∧ state.point index ≠ .ended)
    (going : after ≠ .absent ∧ after ≠ .ended)
    (used : after.work + 2 = (state.point index).work) :
    Tidy priorityTable (state.move index after) ∧
      (state.move index after).work priorityTable.length < state.work priorityTable.length := by
  refine ⟨?_, ?_⟩
  · constructor
    · exact tidy.created
    · exact tidy.joined
    · exact tidy.fresh
    · exact tidy.handles
    · intro other
      by_cases same : other = index
      · subst same
        simp only [State.move, Function.update_self]
        exact iff_of_false going.1 (mt (tidy.absent other).mpr active.1)
      · simpa only [State.move, Function.update_of_ne same] using tidy.absent other
    · exact tidy.distinct
    · intro other
      by_cases same : other = index
      · subst same
        simp only [State.move, Function.update_self]
        exact iff_of_true ((tidy.runnable other).mpr active) going
      · simpa only [State.move, Function.update_of_ne same] using tidy.runnable other
    · intro other present
      cases present
      exact (tidy.runnable index).mpr active
    · intro other before
      have gone := tidy.waited other before
      have apart : other ≠ index := by
        rintro rfl
        exact active.2 gone
      exact (Function.update_of_ne apart _ _).trans gone
    · exact tidy.finished
  · have total := workOf_update (tidy.inside active.1) state.point after
    simp only [State.work, State.move, Option.toList_some, List.length_singleton]
    omega

theorem Tidy.exit (tidy : Tidy priorityTable state) (last : state.point index = .written)
    (exited : next = { state.move index .ended with
      runnable := state.runnable.filter (· ≠ index), current := none }) :
    Tidy priorityTable next ∧
      next.work priorityTable.length < state.work priorityTable.length := by
  subst exited
  refine ⟨?_, ?_⟩
  · constructor
    · exact tidy.created
    · exact tidy.joined
    · exact tidy.fresh
    · exact tidy.handles
    · intro other
      by_cases same : other = index
      · subst same
        simpa [State.move, last] using tidy.absent other
      · simpa only [State.move, Function.update_of_ne same] using tidy.absent other
    · exact tidy.distinct.filter _
    · intro other
      by_cases same : other = index
      · simp [State.move, same]
      · simpa [State.move, same] using tidy.runnable other
    · intro other present
      cases present
    · intro other before
      by_cases same : other = index
      · simp [State.move, same]
      · exact (Function.update_of_ne same _ _).trans (tidy.waited other before)
    · exact tidy.finished
  · have active : state.point index ≠ .absent := by simp [last]
    have total := workOf_update (tidy.inside active) state.point .ended
    simp only [last, Point.work] at total
    simp only [State.work, State.move, Option.toList_none, List.length_nil]
    omega

theorem Tidy.decrement (tidy : Tidy priorityTable state)
    (stepped : state.decrement priorityTable index = some next) :
    Tidy priorityTable next ∧
      next.work priorityTable.length < state.work priorityTable.length := by
  rw [State.decrement] at stepped
  cases point : state.point index with
  | absent | ended =>
      rw [point] at stepped
      cases stepped
  | entry =>
      rw [point] at stepped
      cases stepped
      have active : state.point index ≠ .absent ∧ state.point index ≠ .ended := by simp [point]
      obtain ⟨still, used⟩ := tidy.move .compared active (by simp) (by simp [point, Point.work])
      exact ⟨{ still with }, used⟩
  | compared =>
      rw [point] at stepped
      cases stepped
      have active : state.point index ≠ .absent ∧ state.point index ≠ .ended := by simp [point]
      exact tidy.move (.loaded state.globalValue) active (by simp) (by simp [point, Point.work])
  | loaded value =>
      rw [point] at stepped
      cases stepped
      have active : state.point index ≠ .absent ∧ state.point index ≠ .ended := by simp [point]
      obtain ⟨still, used⟩ := tidy.move .written active (by simp) (by simp [point, Point.work])
      exact ⟨{ still with }, used⟩
  | written =>
      rw [point] at stepped
      cases stepped
      exact tidy.exit point rfl

theorem Tidy.create (tidy : Tidy priorityTable state) (running : state.creator = .running)
    {priority : Int} (entry : priorityTable[state.context.length]? = some priority)
    (results : PthreadResults) :
    Proper priorityTable (state.create strerror policy priority results) ∧
      (state.create strerror policy priority results).work priorityTable.length <
        state.work priorityTable.length := by
  have left := (List.getElem?_eq_some_iff.mp entry).1
  cases Thread.construct_outcome strerror policy priority true
      { results with id := state.context.length } with
  | refused absent inactive _ =>
      refine ⟨.inl ?_, ?_⟩
      · simp [State.create, inactive]
      · simp [State.work, State.create, inactive, absent, running, Creator.work]
  | created present active known =>
      obtain ⟨still, used⟩ := tidy.started running left policy priority known
      simp only [State.create, present, active, if_true]
      exact ⟨.inr { still with }, used⟩

theorem Tidy.step {move : Move} (tidy : Tidy priorityTable state)
    (stepped : state.stepAs strerror accepts policy priorityTable move = some next) :
    Proper priorityTable next ∧
      next.work priorityTable.length < state.work priorityTable.length := by
  cases move with
  | act action =>
      obtain ⟨_, stepped⟩ := Option.ite_none_right_eq_some.mp stepped
      cases action with
      | set =>
          obtain ⟨start, performed⟩ := Option.ite_none_right_eq_some.mp stepped
          cases performed
          refine ⟨.inr { tidy with fresh := ?_, finished := ?_ }, ?_⟩
          · intro later
            cases later
          · intro later
            cases later
          · simp [State.work, start, Creator.work]
      | create results =>
          obtain ⟨running, performed⟩ := Option.ite_none_right_eq_some.mp stepped
          obtain ⟨priority, entry, rfl⟩ := Option.map_eq_some_iff.mp performed
          exact tidy.create running entry results
      | join =>
          obtain ⟨⟨running, all⟩, performed⟩ := Option.ite_none_right_eq_some.mp stepped
          cases present : state.context[state.joined]? with
          | none =>
              rw [present] at performed
              cases performed
          | some handle =>
              rw [present] at performed
              obtain ⟨ended, performed⟩ := Option.ite_none_right_eq_some.mp performed
              cases performed
              have left := (List.getElem?_eq_some_iff.mp present).1
              have bound : state.joined + 1 ≤ priorityTable.length := all ▸ left
              rw [tidy.handles state.joined handle present] at ended
              refine ⟨.inr { tidy with joined := bound, waited := ?_, finished := ?_ }, ?_⟩
              · intro index before
                rcases Nat.lt_succ_iff_lt_or_eq.mp before with earlier | rfl
                · exact tidy.waited index earlier
                · exact ended
              · intro later
                cases running.symm.trans later
              · simp only [State.work]
                omega
      | finish =>
          obtain ⟨⟨running, _, joined⟩, performed⟩ := Option.ite_none_right_eq_some.mp stepped
          cases performed
          refine ⟨.inr { tidy with fresh := ?_, finished := fun _ => joined }, ?_⟩
          · intro later
            cases later
          · simp [State.work, running, Creator.work]
      | thread index =>
          obtain ⟨_, performed⟩ := Option.ite_none_right_eq_some.mp stepped
          obtain ⟨still, used⟩ := tidy.decrement performed
          exact ⟨.inr still, used⟩
  | expire =>
      cases current : state.current with
      | none => simp [State.stepAs, current] at stepped
      | some index =>
          simp only [State.stepAs, current] at stepped
          obtain ⟨_, performed⟩ := Option.ite_none_right_eq_some.mp stepped
          cases performed
          have order := expire_perm tidy.distinct (tidy.held index current)
          refine ⟨.inr { tidy with
            distinct := order.nodup_iff.mpr tidy.distinct
            runnable := fun other => order.mem_iff.trans (tidy.runnable other)
            held := ?_ }, ?_⟩
          · intro other present
            cases present
          · simp [State.work, State.endSlice, current]

theorem decrement_of_active
    (active : state.point index ≠ .absent ∧ state.point index ≠ .ended) :
    ∃ next, state.decrement priorityTable index = some next ∧ next.creator = state.creator := by
  cases point : state.point index with
  | absent => exact absurd point active.1
  | ended => exact absurd point active.2
  | entry | compared | loaded value | written =>
      simp only [State.decrement, point]
      exact ⟨_, rfl, rfl⟩

theorem stepAs_act {action : Action} (possible : action.Possible accepts priorityTable state) :
    state.stepAs strerror accepts policy priorityTable (.act action) =
      state.step strerror policy priorityTable action := if_pos possible

/-- Without a runnable thread all have ended, and the creator joins the next one or returns. -/
theorem Tidy.idle (strerror : Int → StdString) (accepts : Int → Bool) (policy : Int)
    (tidy : Tidy priorityTable state) (running : state.creator = .running)
    (all : state.context.length = priorityTable.length) (idle : state.runnable = []) :
    ∃ action next, state.stepAs strerror accepts policy priorityTable (.act action) = some next ∧
      next.creator ≠ .exited := by
  rcases Nat.lt_or_ge state.joined priorityTable.length with left | done
  · have present := List.getElem?_eq_getElem (all ▸ left)
    have known := tidy.handles state.joined _ present
    have created : state.point state.joined ≠ .absent := by
      rw [ne_eq, tidy.absent, all]
      exact Nat.not_le_of_lt left
    have ended : state.point state.joined = .ended := by
      by_contra going
      have member := (tidy.runnable state.joined).mpr ⟨created, going⟩
      rw [idle] at member
      cases member
    rw [← known] at ended
    have performed : state.step strerror policy priorityTable .join = some { state with
        joined := state.joined + 1
        verified := state.verified && state.context[state.joined].joinable } := by
      rw [State.step, if_pos ⟨running, all⟩, present]
      exact if_pos ended
    have possible : Action.join.Possible accepts priorityTable state := trivial
    exact ⟨.join, _, (stepAs_act possible).trans performed, by simp [running]⟩
  · have joined : state.joined = priorityTable.length := Nat.le_antisymm tidy.joined done
    have possible : Action.finish.Possible accepts priorityTable state := trivial
    exact ⟨.finish, _, (stepAs_act possible).trans (if_pos ⟨running, all, joined⟩), by simp⟩

/-- Somebody can go on, and nobody exits unless the system refuses a priority. -/
theorem Tidy.progress (strerror : Int → StdString) (accepts : Int → Bool) (policy : Int)
    (tidy : Tidy priorityTable state) (present : state.creator ≠ .exited) :
    state.creator = .finished ∨ ∃ move next,
      state.stepAs strerror accepts policy priorityTable move = some next ∧
      (next.creator = .exited → ∃ priority ∈ priorityTable, accepts priority = false) := by
  cases creator : state.creator with
  | exited => exact absurd creator present
  | finished => exact .inl rfl
  | start =>
      have possible : Action.set.Possible accepts priorityTable state := trivial
      refine .inr ⟨.act .set, _, (stepAs_act possible).trans (if_pos creator), fun exited => ?_⟩
      cases exited
  | running =>
      right
      rcases Nat.lt_or_ge state.context.length priorityTable.length with left | full
      · have entry := List.getElem?_eq_getElem left
        cases accepted : accepts priorityTable[state.context.length] with
        | true =>
            obtain ⟨handle, created⟩ := stepAs_create strerror policy state creator entry accepted
            refine ⟨_, _, created, fun exited => ?_⟩
            cases exited
        | false =>
            obtain ⟨next, refused, _⟩ :=
              stepAs_create_refused strerror accepts policy state creator entry
            exact ⟨_, next, refused, fun _ => ⟨_, List.getElem_mem left, accepted⟩⟩
      · have all : state.context.length = priorityTable.length := by
          have created := tidy.created
          omega
        by_cases idle : state.runnable = []
        · obtain ⟨action, next, stepped, still⟩ :=
            tidy.idle strerror accepts policy creator all idle
          exact ⟨.act action, next, stepped, fun exited => absurd exited still⟩
        · obtain ⟨index, dispatched⟩ : ∃ index, Dispatch
              (fun thread => (state.scheduling thread).priority) state.runnable state.current index :=
            exists_dispatch idle tidy.held
          obtain ⟨next, performed, same⟩ :=
            decrement_of_active ((tidy.runnable index).mp dispatched.member)
          refine ⟨.act (.thread index), next, ?_, fun exited => ?_⟩
          · rw [stepAs_thread strerror accepts policy creator dispatched]
            exact performed
          · cases creator.symm.trans (same.symm.trans exited)

end Tidy

/-!
## Runs end
-/

theorem tidy_initial (strerror : Int → StdString) (policy : Int) (priorityTable : List Int)
    (globalValue : Int) (verified : Bool) :
    Tidy priorityTable { (run strerror policy priorityTable globalValue).initial with verified } where
  created := Nat.zero_le _
  joined := Nat.zero_le _
  fresh _ := rfl
  handles index handle present := by cases present
  absent index := iff_of_true rfl (Nat.zero_le index)
  distinct := List.nodup_nil
  runnable index := by simp [run]
  held index present := by cases present
  waited index before := absurd before (Nat.not_lt_zero index)
  finished later := by cases later

theorem proper_step {globalValue : Int} (source : State) (move : Move) (target : State)
    (proper : Proper priorityTable source)
    (stepped : (runPolicy strerror accepts policy priorityTable globalValue).step source move =
      some target) :
    Proper priorityTable target ∧
      target.work priorityTable.length < source.work priorityTable.length := by
  rcases proper with exited | tidy
  · cases (stepAs_of_exited exited move).symm.trans stepped
  · exact tidy.step stepped

end Libpreempt.Tests.Decrement
