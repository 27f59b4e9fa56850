import Libpreempt.Tests.DecrementPolicy
import Libpreempt.Tests.DecrementProperties
import Libpreempt.Transition.Simulation

/-! Which tables of priorities pass the test under which policy. A run that
passes looks like one under `SCHED_FIFO` in which no time slice ends. -/

set_option autoImplicit false

namespace Libpreempt.Tests.Decrement

open Libpreempt.Base Libpreempt.Scheduling Libpreempt.Transition

variable {strerror : Int → StdString} {accepts : Int → Bool} {policy : Int}
  {priorityTable : List Int}

/-- No priority of the table rises, and under `SCHED_RR` none occurs twice. -/
def Sorted (policy : Int) (priorityTable : List Int) : Prop :=
  if policy = schedRr then priorityTable.Pairwise (· > ·) else priorityTable.Pairwise (· ≥ ·)

instance (policy : Int) (priorityTable : List Int) : Decidable (Sorted policy priorityTable) :=
  inferInstanceAs (Decidable (ite ..))

def Realtime (policy : Int) : Prop := policy = schedFifo ∨ policy = schedRr

theorem Sorted.descending (sorted : Sorted policy priorityTable) :
    priorityTable.Pairwise (· ≥ ·) := by
  rw [Sorted] at sorted
  split at sorted
  · exact sorted.imp fun strict => Int.le_of_lt strict
  · exact sorted

/-!
## A run under `SCHED_FIFO` that looks the same
-/

/-- The state with what the other run has in its place of the parts that depend
on the policy. -/
def State.overlay (state : State) (context : List Base.Thread) (scheduling : Nat → Scheduling)
    (runnable : List Nat) (current : Option Nat) : State :=
  { state with context, scheduling, runnable, current }

/-- The parts that the two runs do not share: they differ in the policy, and
under `SCHED_RR` in the order of the runnable threads. -/
structure Parallel (policy : Int) (state : State) (context : List Base.Thread)
    (scheduling : Nat → Scheduling) (runnable : List Nat) (current : Option Nat) : Prop where
  length : state.context.length = context.length
  handles : ∀ (index : Nat) (handle : Base.Thread), state.context[index]? = some handle →
    handle.id = index ∧ handle.joinable = true
  policies : ∀ index < state.context.length, (state.scheduling index).policy = policy
  priorities : ∀ index, (state.scheduling index).priority = (scheduling index).priority
  perm : state.runnable.Perm runnable
  held : ∀ index ∈ state.current, index ∈ state.runnable
  inOrder : policy ≠ schedRr → state.runnable = runnable ∧ state.current = current

/-- The state once the next thread is created and named by `handle`. -/
def State.started (state : State) (policy priority : Int) (handle : Base.Thread) : State :=
  { state.start state.context.length ⟨.joinable, .explicit, policy, priority⟩ with
    creator := .running, context := state.context ++ [handle] }

/-- After a failure to create a thread the process exits, and nothing follows. -/
inductive Follows (policy : Int) (priorityTable : List Int) (state shadow : State) : Prop where
  | exited (gone : state.creator = .exited) (verified : state.verified = true)
  | running (valid : Valid priorityTable shadow)
      (context : List Base.Thread) (scheduling : Nat → Scheduling) (runnable : List Nat)
      (current : Option Nat) (same : shadow = state.overlay context scheduling runnable current)
      (parallel : Parallel policy state context scheduling runnable current)

theorem Follows.verified {state shadow : State}
    (follows : Follows policy priorityTable state shadow) : state.verified = true := by
  cases follows with
  | exited _ verified => exact verified
  | running valid _ _ _ _ same _ =>
      subst same
      exact valid.1.verified

theorem Valid.ordered {state : State} (valid : Valid priorityTable state)
    (present : state.creator ≠ .exited) : ∃ ended, Ordered priorityTable state ended :=
  valid.2.resolve_left present

section Parallel

variable {state : State} {context : List Base.Thread} {scheduling : Nat → Scheduling}
  {runnable : List Nat} {current : Option Nat}

/-- Whoever is dispatched may run in the other run as well. -/
theorem Parallel.scheduled {ended index : Nat} (realtime : Realtime policy)
    (sorted : Sorted policy priorityTable)
    (ordered : Ordered priorityTable (state.overlay context scheduling runnable current) ended)
    (parallel : Parallel policy state context scheduling runnable current)
    (inside : index < state.context.length) (allowed : state.Scheduled index) :
    (state.overlay context scheduling runnable current).Scheduled index := by
  intro _
  have dispatched := allowed (by rw [parallel.policies index inside]; exact realtime)
  simp only [parallel.priorities] at dispatched
  change Dispatch (fun thread => (scheduling thread).priority) runnable current index
  by_cases roundRobin : policy = schedRr
  · have members : ∀ thread ∈ runnable, ended ≤ thread ∧ thread < context.length := by
      intro thread member
      have place : thread ∈ List.range' ended (context.length - ended) := ordered.runnable ▸ member
      rw [List.mem_range'_1] at place
      have bound : ended ≤ context.length := ordered.bound
      omega
    have priorities : ∀ thread ∈ runnable, ∃ bound : thread < priorityTable.length,
        (scheduling thread).priority = priorityTable[thread] := by
      intro thread member
      have inside := (members thread member).2
      have bound : thread < priorityTable.length := Nat.lt_of_lt_of_le inside ordered.created
      refine ⟨bound, ?_⟩
      rw [show scheduling thread = ⟨schedFifo, priorityTable[thread]⟩ from
        ordered.scheduling thread _ inside (List.getElem?_eq_getElem bound)]
    have strict : priorityTable.Pairwise (· > ·) := by simpa [Sorted, roundRobin] using sorted
    have distinct : ∀ left ∈ runnable, ∀ right ∈ runnable,
        (scheduling left).priority = (scheduling right).priority → left = right := by
      intro left inLeft right inRight tied
      obtain ⟨leftBound, leftKnown⟩ := priorities left inLeft
      obtain ⟨rightBound, rightKnown⟩ := priorities right inRight
      rw [leftKnown, rightKnown] at tied
      rcases Nat.lt_trichotomy left right with before | same | after
      · have lower := List.pairwise_iff_getElem.mp strict left right leftBound rightBound before
        omega
      · exact same
      · have lower := List.pairwise_iff_getElem.mp strict right left rightBound leftBound after
        omega
    have held : ∀ running ∈ current, running ∈ runnable := by
      intro running present
      rcases ordered.current with idle | ⟨first, active⟩
      · exact absurd (idle ▸ present : running ∈ (none : Option Nat)) (by simp)
      · have same : current = some ended := first
        rw [same, Option.mem_some_iff] at present
        subst present
        have start : runnable = List.range' ended (context.length - ended) := ordered.runnable
        rw [start, List.mem_range'_1]
        have bound : ended < context.length := active
        omega
    refine (dispatch_iff_highest distinct held index).mpr
      ⟨parallel.perm.mem_iff.mp dispatched.member, ?_⟩
    intro other member
    exact dispatched.highest other (parallel.perm.mem_iff.mpr member)
  · obtain ⟨sameRunnable, sameCurrent⟩ := parallel.inOrder roundRobin
    rw [sameRunnable, sameCurrent] at dispatched
    exact dispatched

theorem Parallel.decrement {next : State} {index : Nat}
    (parallel : Parallel policy state context scheduling runnable current)
    (waiting : index ∈ state.runnable)
    (stepped : state.decrement priorityTable index = some next) :
    ∃ laterRunnable laterCurrent,
      (state.overlay context scheduling runnable current).decrement priorityTable index =
        some (next.overlay context scheduling laterRunnable laterCurrent) ∧
      Parallel policy next context scheduling laterRunnable laterCurrent := by
  rw [State.decrement] at stepped
  have place : (state.overlay context scheduling runnable current).point index =
      state.point index := rfl
  cases point : state.point index with
  | absent | ended =>
      rw [point] at stepped
      cases stepped
  | entry | compared | loaded value =>
      rw [point] at stepped
      cases stepped
      refine ⟨runnable, some index, ?_, parallel.length, parallel.handles, parallel.policies,
        parallel.priorities, parallel.perm, ?_, fun fifo => ⟨(parallel.inOrder fifo).1, rfl⟩⟩
      · rw [State.decrement, place, point]
        rfl
      · intro running present
        cases present
        exact waiting
  | written =>
      rw [point] at stepped
      cases stepped
      refine ⟨runnable.filter (· ≠ index), none, ?_, parallel.length, parallel.handles,
        parallel.policies, parallel.priorities, parallel.perm.filter _, ?_,
        fun fifo => ⟨congrArg _ (parallel.inOrder fifo).1, rfl⟩⟩
      · rw [State.decrement, place, point]
        rfl
      · intro running present
        cases present

/-- A slice that ends changes only the order of the runnable threads. -/
theorem Parallel.endSlice {ended index : Nat}
    (ordered : Ordered priorityTable (state.overlay context scheduling runnable current) ended)
    (parallel : Parallel policy state context scheduling runnable current)
    (roundRobin : policy = schedRr) (running : state.current = some index) :
    Parallel policy (state.endSlice index) context scheduling runnable current := by
  have distinct : state.runnable.Nodup := by
    rw [parallel.perm.nodup_iff, show runnable = _ from ordered.runnable]
    exact List.nodup_range' ..
  have member : index ∈ state.runnable := parallel.held index running
  refine ⟨parallel.length, parallel.handles, parallel.policies, parallel.priorities,
    (expire_perm distinct member).trans parallel.perm, ?_, fun other => absurd roundRobin other⟩
  intro thread present
  cases present

theorem Parallel.start {priority : Int} {handle : Base.Thread} (shadowHandle : Base.Thread)
    (parallel : Parallel policy state context scheduling runnable current)
    (known : handle.id = state.context.length) (active : handle.joinable = true) :
    Parallel policy (state.started policy priority handle) (context ++ [shadowHandle])
      (Function.update scheduling state.context.length ⟨schedFifo, priority⟩)
      (runnable ++ [state.context.length]) current where
  length := by simp [State.started, parallel.length]
  handles index held present := by
    rcases Stdlib.getElem?_append_singleton present with old | ⟨place, rfl⟩
    · exact parallel.handles index held old
    · exact ⟨known.trans place.symm, active⟩
  policies index inside := by
    simp only [State.started, List.length_append, List.length_singleton] at inside
    by_cases last : index = state.context.length
    · subst last
      simp [State.started, State.start, PthreadAttr.scheduling]
    · rw [← parallel.policies index (by omega)]
      exact congrArg Scheduling.policy (Function.update_of_ne last _ _)
  priorities index := by
    by_cases last : index = state.context.length
    · subst last
      simp [State.started, State.start, PthreadAttr.scheduling]
    · exact (congrArg Scheduling.priority (Function.update_of_ne last _ _)).trans
        ((parallel.priorities index).trans
          (congrArg Scheduling.priority (Function.update_of_ne last _ _)).symm)
  perm := parallel.perm.append_right _
  held running present := List.mem_append_left _ (parallel.held running present)
  inOrder fifo := ⟨congrArg (· ++ [state.context.length]) (parallel.inOrder fifo).1,
    (parallel.inOrder fifo).2⟩

end Parallel

/-!
## Sorted tables pass
-/

/-- The policy does not decide whether the thread is created. -/
theorem construct_created_congr (strerror : Int → StdString) (policy other priority : Int)
    (results : PthreadResults) :
    (Thread.construct strerror policy priority true results).created.isSome =
      (Thread.construct strerror other priority true results).created.isSome := by
  simp only [Thread.construct, apply_ite Construction.created, apply_ite Option.isSome]
  rfl

theorem verifyPriority_of_realtime (realtime : Realtime policy) (priority : Int) :
    verifyPriority policy priority = decide (0 < priority) := by
  exact if_pos realtime

/-- The process exits, or the thread is started; the flag stays as it is. -/
inductive Creation (policy priority : Int) (state next : State) : Bool → Prop where
  | refused (gone : next.creator = .exited) (verified : next.verified = state.verified) :
      Creation policy priority state next false
  | started (handle : Base.Thread) (known : handle.id = state.context.length)
      (active : handle.joinable = true) (same : next = state.started policy priority handle) :
      Creation policy priority state next true

theorem State.creation (strerror : Int → StdString) {priority : Int}
    (checked : verifyPriority policy priority = true) (state : State) (results : PthreadResults) :
    Creation policy priority state (state.create strerror policy priority results)
      (Thread.construct strerror policy priority true
        { results with id := state.context.length }).created.isSome := by
  have verified := Thread.construct_verified strerror checked true
    { results with id := state.context.length }
  cases Thread.construct_outcome strerror policy priority true
      { results with id := state.context.length } with
  | refused absent inactive _ =>
      rw [absent]
      refine .refused ?_ ?_
      · simp [State.create, inactive]
      · simp [State.create, absent, verified]
  | created present active known =>
      rw [present]
      refine .started _ known active ?_
      simp only [State.create, present, active, verified, if_true, Bool.and_true]
      rfl

section Follows

variable {state shadow next : State} {context : List Base.Thread}
  {scheduling : Nat → Scheduling} {runnable : List Nat} {current : Option Nat}

theorem stepAs_of_exited (gone : state.creator = .exited) (move : Move) :
    state.stepAs strerror accepts policy priorityTable move = none := by
  cases move with
  | act action =>
      cases action with
      | set | create | join | finish | thread => simp [State.stepAs, State.step, gone]
  | expire =>
      cases running : state.current with
      | none => simp [State.stepAs, running]
      | some index => simp [State.stepAs, running, gone]

theorem Parallel.create {priority : Int} (realtime : Realtime policy)
    (parallel : Parallel policy state context scheduling runnable current)
    (verified : state.verified = true) (positive : 0 < priority)
    (results : PthreadResults) {after : State}
    (performed : after = (state.overlay context scheduling runnable current).create strerror
      schedFifo priority results)
    (valid : Valid priorityTable after) :
    Follows policy priorityTable (state.create strerror policy priority results) after := by
  have length : (state.overlay context scheduling runnable current).context.length =
      state.context.length := parallel.length.symm
  have same := construct_created_congr strerror policy schedFifo priority
    { results with id := state.context.length }
  have outcome := state.creation strerror
    ((verifyPriority_of_realtime realtime priority).trans (decide_eq_true positive)) results
  have shadowOutcome := (state.overlay context scheduling runnable current).creation strerror
    ((verifyPriority_of_realtime (.inl rfl) priority).trans (decide_eq_true positive)) results
  rw [length, ← same] at shadowOutcome
  cases created : (Thread.construct strerror policy priority true
      { results with id := state.context.length }).created.isSome with
  | false =>
      rw [created] at outcome
      obtain ⟨gone, kept⟩ := outcome
      exact .exited gone (kept.trans verified)
  | true =>
      rw [created] at outcome shadowOutcome
      cases outcome with
      | started handle known active same =>
          cases shadowOutcome with
          | started shadowHandle _ _ shadowSame =>
              rw [same]
              refine .running valid _ _ _ _ ?_ (parallel.start shadowHandle known active)
              rw [performed]
              refine Eq.trans shadowSame ?_
              simp only [State.started, length]
              rfl

/-- One step of the creator or of a thread; the other run takes the same one. -/
theorem Parallel.act (realtime : Realtime policy) (sorted : Sorted policy priorityTable)
    (positive : ∀ priority ∈ priorityTable, 0 < priority)
    (valid : Valid priorityTable (state.overlay context scheduling runnable current))
    (parallel : Parallel policy state context scheduling runnable current) {action : Action}
    (stepped : state.step strerror policy priorityTable action = some next) :
    ∃ after, (state.overlay context scheduling runnable current).step strerror schedFifo priorityTable
        action = some after ∧ Follows policy priorityTable next after := by
  have length : (state.overlay context scheduling runnable current).context.length =
      state.context.length := parallel.length.symm
  cases action with
  | set =>
      simp only [State.step] at stepped
      split at stepped
      · rename_i start
        cases stepped
        have performed : (state.overlay context scheduling runnable current).step strerror schedFifo
            priorityTable .set = some _ := if_pos start
        refine ⟨_, performed, .running (valid_next sorted.descending positive valid performed)
          context scheduling runnable current rfl ?_⟩
        exact { parallel with }
      · cases stepped
  | create results =>
      simp only [State.step] at stepped
      split at stepped
      · rename_i running
        obtain ⟨priority, entry, rfl⟩ := Option.map_eq_some_iff.mp stepped
        have shadowRunning : (state.overlay context scheduling runnable current).creator =
          .running := running
        have performed : (state.overlay context scheduling runnable current).step strerror schedFifo
            priorityTable (.create results) =
            some ((state.overlay context scheduling runnable current).create strerror schedFifo
              priority results) := by
          rw [State.step, if_pos shadowRunning, length, entry, Option.map_some]
        exact ⟨_, performed, parallel.create realtime valid.1.verified
          (positive priority (List.mem_of_getElem? entry)) results rfl
          (valid_next sorted.descending positive valid performed)⟩
      · cases stepped
  | join =>
      simp only [State.step] at stepped
      split at stepped
      · rename_i allowed
        cases present : state.context[state.joined]? with
        | none => simp [present] at stepped
        | some handle =>
            simp only [present] at stepped
            split at stepped
            · rename_i gone
              cases stepped
              obtain ⟨ended, ordered⟩ := valid.ordered (by
                intro exited
                cases allowed.1.symm.trans exited)
              obtain ⟨known, active⟩ := parallel.handles state.joined handle present
              have bound : state.joined < context.length :=
                parallel.length ▸ (List.getElem?_eq_some_iff.mp present).1
              have found := List.getElem?_eq_getElem bound
              obtain ⟨shadowKnown, shadowActive⟩ := ordered.handles state.joined _ found
              have performed : (state.overlay context scheduling runnable current).step strerror schedFifo
                  priorityTable .join = some ({ state with
                    joined := state.joined + 1
                    verified := state.verified && handle.joinable }.overlay context scheduling
                    runnable current) := by
                rw [State.step, if_pos ⟨allowed.1, length.trans allowed.2⟩,
                  show (state.overlay context scheduling runnable current).context[
                    (state.overlay context scheduling runnable current).joined]? = _ from found]
                simp only [shadowActive, active]
                exact if_pos ((congrArg state.point (shadowKnown.trans known.symm)).trans gone)
              refine ⟨_, performed, .running (valid_next sorted.descending positive valid performed)
                context scheduling runnable current rfl ?_⟩
              exact { parallel with }
            · cases stepped
      · cases stepped
  | finish =>
      simp only [State.step] at stepped
      split at stepped
      · rename_i allowed
        cases stepped
        have performed : (state.overlay context scheduling runnable current).step strerror schedFifo
            priorityTable .finish = some _ :=
          if_pos ⟨allowed.1, length.trans allowed.2.1, allowed.2.2⟩
        refine ⟨_, performed, .running (valid_next sorted.descending positive valid performed)
          context scheduling runnable current rfl ?_⟩
        exact { parallel with }
      · cases stepped
  | thread index =>
      simp only [State.step] at stepped
      split at stepped
      · rename_i allowed
        obtain ⟨ended, ordered⟩ := valid.ordered allowed.1
        have inside : index < state.context.length := by
          by_contra outside
          have absent : state.point index = .absent :=
            ordered.absent index (length.le.trans (Nat.le_of_not_lt outside))
          simp [State.decrement, absent] at stepped
        have waiting : index ∈ state.runnable :=
          (allowed.2 (by rw [parallel.policies index inside]; exact realtime)).member
        obtain ⟨laterRunnable, laterCurrent, taken, still⟩ := parallel.decrement waiting stepped
        have performed : (state.overlay context scheduling runnable current).step strerror schedFifo
            priorityTable (.thread index) = some _ :=
          (if_pos ⟨allowed.1, parallel.scheduled realtime sorted ordered inside allowed.2⟩).trans taken
        exact ⟨_, performed, .running (valid_next sorted.descending positive valid performed)
          _ _ _ _ rfl still⟩
      · cases stepped

theorem Parallel.expire (strerror : Int → StdString) (accepts : Int → Bool)
    (parallel : Parallel policy state context scheduling runnable current)
    (valid : Valid priorityTable (state.overlay context scheduling runnable current))
    (stepped : state.stepAs strerror accepts policy priorityTable .expire = some next) :
    Follows policy priorityTable next (state.overlay context scheduling runnable current) := by
  simp only [State.stepAs] at stepped
  cases running : state.current with
  | none => simp [running] at stepped
  | some index =>
      simp only [running] at stepped
      split at stepped
      · rename_i allowed
        cases stepped
        obtain ⟨ended, ordered⟩ := valid.ordered allowed.1
        have inside : index < state.context.length := by
          have member : index ∈ runnable := parallel.perm.mem_iff.mp (parallel.held index running)
          rw [show runnable = _ from ordered.runnable, List.mem_range'_1] at member
          have same : (state.overlay context scheduling runnable current).context.length =
            state.context.length := parallel.length.symm
          omega
        have roundRobin : policy = schedRr := (parallel.policies index inside).symm.trans allowed.2
        exact .running valid context scheduling runnable current rfl
          (parallel.endSlice ordered roundRobin running)
      · cases stepped

theorem follows_initial (globalValue : Int) :
    Follows policy priorityTable (runPolicy strerror accepts policy priorityTable globalValue).initial
      (run strerror schedFifo priorityTable globalValue).initial := by
  refine .running (valid_initial globalValue) [] _ [] none rfl ?_
  exact {
    length := rfl
    handles := by
      intro index handle present
      cases present
    policies := by
      intro index inside
      exact absurd inside (Nat.not_lt_zero index)
    priorities := fun _ => rfl
    perm := .refl _
    held := by
      intro index present
      cases present
    inOrder := fun _ => ⟨rfl, rfl⟩ }

theorem runPolicy_simulation (strerror : Int → StdString) (accepts : Int → Bool)
    (realtime : Realtime policy)
    (sorted : Sorted policy priorityTable) (positive : ∀ priority ∈ priorityTable, 0 < priority)
    (globalValue : Int) :
    Simulation (runPolicy strerror accepts policy priorityTable globalValue)
      (run strerror schedFifo priorityTable globalValue) Move.erase (Follows policy priorityTable) where
  start := follows_initial globalValue
  forth source shadow move target follows stepped := by
    cases follows with
    | exited gone _ =>
        cases (stepAs_of_exited gone move).symm.trans stepped
    | running valid context scheduling runnable current same parallel =>
        subst same
        cases move with
        | act action =>
            obtain ⟨_, stepped⟩ := Option.ite_none_right_eq_some.mp stepped
            obtain ⟨after, performed, still⟩ := parallel.act realtime sorted positive valid stepped
            refine ⟨after, ?_, still⟩
            exact Option.bind_eq_some_iff.mpr ⟨after, performed, rfl⟩
        | expire => exact ⟨_, rfl, parallel.expire strerror accepts valid stepped⟩

end Follows

/-!
## Tables that pass are sorted
-/

theorem pairwise_of_descending (checked : descending priorityTable = true) :
    priorityTable.Pairwise (· ≥ ·) := by
  induction priorityTable with
  | nil => exact .nil
  | cons first rest ih =>
      cases rest with
      | nil => exact List.pairwise_singleton _ first
      | cons second rest =>
          simp only [descending, Bool.and_eq_true, decide_eq_true_eq] at checked
          obtain ⟨step, later⟩ := checked
          refine List.pairwise_cons.mpr ⟨?_, ih later⟩
          intro other member
          rcases List.mem_cons.mp member with rfl | after
          · exact step
          · exact Int.le_trans ((List.pairwise_cons.mp (ih later)).1 other after) step

theorem stepAs_create (strerror : Int → StdString) (policy : Int) (state : State) {priority : Int}
    (running : state.creator = .running)
    (entry : priorityTable[state.context.length]? = some priority)
    (accepted : accepts priority = true) :
    ∃ handle, state.stepAs strerror accepts policy priorityTable (.act (.create {})) =
      some { state.started policy priority handle with
        verified := state.verified && verifyPriority policy priority } := by
  refine ⟨(Thread.construct strerror policy priority true { id := state.context.length }).thread,
    ?_⟩
  have possible : (Action.create {}).Possible accepts priorityTable state := by
    intro other present
    cases entry.symm.trans present
    exact .inl accepted
  rw [State.stepAs, if_pos possible, State.step, if_pos running, entry]
  rfl

/-- The system may have no room for another thread. -/
theorem stepAs_create_refused (strerror : Int → StdString) (accepts : Int → Bool) (policy : Int)
    (state : State) {priority : Int} (running : state.creator = .running)
    (entry : priorityTable[state.context.length]? = some priority) :
    ∃ next, state.stepAs strerror accepts policy priorityTable (.act (.create { create := 11 })) =
        some next ∧ next.creator = .exited ∧
      next.verified = (state.verified && verifyPriority policy priority) := by
  have possible : (Action.create { create := 11 }).Possible accepts priorityTable state :=
    fun _ _ => .inr (.inr (by decide))
  rw [State.stepAs, if_pos possible, State.step, if_pos running, entry]
  exact ⟨_, rfl, rfl, rfl⟩

theorem stepAs_thread (strerror : Int → StdString) (accepts : Int → Bool) (policy : Int)
    {state : State} {index : Nat} (running : state.creator = .running)
    (dispatched : Dispatch (fun thread => (state.scheduling thread).priority) state.runnable
      state.current index) :
    state.stepAs strerror accepts policy priorityTable (.act (.thread index)) =
      state.decrement priorityTable index := by
  have possible : (Action.thread index).Possible accepts priorityTable state := trivial
  rw [State.stepAs, if_pos possible]
  exact if_pos ⟨by simp [running], fun _ => dispatched⟩

/-- No other thread is runnable. -/
structure Alone (context : List Base.Thread) (index : Nat) (state : State) (globalValue : Int)
    (point : Point) : Prop where
  running : state.creator = .running
  context : state.context = context
  runnable : state.runnable = [index]
  current : state.current = none ∨ state.current = some index
  value : state.globalValue = globalValue
  point : state.point index = point

section Alone

variable {context : List Base.Thread} {index : Nat} {state : State} {globalValue : Int}
  {point : Point}

theorem Alone.stepAs (strerror : Int → StdString) (accepts : Int → Bool) (policy : Int)
    (priorityTable : List Int)
    (alone : Alone context index state globalValue point) :
    state.stepAs strerror accepts policy priorityTable (.act (.thread index)) =
      state.decrement priorityTable index :=
  stepAs_thread strerror accepts policy alone.running
    (alone.runnable ▸ (dispatch_iff_head (by simp) alone.current index).mpr rfl)

theorem Alone.compare (strerror : Int → StdString) (accepts : Int → Bool) (policy : Int)
    (priorityTable : List Int)
    (alone : Alone context index state globalValue .entry) :
    ∃ next, state.stepAs strerror accepts policy priorityTable (.act (.thread index)) = some next ∧
      Alone context index next globalValue .compared := by
  rw [alone.stepAs, State.decrement, alone.point]
  exact ⟨_, rfl, alone.running, alone.context, alone.runnable, .inr rfl, alone.value,
    Function.update_self ..⟩

theorem Alone.load (strerror : Int → StdString) (accepts : Int → Bool) (policy : Int)
    (priorityTable : List Int)
    (alone : Alone context index state globalValue .compared) :
    ∃ next, state.stepAs strerror accepts policy priorityTable (.act (.thread index)) = some next ∧
      Alone context index next globalValue (.loaded globalValue) := by
  rw [alone.stepAs, State.decrement, alone.point, alone.value]
  exact ⟨_, rfl, alone.running, alone.context, alone.runnable, .inr rfl, alone.value,
    Function.update_self ..⟩

theorem Alone.write (strerror : Int → StdString) (accepts : Int → Bool) (policy : Int)
    (priorityTable : List Int)
    {value : Int} (alone : Alone context index state globalValue (.loaded value)) :
    ∃ next, state.stepAs strerror accepts policy priorityTable (.act (.thread index)) = some next ∧
      Alone context index next (value - 1) .written := by
  rw [alone.stepAs, State.decrement, alone.point]
  exact ⟨_, rfl, alone.running, alone.context, alone.runnable, .inr rfl, rfl,
    Function.update_self ..⟩

/-- A thread that is alone runs to its end. -/
theorem Alone.run (strerror : Int → StdString) (accepts : Int → Bool) (policy initial : Int)
    (alone : Alone context index state globalValue .entry) :
    ∃ next, (runPolicy strerror accepts policy priorityTable initial).run state
        (List.replicate 4 (.act (.thread index))) = some next ∧
      next.creator = .running ∧ next.context = context ∧ next.runnable = [] ∧
      next.current = none ∧ next.globalValue = globalValue - 1 := by
  obtain ⟨second, compared, alone⟩ := alone.compare strerror accepts policy priorityTable
  obtain ⟨third, loaded, alone⟩ := alone.load strerror accepts policy priorityTable
  obtain ⟨fourth, written, alone⟩ := alone.write strerror accepts policy priorityTable
  have ended := alone.stepAs strerror accepts policy priorityTable
  rw [State.decrement, alone.point] at ended
  simp only [List.replicate, Machine.run_cons, Machine.run_nil, runPolicy, compared, loaded,
    written, ended, Option.bind_some]
  refine ⟨_, rfl, alone.running, alone.context, ?_, rfl, alone.value⟩
  simp [alone.runnable]

end Alone

/-- Only `turns` threads were created, each after the end of the one before. -/
structure InTurn (priorityTable : List Int) (state : State) (turns : Nat) : Prop where
  running : state.creator = .running
  length : state.context.length = turns
  runnable : state.runnable = []
  current : state.current = none
  value : state.globalValue = priorityTable.length - turns

theorem InTurn.next (strerror : Int → StdString) (policy globalValue : Int) {state : State}
    {turns : Nat} (inTurn : InTurn priorityTable state turns)
    (inside : turns < priorityTable.length) (accepted : accepts priorityTable[turns] = true) :
    ∃ next, (runPolicy strerror accepts policy priorityTable globalValue).run state
        (.act (.create {}) :: List.replicate 4 (.act (.thread turns))) = some next ∧
      InTurn priorityTable next (turns + 1) := by
  have entry : priorityTable[state.context.length]? = some priorityTable[turns] := by
    rw [inTurn.length, List.getElem?_eq_getElem inside]
  obtain ⟨handle, created⟩ := stepAs_create strerror policy state inTurn.running entry accepted
  have alone : Alone (state.context ++ [handle]) turns
      { state.started policy priorityTable[turns] handle with
        verified := state.verified && verifyPriority policy priorityTable[turns] }
      (priorityTable.length - turns) .entry :=
    ⟨rfl, rfl, by simp [State.started, State.start, inTurn.runnable, inTurn.length],
      .inl inTurn.current, inTurn.value, by simp [State.started, State.start, inTurn.length]⟩
  obtain ⟨next, ran, running, context, runnable, current, value⟩ :=
    alone.run strerror accepts policy globalValue
  refine ⟨next, ?_, running, ?_, runnable, current, ?_⟩
  · rw [Machine.run_cons]
    exact Option.bind_eq_some_iff.mpr ⟨_, created, ran⟩
  · simp [context, inTurn.length]
  · rw [value]
    omega

theorem inTurn_reachable (strerror : Int → StdString) (policy globalValue : Int) {turns : Nat}
    (inside : turns ≤ priorityTable.length)
    (accepted : ∀ (index : Nat) (bound : index < priorityTable.length), index < turns →
      accepts priorityTable[index] = true) :
    ∃ state, (runPolicy strerror accepts policy priorityTable globalValue).Reachable state ∧
      InTurn priorityTable state turns := by
  induction turns with
  | zero => exact ⟨_, ⟨[.act .set], rfl⟩, rfl, rfl, rfl, rfl, (Int.sub_zero _).symm⟩
  | succ turns ih =>
      obtain ⟨state, ⟨labels, ran⟩, inTurn⟩ := ih (Nat.le_of_succ_le inside)
        fun index bound before => accepted index bound (Nat.lt_succ_of_lt before)
      obtain ⟨next, later, still⟩ := inTurn.next strerror policy globalValue inside
        (accepted turns inside (Nat.lt_succ_self turns))
      refine ⟨next, ⟨labels ++ .act (.create {}) :: List.replicate 4 (.act (.thread turns)), ?_⟩,
        still⟩
      rw [Machine.run_append, ran, Option.bind_some, later]

theorem reachable_step {globalValue : Int} {state next : State} {move : Move}
    (reached : (runPolicy strerror accepts policy priorityTable globalValue).Reachable state)
    (stepped : state.stepAs strerror accepts policy priorityTable move = some next) :
    (runPolicy strerror accepts policy priorityTable globalValue).Reachable next :=
  reached.next stepped

/-- A table whose entries up to `index` are accepted is checked at `index`, whether or not the
thread is created then. -/
theorem positive_of_verified {globalValue : Int} (realtime : Realtime policy)
    (verified : ∀ state,
      (runPolicy strerror accepts policy priorityTable globalValue).Reachable state →
      state.verified = true) {index : Nat} (inside : index < priorityTable.length)
    (accepted : ∀ (other : Nat) (bound : other < priorityTable.length), other < index →
      accepts priorityTable[other] = true) : 0 < priorityTable[index] := by
  obtain ⟨state, reached, inTurn⟩ :=
    inTurn_reachable strerror policy globalValue (Nat.le_of_lt inside) accepted
  have entry : priorityTable[state.context.length]? = some priorityTable[index] := by
    rw [inTurn.length, List.getElem?_eq_getElem inside]
  obtain ⟨next, refused, _, checked⟩ :=
    stepAs_create_refused strerror accepts policy state inTurn.running entry
  rw [verified next (reachable_step reached refused), verifyPriority_of_realtime realtime,
    eq_comm, Bool.and_eq_true, decide_eq_true_eq] at checked
  exact checked.2

/-- Two threads of one priority wait, and no other one is runnable. -/
structure Tied (priorityTable : List Int) (state : State) (index : Nat) (priority : Int) :
    Prop where
  running : state.creator = .running
  runnable : state.runnable = [index, index + 1]
  current : state.current = none
  first : state.point index = .entry
  second : state.point (index + 1) = .entry
  scheduling : state.scheduling index = ⟨schedRr, priority⟩
  tied : state.scheduling (index + 1) = ⟨schedRr, priority⟩
  value : state.globalValue = priorityTable.length - index

theorem tied_reachable (strerror : Int → StdString) (globalValue : Int)
    (accepted : ∀ priority ∈ priorityTable, accepts priority = true) {index : Nat}
    (inside : index + 1 < priorityTable.length)
    (same : priorityTable[index] = priorityTable[index + 1]) :
    ∃ state, (runPolicy strerror accepts schedRr priorityTable globalValue).Reachable state ∧
      Tied priorityTable state index priorityTable[index] := by
  obtain ⟨state, reached, inTurn⟩ := inTurn_reachable strerror schedRr globalValue
    (Nat.le_of_lt (Nat.lt_of_succ_lt inside)) fun other bound _ => accepted _ (List.getElem_mem bound)
  have allowed := accepted _ (List.getElem_mem (Nat.lt_of_succ_lt inside))
  have entry : priorityTable[state.context.length]? = some priorityTable[index] := by
    rw [inTurn.length, List.getElem?_eq_getElem (Nat.lt_of_succ_lt inside)]
  obtain ⟨handle, created⟩ := stepAs_create strerror schedRr state inTurn.running entry allowed
  have length : (state.context ++ [handle]).length = index + 1 := by simp [inTurn.length]
  have later : priorityTable[(state.context ++ [handle]).length]? = some priorityTable[index] := by
    rw [length, List.getElem?_eq_getElem inside, same]
  obtain ⟨_, followed⟩ := stepAs_create strerror schedRr
    { state.started schedRr priorityTable[index] handle with
      verified := state.verified && verifyPriority schedRr priorityTable[index] } rfl later allowed
  refine ⟨_, reachable_step (reachable_step reached created) followed, rfl, ?_, inTurn.current, ?_,
    ?_, ?_, ?_, inTurn.value⟩
  · simp [State.started, State.start, inTurn.runnable, inTurn.length]
  · simp [State.started, State.start, inTurn.length]
  · simp [State.started, State.start, inTurn.length]
  · simp [State.started, State.start, inTurn.length, PthreadAttr.scheduling]
  · simp [State.started, State.start, inTurn.length, PthreadAttr.scheduling]

/-- The state after the check at the start of `decrement`. -/
def State.compare (priorityTable : List Int) (state : State) (index : Nat) : State :=
  { state.move index .compared with
    comparisons := state.comparisons ++ [⟨index, state.globalValue, expected priorityTable index⟩]
    verified := state.verified && decide (state.globalValue = expected priorityTable index) }

theorem stepAs_compare (strerror : Int → StdString) (accepts : Int → Bool) (policy : Int)
    (priorityTable : List Int) (state : State) {index : Nat} (running : state.creator = .running)
    (dispatched : Dispatch (fun thread => (state.scheduling thread).priority) state.runnable
      state.current index) (ready : state.point index = .entry) :
    state.stepAs strerror accepts policy priorityTable (.act (.thread index)) =
      some (state.compare priorityTable index) := by
  rw [stepAs_thread strerror accepts policy running dispatched, State.decrement, ready]
  rfl

theorem stepAs_expire (strerror : Int → StdString) (accepts : Int → Bool) (policy : Int)
    (priorityTable : List Int) (state : State) {index : Nat} (running : state.creator = .running)
    (current : state.current = some index)
    (roundRobin : (state.scheduling index).policy = schedRr) :
    state.stepAs strerror accepts policy priorityTable .expire = some (state.endSlice index) := by
  simp [State.stepAs, current, running, roundRobin]

/-- The slice of the first thread ends before it writes, and the second one reads the
value that the first one has read. -/
theorem Tied.mismatch (strerror : Int → StdString) {globalValue : Int} {state : State}
    {index : Nat} {priority : Int} (tied : Tied priorityTable state index priority)
    (reached : (runPolicy strerror accepts schedRr priorityTable globalValue).Reachable state) :
    ∃ next, (runPolicy strerror accepts schedRr priorityTable globalValue).Reachable next ∧
      next.verified = false := by
  have highest : Dispatch (fun thread => (state.scheduling thread).priority) state.runnable
      state.current index := by
    rw [tied.runnable]
    refine (dispatch_iff_head ?_ (.inl tied.current) index).mpr rfl
    intro later member
    rw [List.mem_singleton.mp member, tied.scheduling, tied.tied]
  have takesOver : Dispatch (fun thread => (state.scheduling thread).priority)
      (expire state.runnable index) none (index + 1) := by
    rw [tied.runnable]
    refine dispatch_expire (Nat.succ_ne_self index) ?_ (by simp)
    rw [tied.scheduling, tied.tied]
  have waiting : (state.compare priorityTable index).point (index + 1) = .entry :=
    (Function.update_of_ne (Nat.succ_ne_self index) _ _).trans tied.second
  have compared := stepAs_compare strerror accepts schedRr priorityTable state tied.running highest
    tied.first
  have expired := stepAs_expire strerror accepts schedRr priorityTable
    (state.compare priorityTable index) tied.running rfl (congrArg Scheduling.policy tied.scheduling)
  have failed := stepAs_compare strerror accepts schedRr priorityTable
    ((state.compare priorityTable index).endSlice index) tied.running takesOver waiting
  refine ⟨_, reachable_step (reachable_step (reachable_step reached compared) expired) failed, ?_⟩
  have different : state.globalValue ≠ expected priorityTable (index + 1) := by
    rw [tied.value, expected]
    omega
  exact Bool.and_eq_false_iff.mpr (.inr (decide_eq_false different))

/-- Of two neighbours with one priority the second must not run before the first ends. -/
theorem strict_of_verified {globalValue : Int}
    (accepted : ∀ priority ∈ priorityTable, accepts priority = true)
    (verified : ∀ state,
      (runPolicy strerror accepts schedRr priorityTable globalValue).Reachable state →
      state.verified = true)
    (falling : priorityTable.Pairwise (· ≥ ·)) :
    priorityTable.Pairwise (· > ·) := by
  refine List.isChain_iff_pairwise.mp (List.isChain_iff_getElem.mpr ?_)
  intro index inside
  have step : priorityTable[index + 1] ≤ priorityTable[index] :=
    List.pairwise_iff_getElem.mp falling index (index + 1) _ inside (Nat.lt_succ_self index)
  refine lt_of_le_of_ne step ?_
  intro same
  obtain ⟨state, reached, tied⟩ := tied_reachable strerror globalValue accepted inside same.symm
  obtain ⟨next, reachedNext, failed⟩ := tied.mismatch strerror reached
  cases (verified next reachedNext).symm.trans failed

/-!
## Priorities above the highest
-/

theorem upTo_iff {highest : Nat} {priority : Int} :
    upTo highest priority = true ↔ 0 < priority ∧ priority ≤ highest := by
  rw [upTo, decide_eq_true_eq]
  omega

/-- The first thread has a priority above the highest that the system accepts. -/
def Refused (highest : Nat) (priorityTable : List Int) : Prop :=
  ∃ priority ∈ priorityTable.head?, (highest : Int) < priority

instance (highest : Nat) (priorityTable : List Int) : Decidable (Refused highest priorityTable) :=
  inferInstanceAs (Decidable (∃ priority ∈ priorityTable.head?, (highest : Int) < priority))

theorem Refused.shape {highest : Nat} (refused : Refused highest priorityTable) :
    ∃ first rest, priorityTable = first :: rest ∧ (highest : Int) < first := by
  obtain ⟨first, head, above⟩ := refused
  obtain ⟨rest, shape⟩ := List.head?_eq_some_iff.mp head
  exact ⟨first, rest, shape, above⟩

/-- No thread was created. -/
structure Unstarted (state : State) : Prop where
  creator : state.creator = .start ∨ state.creator = .running
  context : state.context = []
  absent : ∀ index, state.point index = .absent
  current : state.current = none

def Barred (state : State) : Prop := state.creator = .exited ∨ Unstarted state

theorem Barred.not_finished {state : State} (barred : Barred state) :
    state.creator ≠ .finished := by
  rcases barred with exited | ⟨start | running, _, _, _⟩
  · simp [exited]
  · simp [start]
  · simp [running]

/-- The process exits when it creates the first thread; the flag stays if the table falls. -/
theorem Refused.step {highest : Nat} (refused : Refused highest priorityTable)
    {state next : State} {move : Move} (barred : Barred state)
    (stepped : state.stepAs strerror (upTo highest) policy priorityTable move = some next) :
    Barred next ∧ (priorityTable.Pairwise (· ≥ ·) → state.verified = true →
      next.verified = true) := by
  obtain ⟨first, rest, rfl, above⟩ := refused.shape
  obtain unstarted := barred.resolve_left fun gone => by
    cases (stepAs_of_exited gone move).symm.trans stepped
  have bare : state.context.length ≠ (first :: rest).length := by simp [unstarted.context]
  cases move with
  | act action =>
      obtain ⟨possible, stepped⟩ := Option.ite_none_right_eq_some.mp stepped
      cases action with
      | set =>
          obtain ⟨_, performed⟩ := Option.ite_none_right_eq_some.mp stepped
          cases performed
          refine ⟨.inr ⟨.inr rfl, unstarted.context, unstarted.absent, unstarted.current⟩, ?_⟩
          intro falling verified
          simp [verified, descending_of_pairwise falling]
      | create results =>
          obtain ⟨_, performed⟩ := Option.ite_none_right_eq_some.mp stepped
          rw [unstarted.context] at performed
          cases performed
          have checked : verifyPriority policy first = true := by
            rw [verifyPriority]
            split
            · exact decide_eq_true (by omega)
            · rfl
          have refusedCall : results.setSchedParam ≠ 0 ∨ results.create ≠ 0 := by
            have entry : first ∈ (first :: rest)[state.context.length]? := by
              simp [unstarted.context]
            refine (possible first entry).resolve_left ?_
            rw [upTo_iff]
            omega
          have outcome := state.creation strerror checked results
          have absent := Thread.construct_refused strerror policy first
            (show ({ results with id := state.context.length } : PthreadResults).setSchedParam ≠ 0 ∨
              _ from refusedCall)
          rw [absent] at outcome
          cases outcome with
          | refused gone kept => exact ⟨.inl gone, fun _ verified => kept.trans verified⟩
      | join =>
          obtain ⟨⟨_, all⟩, _⟩ := Option.ite_none_right_eq_some.mp stepped
          exact absurd all bare
      | finish =>
          obtain ⟨⟨_, all, _⟩, _⟩ := Option.ite_none_right_eq_some.mp stepped
          exact absurd all bare
      | thread index =>
          obtain ⟨_, performed⟩ := Option.ite_none_right_eq_some.mp stepped
          simp [State.decrement, unstarted.absent] at performed
  | expire => simp [State.stepAs, unstarted.current] at stepped

theorem Refused.reachable {highest : Nat} (refused : Refused highest priorityTable)
    {globalValue : Int} {state : State}
    (reached : (runPolicy strerror (upTo highest) policy priorityTable globalValue).Reachable
      state) :
    Barred state ∧ (priorityTable.Pairwise (· ≥ ·) → state.verified = true) := by
  refine reached.invariant (fun state => Barred state ∧
    (priorityTable.Pairwise (· ≥ ·) → state.verified = true)) ?_ ?_
  · exact ⟨.inr ⟨.inl rfl, rfl, fun _ => rfl, rfl⟩, fun _ => rfl⟩
  · rintro source move target _ ⟨barred, verified⟩ stepped
    obtain ⟨still, kept⟩ := refused.step barred stepped
    exact ⟨still, fun falling => kept falling (verified falling)⟩

/-!
## Which tables pass
-/

/-- Where the first thread is refused, only the order of the table is ever checked. -/
def Passes (highest : Nat) (policy : Int) (priorityTable : List Int) : Prop :=
  if Refused highest priorityTable then priorityTable.Pairwise (· ≥ ·)
  else (∀ priority ∈ priorityTable, 0 < priority) ∧ Sorted policy priorityTable

instance (highest : Nat) (policy : Int) (priorityTable : List Int) :
    Decidable (Passes highest policy priorityTable) := inferInstanceAs (Decidable (ite ..))

theorem le_highest {highest : Nat} (accessible : ¬ Refused highest priorityTable)
    (falling : priorityTable.Pairwise (· ≥ ·)) : ∀ priority ∈ priorityTable, priority ≤ highest := by
  intro priority member
  cases priorityTable with
  | nil => cases member
  | cons first rest =>
      have bound : first ≤ highest := by
        by_contra above
        exact accessible ⟨first, rfl, Int.not_le.mp above⟩
      rcases List.mem_cons.mp member with rfl | later
      · exact bound
      · exact Int.le_trans ((List.pairwise_cons.mp falling).1 priority later) bound

theorem accepted_of_positive {highest : Nat} (accessible : ¬ Refused highest priorityTable)
    (falling : priorityTable.Pairwise (· ≥ ·)) (positive : ∀ priority ∈ priorityTable, 0 < priority) :
    ∀ priority ∈ priorityTable, upTo highest priority = true :=
  fun priority member => upTo_iff.mpr
    ⟨positive priority member, le_highest accessible falling priority member⟩

/-- The runs of a table show whether it suits the policy. -/
theorem sorted_of_verified {highest : Nat} {globalValue : Int} (realtime : Realtime policy)
    (accessible : ¬ Refused highest priorityTable) (falling : priorityTable.Pairwise (· ≥ ·))
    (verified : ∀ state,
      (runPolicy strerror (upTo highest) policy priorityTable globalValue).Reachable state →
      state.verified = true) :
    (∀ priority ∈ priorityTable, 0 < priority) ∧ Sorted policy priorityTable := by
  have below := le_highest accessible falling
  have indexed : ∀ (index : Nat) (inside : index < priorityTable.length),
      0 < priorityTable[index] := by
    intro index
    induction index using Nat.strongRecOn with
    | ind index ih =>
        intro inside
        refine positive_of_verified realtime verified inside ?_
        intro other bound before
        exact upTo_iff.mpr ⟨ih other before bound, below _ (List.getElem_mem bound)⟩
  have positive : ∀ priority ∈ priorityTable, 0 < priority := by
    intro priority member
    obtain ⟨index, inside, rfl⟩ := List.getElem_of_mem member
    exact indexed index inside
  refine ⟨positive, ?_⟩
  by_cases roundRobin : policy = schedRr
  · subst roundRobin
    rw [Sorted, if_pos rfl]
    exact strict_of_verified (accepted_of_positive accessible falling positive) verified falling
  · rw [Sorted, if_neg roundRobin]
    exact falling

theorem verified_of_sorted {globalValue : Int} (realtime : Realtime policy)
    (positive : ∀ priority ∈ priorityTable, 0 < priority) (sorted : Sorted policy priorityTable)
    {state : State}
    (reached : (runPolicy strerror accepts policy priorityTable globalValue).Reachable state) :
    state.verified = true := by
  obtain ⟨_, _, follows⟩ := (runPolicy_simulation strerror accepts realtime sorted positive
    globalValue).reachable reached
  exact follows.verified

/-- The test passes whatever order its threads take, exactly when the priorities
are positive and fall; under `SCHED_FIFO` neighbours may be equal. A table whose first thread the
system refuses need only not rise. -/
theorem run_passes_iff (strerror : Int → StdString) (highest : Nat) (realtime : Realtime policy)
    (priorityTable : List Int) (globalValue : Int) :
    (∀ state, (runPolicy strerror (upTo highest) policy priorityTable globalValue).Reachable
      state → state.verified = true) ↔ Passes highest policy priorityTable := by
  constructor
  · intro verified
    have falling : priorityTable.Pairwise (· ≥ ·) :=
      pairwise_of_descending (verified _ ⟨[.act .set], rfl⟩)
    rw [Passes]
    split
    · exact falling
    · next accessible => exact sorted_of_verified realtime accessible falling verified
  · intro passes state reached
    rw [Passes] at passes
    split at passes
    · next refused => exact (refused.reachable reached).2 passes
    · exact verified_of_sorted realtime passes.1 passes.2 reached

/-- Two threads of one priority, which the system accepts or not. -/
theorem run_passes_iff_pair :
    (∃ state, (runPolicy (fun _ => []) (upTo 99) schedRr [10, 10] 0).Reachable state ∧
      state.verified ≠ true) ∧
    ∀ state, (runPolicy (fun _ => []) (upTo 99) schedRr [100, 100] 0).Reachable state →
      state.verified = true := by
  refine ⟨?_, (run_passes_iff (fun _ => []) 99 (.inr rfl) [100, 100] 0).mpr (by decide)⟩
  by_contra never
  push Not at never
  have passes := (run_passes_iff (fun _ => []) 99 (.inr rfl) [10, 10] 0).mp never
  exact absurd passes (by decide)

/-- The tables of `main`. -/
example :
    (∀ table ∈ [[1, 1, 1], [10, 10, 10], [30, 20, 10], [30, 29, 28, 20, 19, 18]],
      Passes 99 schedFifo table) ∧
    ∀ table ∈ [[30, 20, 10], [30, 29, 28, 27, 26, 25]], Passes 99 schedRr table := by
  decide

end Libpreempt.Tests.Decrement
