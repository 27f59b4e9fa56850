import Libpreempt.Base.ThreadingProperties
import Libpreempt.Stdlib.Vector
import Libpreempt.Tests.Decrement

/-! With priorities that do not rise, the `SCHED_FIFO` threads of `run` execute one
after the other in the order of their creation, and the counter needs no lock. -/

set_option autoImplicit false

namespace Libpreempt.Tests.Decrement

open Libpreempt.Base Libpreempt.Scheduling Libpreempt.Transition

variable {strerror : Int → StdString} {priorityTable : List Int}

theorem descending_of_pairwise (sorted : priorityTable.Pairwise (· ≥ ·)) :
    descending priorityTable = true := by
  induction priorityTable with
  | nil => rfl
  | cons first rest ih =>
      cases rest with
      | nil => rfl
      | cons second rest =>
          obtain ⟨bound, later⟩ := List.pairwise_cons.mp sorted
          have step : second ≤ first := bound second (List.mem_cons_self ..)
          simp [descending, step, ih later]

theorem priority_antitone (sorted : priorityTable.Pairwise (· ≥ ·)) {earlier later : Nat}
    {high low : Int} (order : earlier ≤ later) (first : priorityTable[earlier]? = some high)
    (second : priorityTable[later]? = some low) : low ≤ high := by
  obtain ⟨earlierBound, rfl⟩ := List.getElem?_eq_some_iff.mp first
  obtain ⟨laterBound, rfl⟩ := List.getElem?_eq_some_iff.mp second
  rcases Nat.lt_or_eq_of_le order with strict | same
  · exact List.pairwise_iff_getElem.mp sorted earlier later earlierBound laterBound strict
  · subst later
    exact Int.le_refl _

/-- Where the thread `index` can be in its turn, `writes` counting the values
that were written back. -/
inductive Turn (globalValue : Int) (writes index : Nat) (point : Point) : Prop where
  | entry (place : point = .entry) (written : writes = index)
  | compared (place : point = .compared) (written : writes = index)
  | loaded (place : point = .loaded globalValue) (written : writes = index)
  | written (place : point = .written) (written : writes = index + 1)

theorem Turn.of_eq {globalValue : Int} {writes index : Nat} {point other : Point}
    (turn : Turn globalValue writes index point) (same : other = point) :
    Turn globalValue writes index other := by
  subst other
  exact turn

/-- The first `ended` threads have ended, the next one has its turn, and the
others wait in the order of their creation. -/
structure Ordered (priorityTable : List Int) (state : State) (ended : Nat) : Prop where
  bound : ended ≤ state.context.length
  created : state.context.length ≤ priorityTable.length
  handles : ∀ (index : Nat) (handle : Base.Thread), state.context[index]? = some handle →
    handle.id = index ∧ handle.joinable = true
  scheduling : ∀ (index : Nat) (priority : Int), index < state.context.length →
    priorityTable[index]? = some priority → state.scheduling index = ⟨schedFifo, priority⟩
  runnable : state.runnable = List.range' ended (state.context.length - ended)
  current : state.current = none ∨ state.current = some ended ∧ ended < state.context.length
  finished : ∀ index < ended, state.point index = .ended
  waiting : ∀ index, ended < index → index < state.context.length → state.point index = .entry
  absent : ∀ index, state.context.length ≤ index → state.point index = .absent
  turn : ended < state.context.length →
    Turn state.globalValue state.writes ended (state.point ended)
  idle : ended = state.context.length → state.writes = ended
  joined : state.joined ≤ ended
  fresh : state.creator = .start → state.context = []
  value : state.creator ≠ .start → state.globalValue = priorityTable.length - state.writes
  final : state.creator = .finished → ended = state.context.length

structure Correct (priorityTable : List Int) (state : State) : Prop where
  comparisons : ∀ comparison ∈ state.comparisons, comparison.found = comparison.expected
  writes : state.creator ≠ .start → state.globalValue = priorityTable.length - state.writes
  final : state.creator = .finished →
    state.globalValue = 0 ∧ state.writes = priorityTable.length
  verified : state.verified = true

/-- Only the thread whose turn it is may take a step. -/
theorem Ordered.turn_of_scheduled {state : State} {ended index : Nat}
    (ordered : Ordered priorityTable state ended) (sorted : priorityTable.Pairwise (· ≥ ·))
    (allowed : state.Scheduled index) (present : state.point index ≠ .absent) :
    index = ended ∧ ended < state.context.length := by
  have priorityOf : ∀ thread, thread < state.context.length → ∃ priority,
      priorityTable[thread]? = some priority ∧ state.scheduling thread = ⟨schedFifo, priority⟩ := by
    intro thread bound
    have inside := Nat.lt_of_lt_of_le bound ordered.created
    exact ⟨_, List.getElem?_eq_getElem inside,
      ordered.scheduling thread _ bound (List.getElem?_eq_getElem inside)⟩
  have inside : index < state.context.length := by
    rcases Nat.lt_or_ge index state.context.length with inside | outside
    · exact inside
    · exact absurd (ordered.absent index outside) present
  obtain ⟨priority, _, known⟩ := priorityOf index inside
  have dispatched := allowed (by rw [known]; exact .inl rfl)
  have active : ended < state.context.length := by
    have member := dispatched.member
    rw [ordered.runnable, List.mem_range'_1] at member
    omega
  have shape : state.runnable =
      ended :: List.range' (ended + 1) (state.context.length - ended - 1) := by
    rw [ordered.runnable, ← List.range'_succ]
    congr 1
    omega
  rw [shape] at dispatched
  refine ⟨(dispatch_iff_head ?_ ?_ index).mp dispatched, active⟩
  · intro later member
    rw [List.mem_range'_1] at member
    obtain ⟨high, highAt, highKnown⟩ := priorityOf ended active
    obtain ⟨low, lowAt, lowKnown⟩ := priorityOf later (by omega)
    rw [highKnown, lowKnown]
    exact priority_antitone sorted (by omega) highAt lowAt
  · rcases ordered.current with idle | ⟨running, _⟩
    · exact .inl idle
    · exact .inr running

/-!
## Steps of the realtime threads
-/

theorem Ordered.advance {state : State} {ended : Nat}
    (ordered : Ordered priorityTable state ended) (active : ended < state.context.length)
    {point : Point} {globalValue : Int} {comparisons : List Comparison} {writes : Nat}
    {verified : Bool}
    (turn : Turn globalValue writes ended point)
    (value : state.creator ≠ .start → globalValue = priorityTable.length - writes) :
    Ordered priorityTable
      { state.move ended point with globalValue, comparisons, writes, verified } ended where
  bound := ordered.bound
  created := ordered.created
  handles := ordered.handles
  scheduling := ordered.scheduling
  runnable := ordered.runnable
  current := .inr ⟨rfl, active⟩
  finished index before :=
    (Function.update_of_ne (Nat.ne_of_lt before) _ _).trans (ordered.finished index before)
  waiting index after inside :=
    (Function.update_of_ne (Nat.ne_of_gt after) _ _).trans (ordered.waiting index after inside)
  absent index outside :=
    (Function.update_of_ne (Nat.ne_of_gt (Nat.lt_of_lt_of_le active outside)) _ _).trans
      (ordered.absent index outside)
  turn _ := turn.of_eq (Function.update_self ..)
  idle same := absurd active (Nat.not_lt_of_ge (Nat.le_of_eq same.symm))
  joined := ordered.joined
  fresh := ordered.fresh
  value := value
  final := ordered.final

theorem Ordered.exit {state : State} {ended : Nat} (ordered : Ordered priorityTable state ended)
    (active : ended < state.context.length) (writes : state.writes = ended + 1) :
    Ordered priorityTable
      { state.move ended .ended with
        runnable := state.runnable.filter (· ≠ ended), current := none } (ended + 1) where
  bound := active
  created := ordered.created
  handles := ordered.handles
  scheduling := ordered.scheduling
  runnable := by
    have shape : state.runnable =
        ended :: List.range' (ended + 1) (state.context.length - (ended + 1)) := by
      rw [ordered.runnable, ← List.range'_succ]
      congr 1
      omega
    change state.runnable.filter _ = List.range' (ended + 1) (state.context.length - (ended + 1))
    rw [shape, List.filter_cons_of_neg (by simp), List.filter_eq_self]
    intro index member
    rw [List.mem_range'_1] at member
    simp only [decide_eq_true_eq]
    omega
  current := .inl rfl
  finished index before := by
    rcases Nat.lt_succ_iff_lt_or_eq.mp before with earlier | same
    · exact (Function.update_of_ne (Nat.ne_of_lt earlier) _ _).trans
        (ordered.finished index earlier)
    · subst index
      exact Function.update_self ..
  waiting index after inside :=
    (Function.update_of_ne (Nat.ne_of_gt (Nat.lt_of_succ_lt after)) _ _).trans
      (ordered.waiting index (Nat.lt_of_succ_lt after) inside)
  absent index outside :=
    (Function.update_of_ne (Nat.ne_of_gt (Nat.lt_of_lt_of_le active outside)) _ _).trans
      (ordered.absent index outside)
  turn inside :=
    .entry ((Function.update_of_ne (Nat.succ_ne_self ended) _ _).trans
      (ordered.waiting (ended + 1) (Nat.lt_succ_self ended) inside)) writes
  idle _ := writes
  joined := Nat.le_succ_of_le ordered.joined
  fresh := ordered.fresh
  value := ordered.value
  final finished := absurd active (Nat.not_lt_of_ge (Nat.le_of_eq (ordered.final finished).symm))

theorem Ordered.decrement {state next : State} {ended : Nat}
    (ordered : Ordered priorityTable state ended) (active : ended < state.context.length)
    (correct : Correct priorityTable state)
    (stepped : state.decrement priorityTable ended = some next) :
    Correct priorityTable next ∧ ∃ later, Ordered priorityTable next later := by
  have started : state.creator ≠ .start := by
    intro start
    rw [ordered.fresh start] at active
    exact absurd active (Nat.not_lt_zero _)
  have value := ordered.value started
  have running : state.creator ≠ .finished := by
    intro finished
    exact absurd active (Nat.not_lt_of_ge (Nat.le_of_eq (ordered.final finished).symm))
  cases ordered.turn active with
  | entry place writes =>
      rw [State.decrement, place] at stepped
      cases stepped
      have found : state.globalValue = expected priorityTable ended := by
        rw [value, writes]
        rfl
      refine ⟨⟨?_, ordered.value, ?_, ?_⟩, ended, ?_⟩
      · intro comparison member
        rcases List.mem_append.mp member with old | new
        · exact correct.comparisons comparison old
        · rw [List.mem_singleton.mp new]
          exact found
      · intro finished
        exact absurd finished running
      · simp [correct.verified, found]
      · exact ordered.advance active (.compared rfl writes) ordered.value
  | compared place writes =>
      rw [State.decrement, place] at stepped
      cases stepped
      refine ⟨⟨correct.comparisons, ordered.value, correct.final, correct.verified⟩, ended, ?_⟩
      exact ordered.advance active (.loaded rfl writes) ordered.value
  | loaded place writes =>
      rw [State.decrement, place] at stepped
      cases stepped
      have lower : state.creator ≠ .start →
          state.globalValue - 1 = priorityTable.length - ((state.writes + 1 : Nat) : Int) := by
        intro _
        rw [value]
        omega
      refine ⟨⟨correct.comparisons, lower, ?_, correct.verified⟩, ended, ?_⟩
      · intro finished
        exact absurd finished running
      · exact ordered.advance active (.written rfl (congrArg (· + 1) writes)) lower
  | written place writes =>
      rw [State.decrement, place] at stepped
      cases stepped
      exact ⟨⟨correct.comparisons, correct.writes, correct.final, correct.verified⟩, ended + 1,
        ordered.exit active writes⟩

/-!
## Steps of the creator
-/

theorem Ordered.start {state : State} {ended index : Nat} {priority : Int} {handle : Base.Thread}
    {verified : Bool} (ordered : Ordered priorityTable state ended)
    (running : state.creator = .running) (last : index = state.context.length)
    (entry : priorityTable[index]? = some priority)
    (known : handle.id = index) (active : handle.joinable = true) :
    Ordered priorityTable
      { state.start index ⟨.joinable, .explicit, schedFifo, priority⟩ with
        creator := .running, context := state.context ++ [handle], verified } ended where
  bound := by
    have bound := ordered.bound
    simp only [List.length_append, List.length_singleton]
    omega
  created := by
    have inside := (List.getElem?_eq_some_iff.mp entry).1
    simp only [List.length_append, List.length_singleton]
    omega
  handles place held present := by
    rcases Stdlib.getElem?_append_singleton present with old | ⟨place, rfl⟩
    · exact ordered.handles _ held old
    · exact ⟨known.trans (last.trans place.symm), active⟩
  scheduling place low inside present := by
    simp only [List.length_append, List.length_singleton] at inside
    by_cases same : place = index
    · rw [same] at present ⊢
      cases entry.symm.trans present
      exact Function.update_self ..
    · exact (Function.update_of_ne same _ _).trans
        (ordered.scheduling place low (by omega) present)
  runnable := by
    have bound := ordered.bound
    change state.runnable ++ [index] = _
    rw [ordered.runnable, List.length_append, List.length_singleton,
      Nat.succ_sub bound, List.range'_concat, last]
    congr 2
    omega
  current := by
    rcases ordered.current with idle | ⟨held, inside⟩
    · exact .inl idle
    · refine .inr ⟨held, ?_⟩
      simp only [List.length_append, List.length_singleton]
      omega
  finished place before := by
    have bound := ordered.bound
    exact (Function.update_of_ne (by omega) _ _).trans (ordered.finished place before)
  waiting place after inside := by
    simp only [List.length_append, List.length_singleton] at inside
    by_cases same : place = index
    · subst place
      exact Function.update_self ..
    · exact (Function.update_of_ne same _ _).trans (ordered.waiting place after (by omega))
  absent place outside := by
    simp only [List.length_append, List.length_singleton] at outside
    exact (Function.update_of_ne (by omega) _ _).trans (ordered.absent place (by omega))
  turn inside := by
    by_cases same : ended = index
    · subst ended
      exact .entry (Function.update_self ..) (ordered.idle last)
    · simp only [List.length_append, List.length_singleton] at inside
      exact (ordered.turn (by omega)).of_eq (Function.update_of_ne same _ _)
  idle same := by
    have bound := ordered.bound
    simp only [List.length_append, List.length_singleton] at same
    omega
  joined := ordered.joined
  fresh creator := by cases creator
  value _ := ordered.value (by simp [running])
  final creator := by cases creator

theorem Ordered.create {state : State} {ended : Nat} {priority : Int}
    (ordered : Ordered priorityTable state ended) (correct : Correct priorityTable state)
    (running : state.creator = .running)
    (entry : priorityTable[state.context.length]? = some priority)
    (positive : 0 < priority) (results : PthreadResults) :
    Correct priorityTable (state.create strerror schedFifo priority results) ∧
      ((state.create strerror schedFifo priority results).creator = .exited ∨
        Ordered priorityTable (state.create strerror schedFifo priority results) ended) := by
  have value := ordered.value (by simp [running])
  have checked : verifyPriority schedFifo priority = true := by
    simp [verifyPriority, positive]
  have verified := Thread.construct_verified strerror checked true
    { results with id := state.context.length }
  cases Thread.construct_outcome strerror schedFifo priority true
      { results with id := state.context.length } with
  | refused absent inactive _ =>
      simp only [State.create, absent, inactive, verified]
      refine ⟨⟨correct.comparisons, fun _ => value, ?_, by simp [correct.verified]⟩, .inl rfl⟩
      intro finished
      cases finished
  | created present active known =>
      simp only [State.create, present, active, verified, if_true]
      refine ⟨⟨correct.comparisons, fun _ => value, ?_, by simp [correct.verified]⟩, .inr ?_⟩
      · intro finished
        cases finished
      · exact ordered.start running rfl entry known active

theorem Ordered.join {state : State} {ended : Nat} (ordered : Ordered priorityTable state ended)
    (running : state.creator = .running) {handle : Base.Thread} {verified : Bool}
    (present : state.context[state.joined]? = some handle)
    (gone : state.point handle.id = .ended) :
    Ordered priorityTable { state with joined := state.joined + 1, verified } ended where
  bound := ordered.bound
  created := ordered.created
  handles := ordered.handles
  scheduling := ordered.scheduling
  runnable := ordered.runnable
  current := ordered.current
  finished := ordered.finished
  waiting := ordered.waiting
  absent := ordered.absent
  turn := ordered.turn
  idle := ordered.idle
  joined := by
    rw [(ordered.handles state.joined handle present).1] at gone
    have inside := (List.getElem?_eq_some_iff.mp present).1
    rcases Nat.lt_or_ge state.joined ended with before | notBefore
    · exact before
    · rcases Nat.lt_or_eq_of_le notBefore with after | same
      · cases gone.symm.trans (ordered.waiting state.joined after inside)
      · rw [← same] at gone inside
        cases ordered.turn inside with
        | entry place _ => cases gone.symm.trans place
        | compared place _ => cases gone.symm.trans place
        | loaded place _ => cases gone.symm.trans place
        | written place _ => cases gone.symm.trans place
  fresh start := by cases running.symm.trans start
  value := ordered.value
  final finished := by cases running.symm.trans finished

def Valid (priorityTable : List Int) (state : State) : Prop :=
  Correct priorityTable state ∧
    (state.creator = .exited ∨ ∃ ended, Ordered priorityTable state ended)

theorem valid_initial (globalValue : Int) :
    Valid priorityTable (run strerror schedFifo priorityTable globalValue).initial := by
  refine ⟨⟨List.forall_mem_nil _, fun started => absurd rfl started, ?_, rfl⟩, .inr ⟨0, ?_⟩⟩
  · intro finished
    cases finished
  · exact {
      bound := Nat.le_refl 0
      created := Nat.zero_le _
      handles := by
        intro index handle present
        cases present
      scheduling := by
        intro index priority inside
        exact absurd inside (Nat.not_lt_zero index)
      runnable := rfl
      current := .inl rfl
      finished := by
        intro index before
        exact absurd before (Nat.not_lt_zero index)
      waiting := by
        intro index _ inside
        exact absurd inside (Nat.not_lt_zero index)
      absent := fun _ _ => rfl
      turn := fun inside => absurd inside (Nat.not_lt_zero 0)
      idle := fun _ => rfl
      joined := Nat.le_refl 0
      fresh := fun _ => rfl
      value := fun started => absurd rfl started
      final := by
        intro finished
        cases finished }

theorem valid_next (sorted : priorityTable.Pairwise (· ≥ ·))
    (positive : ∀ priority ∈ priorityTable, 0 < priority) {state next : State} {action : Action}
    (valid : Valid priorityTable state)
    (stepped : state.step strerror schedFifo priorityTable action = some next) :
    Valid priorityTable next := by
  obtain ⟨correct, exited | ⟨ended, ordered⟩⟩ := valid
  · cases action with
    | set | create | join | finish | thread => simp [State.step, exited] at stepped
  · cases action with
    | set =>
        simp only [State.step] at stepped
        split at stepped
        · rename_i start
          cases stepped
          have bare := ordered.fresh start
          have none : ended = 0 := by
            have bound := ordered.bound
            rw [bare] at bound
            exact Nat.le_zero.mp bound
          have silent : state.writes = 0 := by
            rw [ordered.idle (by rw [bare, none]; rfl), none]
          refine ⟨⟨correct.comparisons, ?_, ?_, ?_⟩, .inr ⟨ended, ?_⟩⟩
          · intro _
            simp [silent]
          · intro finished
            cases finished
          · simp [correct.verified, descending_of_pairwise sorted]
          · exact { ordered with
              turn := by
                intro active
                rw [bare, none] at active
                exact absurd active (Nat.not_lt_zero 0)
              fresh := by
                intro creator
                cases creator
              value := by
                intro _
                simp [silent]
              final := by
                intro creator
                cases creator }
        · cases stepped
    | create results =>
        simp only [State.step] at stepped
        split at stepped
        · rename_i running
          obtain ⟨priority, entry, rfl⟩ := Option.map_eq_some_iff.mp stepped
          obtain ⟨after, exited | later⟩ := ordered.create correct running entry
            (positive priority (List.mem_of_getElem? entry)) results
          · exact ⟨after, .inl exited⟩
          · exact ⟨after, .inr ⟨ended, later⟩⟩
        · cases stepped
    | join =>
        simp only [State.step] at stepped
        split at stepped
        · rename_i allowed
          cases present : state.context[state.joined]? with
          | none => simp [present] at stepped
          | some handle =>
              simp only [present] at stepped
              split at stepped
              · rename_i gone
                cases stepped
                have active := (ordered.handles state.joined handle present).2
                refine ⟨⟨correct.comparisons, correct.writes, correct.final, ?_⟩, .inr ⟨ended, ?_⟩⟩
                · simp [correct.verified, active]
                · exact ordered.join allowed.1 present gone
              · cases stepped
        · cases stepped
    | finish =>
        simp only [State.step] at stepped
        split at stepped
        · rename_i allowed
          obtain ⟨running, full, all⟩ := allowed
          cases stepped
          have complete : ended = state.context.length := by
            have bound := ordered.bound
            have joined := ordered.joined
            omega
          have writes : state.writes = priorityTable.length := by
            rw [ordered.idle complete, complete, full]
          have zero : state.globalValue = 0 := by
            rw [ordered.value (by simp [running]), writes, Int.sub_self]
          refine ⟨⟨correct.comparisons, ?_, fun _ => ⟨zero, writes⟩, ?_⟩, .inr ⟨ended, ?_⟩⟩
          · intro _
            exact ordered.value (by simp [running])
          · simp [correct.verified, zero]
          · exact { ordered with
              fresh := by
                intro creator
                cases creator
              value := fun _ => ordered.value (by simp [running])
              final := fun _ => complete }
        · cases stepped
    | thread index =>
        simp only [State.step] at stepped
        split at stepped
        · rename_i allowed
          have present : state.point index ≠ .absent := by
            intro absent
            simp [State.decrement, absent] at stepped
          obtain ⟨rfl, active⟩ := ordered.turn_of_scheduled sorted allowed.2 present
          obtain ⟨after, later⟩ := ordered.decrement active correct stepped
          exact ⟨after, .inr later⟩
        · cases stepped

/-- Whatever the order in which the creator and the realtime threads advance,
every comparison finds the expected value, no decrement is lost, and the counter
is 0 after the last join. -/
theorem decrement_in_order (strerror : Int → StdString) (priorityTable : List Int)
    (sorted : priorityTable.Pairwise (· ≥ ·)) (positive : ∀ priority ∈ priorityTable, 0 < priority)
    (globalValue : Int) (state : State)
    (reached : (run strerror schedFifo priorityTable globalValue).Reachable state) :
    (∀ comparison ∈ state.comparisons, comparison.found = comparison.expected) ∧
      (state.creator ≠ .start → state.globalValue = priorityTable.length - state.writes) ∧
      (state.creator = .finished →
        state.globalValue = 0 ∧ state.writes = priorityTable.length) ∧
      state.verified = true := by
  have valid := reached.invariant (Valid priorityTable) (valid_initial globalValue)
    fun _ _ _ _ valid stepped => valid_next sorted positive valid stepped
  exact ⟨valid.1.comparisons, valid.1.writes, valid.1.final, valid.1.verified⟩

theorem decrement_in_order_pair :
    ∃ state, (run (fun _ => []) schedFifo [30, 20] 7).run
        (run (fun _ => []) schedFifo [30, 20] 7).initial
        [.set, .create {}, .thread 0, .thread 0, .create {}, .thread 0, .thread 0, .thread 1,
          .thread 1, .thread 1, .thread 1, .join, .join, .finish] = some state ∧
      state.globalValue = 0 ∧ state.writes = 2 := by
  have ends : ((run (fun _ => []) schedFifo [30, 20] 7).run
      (run (fun _ => []) schedFifo [30, 20] 7).initial
      [.set, .create {}, .thread 0, .thread 0, .create {}, .thread 0, .thread 0, .thread 1,
        .thread 1, .thread 1, .thread 1, .join, .join, .finish]).map State.creator =
      some .finished := by decide
  obtain ⟨state, ran, finished⟩ := Option.map_eq_some_iff.mp ends
  exact ⟨state, ran, (decrement_in_order (fun _ => []) [30, 20] (by decide) (by decide) 7 state
    ⟨_, ran⟩).2.2.1 finished⟩

end Libpreempt.Tests.Decrement
