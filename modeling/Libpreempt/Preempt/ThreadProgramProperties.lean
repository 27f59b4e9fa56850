import Libpreempt.Preempt.ThreadProgram

/-! Ownership of the threads in a program, when it is terminated, and the
programs of `preempt::thread` beside those of `std::thread`. -/

set_option autoImplicit false

namespace Libpreempt.Preempt

open Libpreempt.Base Libpreempt.Ownership Libpreempt.Stdlib Libpreempt.Transition

namespace ThreadProgram

variable {Var Object : Type}

theorem exitCode_of_running {program : ThreadProgram Var Object} (running : program.ended = none)
    (caught : Bool) : program.exitCode caught = 0 ↔
      program.verified = true ∧ (caught = true ∨ program.thrown = []) := by
  unfold exitCode
  split
  · next aborted => simp [aborted.1, aborted.2]
  · next returned =>
      rw [not_and, not_not, ← Bool.not_eq_true, ← or_iff_not_imp_left] at returned
      simp [running, returned]

theorem exitCode_of_ended {program : ThreadProgram Var Object} (ended : program.ended ≠ none)
    (caught : Bool) : program.exitCode caught ≠ 0 := by
  unfold exitCode
  split
  · decide
  · split
    · decide
    · decide
    · next running => exact absurd running ended

variable [ThreadObject Object]

theorem exitCode_shown (caught : Bool) (program : ThreadProgram Var Object) :
    program.shown.exitCode caught = program.exitCode caught := by
  cases running : program.ended with
  | some reason => cases reason <;> simp [Shown.exitCode, exitCode, shown, running]
  | none => simp [Shown.exitCode, exitCode, shown, running]

/-!
## Which thread a variable represents
-/

theorem handle_of_object {program : ThreadProgram Var Object} {var : Var} {object : Object}
    (alive : program.object var = some object) : program.handle var = ThreadType.getId object := by
  rw [handle, alive, Option.bind_some]

theorem handle_of_none {program : ThreadProgram Var Object} {var : Var}
    (dead : program.object var = none) : program.handle var = none := by
  rw [handle, dead, Option.bind_none]

/-- What a program shows has its custody in it. -/
theorem custody_shown (program : ThreadProgram Var Object) :
    program.shown.custody = program.custody := by
  have same : (fun var => (program.shown.object var).join) = program.handle := by
    funext var
    cases alive : program.object var with
    | none => simp [shown, handle, alive]
    | some object => simp [shown, handle, alive]
  exact congrArg (Custody.mk · program.created program.released) same

variable [DecidableEq Var]

theorem run_of_ended {ndebug : Bool} {strerror : Int → StdString}
    {program final : ThreadProgram Var Object} {calls : List (ObjectCall Var)}
    (ended : program.ended ≠ none)
    (ran : (machine Var Object ndebug strerror).run program calls = some final) :
    calls = [] ∧ final = program := by
  cases calls with
  | nil =>
      cases ran
      exact ⟨rfl, rfl⟩
  | cons call calls =>
      have refused : (machine Var Object ndebug strerror).step program call = none :=
        if_neg ended
      rw [Machine.run_cons, refused] at ran
      cases ran

/-!
## What a program shows is documented
-/

variable [LawfulThreadObject Object]

theorem shown_change (strerror : Int → StdString) {program : ThreadProgram Var Object}
    {target : Var} {object : Object} (running : program.ended = none)
    (alive : program.object target = some object) (policy priority errnum : Int) :
    (program.change strerror target object policy priority errnum).shown =
      program.shown.change (ThreadType.getId object).isSome policy priority errnum := by
  have changed := LawfulThreadObject.changeScheduling_eq strerror object policy priority errnum
  rw [LawfulThreadType.joinable_eq] at changed
  unfold change Shown.change
  split at changed
  · next allowed =>
      obtain ⟨after, returned, same⟩ := changed
      have kept : program.shown.assign target (ThreadType.getId object) = program.shown := by
        rw [Shown.assign, ← shown_object alive, Function.update_eq_self]
      rw [returned, if_pos allowed, shown_assign, shown_verify running, same, ← kept]
      simp [Shown.assign, Shown.verify]
  · next refused =>
      rw [changed, if_neg refused, shown_finish, shown_verify running]
      rfl

omit [LawfulThreadObject Object] in
theorem shown_place (program : ThreadProgram Var Object) (target : Var) {constructed : Object}
    (known : ThreadType.getId constructed = some program.created) :
    ∃ placed object, program.place target (.ok constructed) = .ok (placed, object) ∧
      placed.object target = some object ∧ placed.ended = program.ended ∧
      (ThreadType.getId object).isSome = true ∧
      placed.shown = program.shown.launch target true := by
  refine ⟨_, _, rfl, Function.update_self .., rfl, ?_, ?_⟩
  · rw [known]
    rfl
  · have assigned := program.shown_assign target constructed
    rw [known] at assigned
    exact congrArg (fun shown => { shown with created := program.created + 1 }) assigned

theorem shown_launch (program : ThreadProgram Var Object) (target : Var) :
    ∃ launched object, program.launch target true = .ok (launched, object) ∧
      launched.object target = some object ∧ launched.ended = program.ended ∧
      (ThreadType.getId object).isSome = true ∧
      launched.shown = program.shown.launch target true :=
  shown_place program target (LawfulThreadType.getId_launched _)

theorem shown_adopt (program : ThreadProgram Var Object) (target : Var) :
    ∃ adopted object, program.adopt target true = .ok (adopted, object) ∧
      adopted.shown = program.shown.launch target true := by
  have known : ThreadType.getId (ThreadObject.adopt (ThreadType.launched program.created) : Object) =
      some program.created := by
    rw [LawfulThreadObject.getId_adopt, LawfulThreadType.getId_launched]
  obtain ⟨adopted, object, returned, _, _, _, same⟩ := shown_place program target known
  exact ⟨adopted, object, returned, same⟩

theorem shown_move {program : ThreadProgram Var Object} (target source : Var)
    {other assigned : Object} (same : ThreadType.getId assigned = ThreadType.getId other) :
    ((program.assign source (ThreadObject.movedFrom other)).assign target assigned).shown =
      (program.shown.assign source none).assign target (ThreadType.getId other) := by
  rw [shown_assign, shown_assign, same, LawfulThreadObject.getId_movedFrom]

/-- A call does what is documented, whatever the objects hold besides their threads. -/
theorem perform_shown (ndebug : Bool) (strerror : Int → StdString)
    {program : ThreadProgram Var Object} (running : program.ended = none) (call : ObjectCall Var) :
    (program.perform ndebug strerror call).map shown = program.shown.perform call := by
  cases call with
  | default var =>
      cases alive : program.object var with
      | some object => simp [perform, Shown.perform, alive, shown_object alive]
      | none =>
          simp [perform, Shown.perform, alive, shown_object_none alive, shown_assign]
  | launch var constructed =>
      cases alive : program.object var with
      | some object => simp [perform, Shown.perform, alive, shown_object alive]
      | none =>
          cases constructed with
          | false =>
              simp only [perform, Shown.perform, alive, shown_object_none alive]
              rfl
          | true =>
              obtain ⟨launched, object, returned, _, _, _, same⟩ := shown_launch program var
              simp only [perform, Shown.perform, alive, shown_object_none alive, returned,
                Option.map_some, same, if_true]
  | adopt var constructed =>
      cases alive : program.object var with
      | some object => simp [perform, Shown.perform, alive, shown_object alive]
      | none =>
          cases constructed with
          | false =>
              simp only [perform, Shown.perform, alive, shown_object_none alive]
              rfl
          | true =>
              obtain ⟨adopted, object, returned, same⟩ := shown_adopt program var
              simp only [perform, Shown.perform, alive, shown_object_none alive, returned,
                Option.map_some, same, if_true]
  | launchRealtime var constructed policy priority errnum =>
      cases alive : program.object var with
      | some object => simp [perform, Shown.perform, alive, shown_object alive]
      | none =>
          cases constructed with
          | false =>
              simp only [perform, Shown.perform, alive, shown_object_none alive]
              rfl
          | true =>
              obtain ⟨launched, object, returned, placed, ended, known, same⟩ := shown_launch program var
              simp only [perform, Shown.perform, alive, shown_object_none alive, returned,
                Option.map_some, if_true,
                shown_change strerror (ended.trans running) placed policy priority errnum, known,
                same]
  | moveConstruct var other =>
      cases alive : program.object var with
      | some object => simp [perform, Shown.perform, alive, shown_object alive]
      | none =>
          cases moved : program.object other with
          | none =>
              simp [perform, Shown.perform, alive, shown_object_none alive, moved,
                shown_object_none moved]
          | some object =>
              simp only [perform, Shown.perform, alive, shown_object_none alive, moved,
                shown_object moved, Option.map_some,
                shown_move var other (LawfulThreadType.getId_moveConstruct object)]
  | moveAssign var other =>
      cases alive : program.object var with
      | none => simp [perform, Shown.perform, alive, shown_object_none alive]
      | some object =>
          cases moved : program.object other with
          | none =>
              simp only [perform, Shown.perform, alive, shown_object alive, moved,
                shown_object_none moved, Option.map_none]
              cases ThreadType.getId object <;> rfl
          | some source =>
              cases known : ThreadType.getId object with
              | some id =>
                  have active := joinable_eq_true_iff.mpr ⟨id, known⟩
                  simp only [perform, Shown.perform, alive, shown_object alive, moved,
                    shown_object moved, known, Option.map_some, shown_finish,
                    LawfulThreadType.moveAssign_joinable object source active]
              | none =>
                  obtain ⟨assigned, returned, same⟩ := LawfulThreadType.moveAssign_notJoinable object
                    source (joinable_eq_false_iff.mpr known)
                  simp only [perform, Shown.perform, alive, shown_object alive, moved,
                    shown_object moved, known, returned, Option.map_some, shown_move var other same]
  | swap left right =>
      cases alive : program.object left with
      | none => simp [perform, Shown.perform, alive, shown_object_none alive]
      | some object =>
          cases otherAlive : program.object right with
          | none =>
              simp [perform, Shown.perform, alive, shown_object alive, otherAlive,
                shown_object_none otherAlive]
          | some other =>
              obtain ⟨first, second⟩ := LawfulThreadObject.getId_swap object other
              simp only [perform, Shown.perform, alive, shown_object alive, otherAlive,
                shown_object otherAlive, Option.map_some, shown_assign, first, second]
  | join var =>
      cases alive : program.object var with
      | none => simp [perform, Shown.perform, alive, shown_object_none alive]
      | some object =>
          cases known : ThreadType.getId object with
          | none =>
              simp only [perform, Shown.perform, alive, shown_object alive, known, Option.map_some,
                LawfulThreadType.join_notJoinable object (joinable_eq_false_iff.mpr known)]
              rfl
          | some id =>
              obtain ⟨joined, returned, gone⟩ :=
                LawfulThreadType.join_joinable object (joinable_eq_true_iff.mpr ⟨id, known⟩)
              simp only [perform, Shown.perform, alive, shown_object alive, known, Option.map_some,
                returned, shown_release var known gone]
  | detach var =>
      cases alive : program.object var with
      | none => simp [perform, Shown.perform, alive, shown_object_none alive]
      | some object =>
          cases known : ThreadType.getId object with
          | none =>
              simp only [perform, Shown.perform, alive, shown_object alive, known, Option.map_some,
                LawfulThreadObject.detach_notJoinable object (joinable_eq_false_iff.mpr known)]
              rfl
          | some id =>
              obtain ⟨detached, returned, gone⟩ :=
                LawfulThreadObject.detach_joinable object (joinable_eq_true_iff.mpr ⟨id, known⟩)
              simp only [perform, Shown.perform, alive, shown_object alive, known, Option.map_some,
                returned, shown_release var known gone]
  | tryScheduling var policy priority errnum =>
      cases alive : program.object var with
      | none => simp [perform, Shown.perform, alive, shown_object_none alive]
      | some object =>
          obtain ⟨tried, returned, same⟩ :=
            LawfulThreadObject.tryScheduling_eq strerror object policy priority errnum
          have kept : program.shown.assign var (ThreadType.getId object) = program.shown := by
            rw [Shown.assign, ← shown_object alive, Function.update_eq_self]
          rw [LawfulThreadType.joinable_eq] at returned
          simp only [perform, Shown.perform, alive, shown_object alive, Option.map_some, returned,
            shown_assign, same]
          rw [← kept]
          simp [shown, answer, verify, Shown.assign, Shown.verify, running]
  | changeScheduling var policy priority errnum =>
      cases alive : program.object var with
      | none => simp [perform, Shown.perform, alive, shown_object_none alive]
      | some object =>
          simp only [perform, Shown.perform, alive, shown_object alive, Option.map_some,
            shown_change strerror running alive policy priority errnum]
  | destroy var =>
      cases alive : program.object var with
      | none => simp [perform, Shown.perform, alive, shown_object_none alive]
      | some object =>
          simp only [perform, Shown.perform, alive, shown_object alive, Option.map_some,
            LawfulThreadType.joinable_eq]
          cases known : ThreadType.getId object with
          | some id =>
              simp [shown_finish, shown_verify running, Shown.finish, Shown.verify]
          | none =>
              have passed := LawfulThreadObject.verifyDestructor_vacant ndebug object
                (joinable_eq_false_iff.mpr known)
              simp [passed, shown_remove, shown_verify running, Shown.verify]

theorem shown_of_perform {ndebug : Bool} {strerror : Int → StdString}
    {source target : ThreadProgram Var Object} {call : ObjectCall Var}
    (running : source.ended = none)
    (performed : source.perform ndebug strerror call = some target) :
    source.shown.perform call = some target.shown := by
  rw [← perform_shown ndebug strerror running call, performed, Option.map_some]

theorem run_shown (ndebug : Bool) (strerror : Int → StdString)
    (program : ThreadProgram Var Object) (calls : List (ObjectCall Var)) :
    ((machine Var Object ndebug strerror).run program calls).map shown =
      (Shown.documented Var).run program.shown calls := by
  induction calls generalizing program with
  | nil => rfl
  | cons call calls ih =>
      have same : ((machine Var Object ndebug strerror).step program call).map shown =
          (Shown.documented Var).step program.shown call := by
        cases running : program.ended with
        | some reason => simp [machine, Shown.documented, shown, running]
        | none =>
            have step : (machine Var Object ndebug strerror).step program call =
                program.perform ndebug strerror call := if_pos running
            have shownStep : (Shown.documented Var).step program.shown call =
                program.shown.perform call := if_pos running
            rw [step, shownStep, perform_shown ndebug strerror running call]
      rw [Machine.run_cons, Machine.run_cons, ← same]
      cases stepped : (machine Var Object ndebug strerror).step program call with
      | none => rfl
      | some next => exact ih next

/-!
## Each call moves custody
-/

omit [DecidableEq Var] in
theorem custody_change (shown : Shown Var) (joinable : Bool) (policy priority errnum : Int) :
    (shown.change joinable policy priority errnum).custody = shown.custody := by
  unfold Shown.change
  split <;> rfl

theorem custody_assign (shown : Shown Var) (target : Var) (handle : Option ThreadId) :
    (shown.assign target handle).custody =
      { shown.custody with holder := Function.update shown.custody.holder target handle } := by
  have same : (shown.assign target handle).custody.holder =
      Function.update shown.custody.holder target handle := by
    funext var
    by_cases same : var = target
    · subst same
      simp [Shown.custody, Shown.assign]
    · simp [Shown.custody, Shown.assign, same]
  exact congrArg (fun holder => { shown.custody with holder }) same

/-- A variable that represents the same thread as before, or no thread and none before. -/
theorem custody_assign_same {shown : Shown Var} {target : Var} {handle : Option ThreadId}
    (same : shown.custody.holder target = handle) :
    (shown.assign target handle).custody = shown.custody := by
  rw [custody_assign, ← same, Function.update_eq_self]

theorem custody_remove {shown : Shown Var} {target : Var}
    (vacant : shown.custody.holder target = none) :
    Shown.custody { shown with object := Function.update shown.object target none } =
      shown.custody := by
  have same : (fun var => (Function.update shown.object target none var).join) =
      shown.custody.holder := by
    funext var
    by_cases same : var = target
    · subst same
      rw [Function.update_self]
      exact vacant.symm
    · rw [Function.update_of_ne same]
      rfl
  exact congrArg (fun holder => { shown.custody with holder }) same

theorem custody_exchange {shown : Shown Var} {left right : Var} {first second : Option ThreadId}
    (atRight : shown.custody.holder right = first) (atLeft : shown.custody.holder left = second) :
    ((shown.assign right second).assign left first).custody = shown.custody.exchange left right := by
  rw [custody_assign, custody_assign, ← atLeft, ← atRight, ← Equiv.comp_swap_eq_update]
  rfl

theorem custody_launch {shown : Shown Var} {target : Var} (dead : shown.object target = none) :
    shown.custody.perform (.acquire target) = some (shown.launch target true).custody := by
  have free : shown.custody.holder target = none := congrArg Option.join dead
  have assigned := custody_assign shown target (some shown.created)
  rw [Custody.perform, if_pos free]
  exact congrArg (fun custody => some { custody with acquired := shown.created + 1 }) assigned.symm

theorem custody_release {shown : Shown Var} {target : Var} {id : ThreadId}
    (held : shown.custody.holder target = some id) (way : Release) :
    shown.custody.perform (.release target way) =
      some (shown.release target (some id) way).custody := by
  have assigned := custody_assign shown target none
  rw [Custody.perform, held, Option.map_some]
  exact congrArg (fun custody => some { custody with released := (id, way) :: shown.released })
    assigned.symm

/-- A call leaves the custody of the threads as it is, or it is one action of it. -/
theorem perform_custody {shown next : Shown Var} {call : ObjectCall Var}
    (performed : shown.perform call = some next) :
    next.custody = shown.custody ∨
      ∃ action, shown.custody.perform action = some next.custody := by
  cases call with
  | default var =>
      obtain ⟨dead, performed⟩ := Option.ite_none_right_eq_some.mp performed
      cases performed
      exact .inl (custody_assign_same (congrArg Option.join dead))
  | launch var constructed | adopt var constructed =>
      obtain ⟨dead, performed⟩ := Option.ite_none_right_eq_some.mp performed
      cases performed
      cases constructed with
      | false => exact .inl rfl
      | true => exact .inr ⟨.acquire var, custody_launch dead⟩
  | launchRealtime var constructed policy priority errnum =>
      obtain ⟨dead, performed⟩ := Option.ite_none_right_eq_some.mp performed
      cases constructed with
      | false =>
          cases performed
          exact .inl rfl
      | true =>
          cases performed
          rw [custody_change]
          exact .inr ⟨.acquire var, custody_launch dead⟩
  | moveConstruct var other =>
      simp only [Shown.perform] at performed
      split at performed
      · next handle dead alive =>
          cases performed
          refine .inr ⟨.exchange var other, congrArg some (Eq.symm ?_)⟩
          exact custody_exchange (congrArg Option.join alive) (congrArg Option.join dead)
      · cases performed
  | moveAssign var other =>
      simp only [Shown.perform] at performed
      split at performed
      · cases performed
        exact .inl rfl
      · next handle vacant alive =>
          cases performed
          refine .inr ⟨.exchange var other, congrArg some (Eq.symm ?_)⟩
          exact custody_exchange (congrArg Option.join alive) (congrArg Option.join vacant)
      · cases performed
  | swap left right =>
      simp only [Shown.perform] at performed
      split at performed
      · next first second atLeft atRight =>
          cases performed
          refine .inr ⟨.exchange right left, congrArg some (Eq.symm ?_)⟩
          exact custody_exchange (congrArg Option.join atLeft) (congrArg Option.join atRight)
      · cases performed
  | join var | detach var =>
      obtain ⟨handle, alive, rfl⟩ := Option.map_eq_some_iff.mp performed
      cases handle with
      | none => exact .inl rfl
      | some id => exact .inr ⟨.release var _, custody_release (congrArg Option.join alive) _⟩
  | tryScheduling var policy priority errnum =>
      obtain ⟨handle, _, rfl⟩ := Option.map_eq_some_iff.mp performed
      exact .inl rfl
  | changeScheduling var policy priority errnum =>
      obtain ⟨handle, _, rfl⟩ := Option.map_eq_some_iff.mp performed
      exact .inl (custody_change ..)
  | destroy var =>
      obtain ⟨handle, alive, rfl⟩ := Option.map_eq_some_iff.mp performed
      cases handle with
      | some id => exact .inl rfl
      | none => exact .inl (custody_remove (congrArg Option.join alive))

/-- The custody behind a call comes from the one before it by actions. -/
theorem perform_follows {ndebug : Bool} {strerror : Int → StdString}
    {source target : ThreadProgram Var Object} {call : ObjectCall Var}
    (running : source.ended = none)
    (performed : source.perform ndebug strerror call = some target) :
    ∃ actions, Custody.machine.run source.custody actions = some target.custody := by
  have moved := perform_custody (shown_of_perform running performed)
  rw [custody_shown, custody_shown] at moved
  rcases moved with same | ⟨action, moved⟩
  · exact ⟨[], by rw [same]; rfl⟩
  · exact ⟨[action], by rw [Machine.run_cons]; exact congrArg (Option.bind · _) moved⟩

/-!
## Every thread is accounted for
-/

theorem accounted_of_reachable {ndebug : Bool} {strerror : Int → StdString}
    {program : ThreadProgram Var Object}
    (reached : (machine Var Object ndebug strerror).Reachable program) :
    program.custody.Accounted := by
  refine reached.invariant (fun program => program.custody.Accounted) ?_ ?_
  · exact Custody.accounted_empty
  · intro source call target _ accounted performed
    obtain ⟨running, performed⟩ := Option.ite_none_right_eq_some.mp performed
    obtain ⟨actions, ran⟩ := perform_follows running performed
    exact accounted.run ran

theorem released_of_destroyed {ndebug : Bool} {strerror : Int → StdString}
    {program : ThreadProgram Var Object}
    (reached : (machine Var Object ndebug strerror).Reachable program)
    (destroyed : ∀ var, program.object var = none) :
    (program.released.map Prod.fst).Perm (List.range program.created) :=
  (accounted_of_reachable reached).released_perm fun var => handle_of_none (destroyed var)

/-- In every state that a program reaches no two variables represent one thread, and each thread
that was created is represented by a variable or was joined or detached once. When the variables
are all destroyed, every thread was. -/
theorem threads_accounted (ndebug : Bool) (strerror : Int → StdString)
    {program : ThreadProgram Var Object}
    (reached : (machine Var Object ndebug strerror).Reachable program) :
    program.custody.Accounted ∧
      ((∀ var, program.object var = none) →
        (program.released.map Prod.fst).Perm (List.range program.created)) :=
  ⟨accounted_of_reachable reached, released_of_destroyed reached⟩

theorem threads_accounted_moved :
    ∃ program, (machine Bool Thread false fun _ => []).run
        (machine Bool Thread false fun _ => []).initial
        [.launch false true, .moveConstruct true false, .join true, .destroy true,
          .destroy false] = some program ∧
      program.custody.Accounted ∧
      (program.released.map Prod.fst).Perm (List.range program.created) := by
  refine ⟨_, rfl, ?_⟩
  obtain ⟨accounted, complete⟩ := threads_accounted false (fun _ => [])
    (show (machine Bool Thread false fun _ => []).Reachable _ from
      ⟨[.launch false true, .moveConstruct true false, .join true, .destroy true,
        .destroy false], rfl⟩)
  refine ⟨accounted, complete ?_⟩
  intro var
  cases var <;> rfl

/-!
## The exit code
-/

theorem thrown_launch (shown : Shown Var) (var : Var) (constructed : Bool) :
    (shown.launch var constructed).thrown = [] ↔ shown.thrown = [] ∧ (!constructed) = false := by
  cases constructed with
  | false => simp [Shown.launch]
  | true => simp [Shown.launch, Shown.assign]

theorem thrown_release (shown : Shown Var) (var : Var) (handle : Option ThreadId) (way : Release) :
    (shown.release var handle way).thrown = [] ↔ shown.thrown = [] ∧ handle.isNone = false := by
  cases handle with
  | none => simp [Shown.release]
  | some id => simp [Shown.release, Shown.assign]

theorem running_launch {shown : Shown Var} (running : shown.ended = none) (var : Var)
    (constructed : Bool) :
    (shown.launch var constructed).ended = none ∧
      (shown.launch var constructed).verified = shown.verified.map (· && true) := by
  cases constructed with
  | false => simp [Shown.launch, running]
  | true => simp [Shown.launch, Shown.assign, running]

theorem running_release {shown : Shown Var} (running : shown.ended = none) (var : Var)
    (handle : Option ThreadId) (way : Release) :
    (shown.release var handle way).ended = none ∧
      (shown.release var handle way).verified = shown.verified.map (· && true) := by
  cases handle with
  | none => simp [Shown.release, running]
  | some id => simp [Shown.release, Shown.assign, running]

/-- A careful call leaves the process running and keeps the flag if its `VERIFY` passes; any other
ends the process. -/
theorem perform_outcome {shown next : Shown Var} {call : ObjectCall Var}
    (running : shown.ended = none) (performed : shown.perform call = some next) :
    (if shown.careful call then
      next.ended = none ∧ next.verified = shown.verified.map (· && call.verifies)
    else next.ended ≠ none) ∧
      (next.thrown = [] ↔ shown.thrown = [] ∧ shown.throws call = false) := by
  cases call with
  | default var =>
      obtain ⟨_, performed⟩ := Option.ite_none_right_eq_some.mp performed
      cases performed
      simp [Shown.careful, Shown.throws, ObjectCall.verifies, Shown.assign, running]
  | launch var constructed | adopt var constructed =>
      obtain ⟨_, performed⟩ := Option.ite_none_right_eq_some.mp performed
      cases performed
      exact ⟨running_launch running var constructed, thrown_launch shown var constructed⟩
  | launchRealtime var constructed policy priority errnum =>
      obtain ⟨_, performed⟩ := Option.ite_none_right_eq_some.mp performed
      cases constructed with
      | false =>
          cases performed
          exact ⟨running_launch running var false, thrown_launch shown var false⟩
      | true =>
          cases performed
          rw [Shown.thrown_change]
          exact ⟨Shown.change_careful (by simp [Shown.launch, Shown.assign, running]) true policy
            priority errnum, thrown_launch shown var true⟩
  | moveConstruct var other =>
      simp only [Shown.perform] at performed
      split at performed
      · cases performed
        simp [Shown.careful, Shown.throws, ObjectCall.verifies, Shown.assign, running]
      · cases performed
  | moveAssign var other =>
      simp only [Shown.perform] at performed
      split at performed
      · next known _ =>
          cases performed
          simp [Shown.careful, Shown.throws, Shown.finish, known]
      · next known _ =>
          cases performed
          simp [Shown.careful, Shown.throws, ObjectCall.verifies, Shown.assign, running, known]
      · cases performed
  | swap left right =>
      simp only [Shown.perform] at performed
      split at performed
      · cases performed
        simp [Shown.careful, Shown.throws, ObjectCall.verifies, Shown.assign, running]
      · cases performed
  | join var =>
      obtain ⟨handle, known, rfl⟩ := Option.map_eq_some_iff.mp performed
      refine ⟨running_release running var handle .joined, ?_⟩
      simpa [Shown.throws, known] using thrown_release shown var handle .joined
  | detach var =>
      obtain ⟨handle, known, rfl⟩ := Option.map_eq_some_iff.mp performed
      refine ⟨running_release running var handle .detached, ?_⟩
      simpa [Shown.throws, known] using thrown_release shown var handle .detached
  | tryScheduling var policy priority errnum =>
      obtain ⟨handle, _, rfl⟩ := Option.map_eq_some_iff.mp performed
      simp [Shown.careful, Shown.throws, ObjectCall.verifies, Shown.verify, running]
  | changeScheduling var policy priority errnum =>
      obtain ⟨handle, known, rfl⟩ := Option.map_eq_some_iff.mp performed
      simp only [Shown.careful, known, Option.join_some]
      refine ⟨Shown.change_careful running handle.isSome policy priority errnum, ?_⟩
      simp [Shown.throws, Shown.thrown_change]
  | destroy var =>
      obtain ⟨handle, known, rfl⟩ := Option.map_eq_some_iff.mp performed
      cases handle with
      | none => simp [Shown.careful, Shown.throws, ObjectCall.verifies, running, known]
      | some id => simp [Shown.careful, Shown.throws, Shown.finish, known]

/-- The calls of a run that are careful, pass their `VERIFY`, and throw only where exceptions are
caught. -/
abbrev Fine (caught : Bool) (source : ThreadProgram Var Object) (call : ObjectCall Var)
    (_ : ThreadProgram Var Object) : Prop :=
  source.shown.careful call = true ∧ call.verifies = true ∧
    (caught = true ∨ source.shown.throws call = false)

theorem exitCode_run {ndebug : Bool} {strerror : Int → StdString}
    {program final : ThreadProgram Var Object} {calls : List (ObjectCall Var)} (caught : Bool)
    (running : program.ended = none)
    (ran : (machine Var Object ndebug strerror).run program calls = some final) :
    final.exitCode caught = 0 ↔
      (program.verified = true ∧ (caught = true ∨ program.thrown = [])) ∧
      (machine Var Object ndebug strerror).EachStep (Fine caught) program calls := by
  induction calls generalizing program with
  | nil =>
      cases ran
      rw [exitCode_of_running running, and_iff_left (Machine.eachStep_nil _ _)]
  | cons call calls ih =>
      obtain ⟨next, stepped, rest⟩ := Option.bind_eq_some_iff.mp ran
      have step : (machine Var Object ndebug strerror).step program call =
          program.perform ndebug strerror call := if_pos running
      have performed := shown_of_perform running (step.symm.trans stepped)
      obtain ⟨law, thrown⟩ := perform_outcome running performed
      have thrown : next.thrown = [] ↔ program.thrown = [] ∧ program.shown.throws call = false :=
        thrown
      rw [Machine.eachStep_cons_of_step stepped]
      by_cases careful : program.shown.careful call = true
      · rw [if_pos careful] at law
        obtain ⟨nextRunning, verified⟩ := law
        have nextRunning : next.ended = none := nextRunning
        have same : next.verified = (program.verified && call.verifies) := by
          simpa [shown, running, nextRunning] using verified
        rw [ih nextRunning rest, same, Bool.and_eq_true, thrown, Fine, or_and_left]
        tauto
      · rw [if_neg careful] at law
        obtain ⟨_, rfl⟩ := run_of_ended law rest
        refine iff_of_false (exitCode_of_ended law caught) ?_
        rintro ⟨_, ⟨allowed, _⟩, _⟩
        exact careful allowed

/-- A process exits with 0 exactly when all its calls are careful, pass their `VERIFY` and throw
nothing that is not caught. -/
theorem exit_success_iff_fine (caught ndebug : Bool) (strerror : Int → StdString)
    (calls : List (ObjectCall Var)) (final : ThreadProgram Var Thread)
    (ran : (machine Var Thread ndebug strerror).run (machine Var Thread ndebug strerror).initial
      calls = some final) :
    final.exitCode caught = 0 ↔ (machine Var Thread ndebug strerror).EachStep (Fine caught)
      (machine Var Thread ndebug strerror).initial calls := by
  rw [exitCode_run caught rfl ran]
  exact and_iff_right ⟨rfl, .inr rfl⟩

theorem exit_success_iff_fine_joined :
    (machine Bool Thread false fun _ => []).EachStep (Fine false)
      (machine Bool Thread false fun _ => []).initial
      [.launchRealtime true true 1 10 0, .default false, .moveAssign false true, .join false,
        .destroy true, .destroy false] :=
  (exit_success_iff_fine false false (fun _ => [])
    [.launchRealtime true true 1 10 0, .default false, .moveAssign false true, .join false,
      .destroy true, .destroy false] _ rfl).mp rfl

/-- A thread that is neither joined nor detached takes the process with it. -/
example : ((machine Bool Thread false fun _ => []).run
    (machine Bool Thread false fun _ => []).initial
    [.launch true true, .destroy true]).map (exitCode true) = some 134 := rfl

/-- Programs of `preempt::thread` show what those of `std::thread` show, with `NDEBUG` or without,
and exit alike. -/
theorem same_as_std_thread (ndebug other : Bool) (strerror otherStrerror : Int → StdString)
    (calls : List (ObjectCall Var)) :
    ((machine Var Thread ndebug strerror).run (machine Var Thread ndebug strerror).initial
        calls).map shown =
      ((machine Var StdThread other otherStrerror).run
        (machine Var StdThread other otherStrerror).initial calls).map shown ∧
    ∀ caught, ((machine Var Thread ndebug strerror).run
        (machine Var Thread ndebug strerror).initial calls).map (exitCode caught) =
      ((machine Var StdThread other otherStrerror).run
        (machine Var StdThread other otherStrerror).initial calls).map (exitCode caught) := by
  have same : ((machine Var Thread ndebug strerror).run
        (machine Var Thread ndebug strerror).initial calls).map shown =
      ((machine Var StdThread other otherStrerror).run
        (machine Var StdThread other otherStrerror).initial calls).map shown := by
    rw [run_shown, run_shown]
    rfl
  refine ⟨same, fun caught => ?_⟩
  have codes := congrArg (Option.map (Shown.exitCode caught)) same
  simpa only [Option.map_map, Function.comp_def, exitCode_shown] using codes

end ThreadProgram

end Libpreempt.Preempt
