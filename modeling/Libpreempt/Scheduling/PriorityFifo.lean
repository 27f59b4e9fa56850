import Mathlib.Data.Finset.Max
import Mathlib.Data.List.Basic
import Mathlib.Order.Lattice

/-! Preemptive scheduling by priority, first in first out within a priority.
The runnable threads are listed in the order in which they became runnable. -/

set_option autoImplicit false

namespace Libpreempt.Scheduling

variable {Id Priority : Type*} [DecidableEq Id] [LinearOrder Priority]

/-- The thread `next` may execute; `current` executed last and is runnable. -/
structure Dispatch (priority : Id → Priority) (runnable : List Id) (current : Option Id)
    (next : Id) : Prop where
  member : next ∈ runnable
  highest : ∀ other ∈ runnable, priority other ≤ priority next
  displaces : ∀ running ∈ current, next = running ∨ priority running < priority next
  inOrder : next ∈ current ∨
    ∀ earlier ∈ runnable.takeWhile (· ≠ next), priority earlier ≠ priority next

variable {priority : Id → Priority}

instance (runnable : List Id) (current : Option Id) (next : Id) :
    Decidable (Dispatch priority runnable current next) :=
  decidable_of_iff
    (next ∈ runnable ∧ (∀ other ∈ runnable, priority other ≤ priority next) ∧
      (∀ running ∈ current, next = running ∨ priority running < priority next) ∧
      (next ∈ current ∨
        ∀ earlier ∈ runnable.takeWhile (· ≠ next), priority earlier ≠ priority next))
    ⟨fun ⟨member, highest, displaces, inOrder⟩ => ⟨member, highest, displaces, inOrder⟩,
      fun ⟨member, highest, displaces, inOrder⟩ => ⟨member, highest, displaces, inOrder⟩⟩

theorem Dispatch.current_eq {runnable : List Id} {running next : Id}
    (dispatched : Dispatch priority runnable (some running) next)
    (highest : priority next ≤ priority running) : next = running := by
  rcases dispatched.displaces running rfl with same | higher
  · exact same
  · exact absurd higher (not_lt_of_ge highest)

/-- While later arrivals never have a higher priority than earlier ones, the
threads execute in the order of their arrival. -/
theorem dispatch_iff_head {head : Id} {tail : List Id} {current : Option Id}
    (descending : ∀ later ∈ tail, priority later ≤ priority head)
    (running : current = none ∨ current = some head) (next : Id) :
    Dispatch priority (head :: tail) current next ↔ next = head := by
  have bound : ∀ other ∈ head :: tail, priority other ≤ priority head := by
    intro other member
    rcases List.mem_cons.mp member with rfl | later
    · exact le_refl _
    · exact descending other later
  constructor
  · intro dispatched
    rcases running with idle | held
    · by_contra different
      rcases dispatched.inOrder with present | order
      · rw [idle] at present
        cases present
      · refine order head ?_ (le_antisymm (dispatched.highest head (List.mem_cons_self ..))
          (bound next dispatched.member))
        rw [List.takeWhile_cons_of_pos (by simpa using Ne.symm different)]
        exact List.mem_cons_self ..
    · rw [held] at dispatched
      exact dispatched.current_eq (bound next dispatched.member)
  · intro same
    subst next
    refine ⟨List.mem_cons_self .., bound, ?_, .inr ?_⟩
    · intro holder present
      rcases running with idle | held
      · rw [idle] at present
        cases present
      · rw [held] at present
        exact .inl (Option.some.inj present)
    · intro earlier before
      rw [List.takeWhile_cons_of_neg (by simp)] at before
      cases before

/-- The processor is never idle while a thread is runnable. -/
theorem exists_dispatch {runnable : List Id} {current : Option Id} (waiting : runnable ≠ [])
    (held : ∀ running ∈ current, running ∈ runnable) :
    ∃ next, Dispatch priority runnable current next := by
  obtain ⟨top, member, highest⟩ :=
    runnable.toFinset.exists_max_image priority (List.toFinset_nonempty_iff _ |>.mpr waiting)
  simp only [List.mem_toFinset] at member highest
  by_cases running : ∃ id ∈ current, priority top ≤ priority id
  · -- no thread has a higher priority than the one that executed last
    obtain ⟨id, present, above⟩ := running
    refine ⟨id, held id present, fun other there => (highest other there).trans above, ?_,
      .inl present⟩
    intro other there
    exact .inl (Option.some.inj (present.symm.trans there))
  · -- else the first one of the highest priority takes over
    obtain ⟨next, first⟩ : ∃ next, runnable.find? (fun id => priority id = priority top) =
        some next := by
      rw [← Option.isSome_iff_exists, List.find?_isSome]
      exact ⟨top, member, decide_eq_true rfl⟩
    have tied : priority next = priority top := by simpa using List.find?_some first
    refine ⟨next, List.mem_of_find?_eq_some first, ?_, ?_, .inr ?_⟩
    · intro other there
      rw [tied]
      exact highest other there
    · intro id present
      rw [tied]
      exact .inr (lt_of_not_ge fun above => running ⟨id, present, above⟩)
    · intro earlier before same
      obtain ⟨_, front, back, split, lower⟩ := List.find?_eq_some_iff_append.mp first
      have apart : ∀ id ∈ front, priority id ≠ priority top := by
        intro id there
        simpa using lower id there
      have different : ∀ id ∈ front, decide (id ≠ next) = true := by
        intro id there
        exact decide_eq_true fun equal => apart id there (equal ▸ tied)
      rw [split, List.takeWhile_append_of_pos different, List.takeWhile_cons_of_neg (by simp),
        List.append_nil] at before
      exact apart earlier before (same.trans tied)

end Libpreempt.Scheduling
