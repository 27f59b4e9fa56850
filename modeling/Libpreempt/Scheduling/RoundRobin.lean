import Libpreempt.Scheduling.PriorityFifo
import Mathlib.Data.List.TakeWhile

/-! Round robin scheduling: the rule of `PriorityFifo` with time slices. A
thread whose slice is over waits behind the other threads of its priority. -/

set_option autoImplicit false

namespace Libpreempt.Scheduling

variable {Id Priority : Type*} [DecidableEq Id] [LinearOrder Priority]

/-- The runnable threads when the slice of `id` is over. -/
def expire (runnable : List Id) (id : Id) : List Id := runnable.filter (· ≠ id) ++ [id]

theorem expire_perm {runnable : List Id} {id : Id} (distinct : runnable.Nodup)
    (member : id ∈ runnable) : (expire runnable id).Perm runnable := by
  have others : runnable.filter (· ≠ id) = runnable.erase id := by
    rw [distinct.erase_eq_filter]
    exact List.filter_congr fun other _ => by simp [bne, beq_eq_decide]
  rw [expire, others]
  exact List.perm_append_singleton id _ |>.trans (List.perm_cons_erase member).symm

variable {priority : Id → Priority}

/-- Without two threads of one priority there is nothing to take turns with. -/
theorem dispatch_iff_highest {runnable : List Id} {current : Option Id}
    (distinct : ∀ left ∈ runnable, ∀ right ∈ runnable, priority left = priority right → left = right)
    (held : ∀ running ∈ current, running ∈ runnable) (next : Id) :
    Dispatch priority runnable current next ↔
      next ∈ runnable ∧ ∀ other ∈ runnable, priority other ≤ priority next := by
  constructor
  · exact fun dispatched => ⟨dispatched.member, dispatched.highest⟩
  · rintro ⟨member, highest⟩
    refine ⟨member, highest, ?_, .inr ?_⟩
    · intro running present
      rcases (highest running (held running present)).lt_or_eq with lower | tied
      · exact .inr lower
      · exact .inl (distinct running (held running present) next member tied).symm
    · intro earlier before tied
      have inside := List.takeWhile_subset _ before
      have different := List.mem_takeWhile_imp before
      simp [distinct earlier inside next member tied] at different

/-- The next thread of the same priority takes over. -/
theorem dispatch_expire {id next : Id} {rest : List Id} (different : next ≠ id)
    (tied : priority next = priority id)
    (highest : ∀ other ∈ rest, priority other ≤ priority id) :
    Dispatch priority (expire (id :: next :: rest) id) none next := by
  have shape : expire (id :: next :: rest) id = next :: (rest.filter (· ≠ id) ++ [id]) := by
    simp [expire, different]
  rw [shape]
  refine (dispatch_iff_head ?_ (.inl rfl) next).mpr rfl
  intro later member
  rw [tied]
  rcases List.mem_append.mp member with waiting | last
  · exact highest later (List.mem_filter.mp waiting).1
  · rw [List.mem_singleton.mp last]

end Libpreempt.Scheduling
