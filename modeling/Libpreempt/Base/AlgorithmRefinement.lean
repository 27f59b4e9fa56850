import Libpreempt.Base.Algorithm
import Libpreempt.Sorting.Inversions

/-! The loops of `bubble_sort` make the passes of the abstract sort for as long
as their integers can count them. -/

set_option autoImplicit false

namespace Libpreempt.Base

open Libpreempt.Sorting

def Counter.Holds : Counter → Nat → Prop
  | .int, result => result ≤ intMax
  | .unbounded, _ => True

instance (counter : Counter) (result : Nat) : Decidable (counter.Holds result) :=
  match counter with
  | .int => inferInstanceAs (Decidable (result ≤ intMax))
  | .unbounded => inferInstanceAs (Decidable True)

theorem Counter.Holds.mono {counter : Counter} {low high : Nat} (holds : counter.Holds high)
    (less : low ≤ high) : counter.Holds low := by
  cases counter with
  | int => exact Nat.le_trans less holds
  | unbounded => trivial

theorem Counter.succ_eq (counter : Counter) (result : Nat) :
    counter.succ result = if counter.Holds (result + 1) then some (result + 1) else none := by
  cases counter with
  | int => rfl
  | unbounded => rfl

namespace BubbleSort

variable {T : Type*} {size : Nat} [Preorder T] [DecidableLE T]

def Pass.view (state : Pass T size) : List T × Bool × Nat :=
  (state.v.toList, state.swapped, state.result)

omit [Preorder T] [DecidableLE T] in
theorem getElem?_of_toList {v : Vector T size} {before after : List T} {element : T}
    (shape : v.toList = before ++ element :: after) : v[before.length]? = some element := by
  rw [← Vector.getElem?_toList, shape]
  simp

omit [Preorder T] [DecidableLE T] in
theorem toList_swap {v : Vector T size} {before after : List T} {lower upper : T}
    (shape : v.toList = before ++ lower :: upper :: after) :
    (swap v before.length (before.length + 1) lower upper).toList =
      before ++ upper :: lower :: after := by
  simp [swap, shape]

theorem innerLoop_eq (counter : Counter) {before rest : List T} {carried : T}
    {state : Pass T size} (shape : state.v.toList = before ++ carried :: rest)
    (counted : before.length ≤ intMax) (held : counter.Holds state.result) :
    (innerLoop counter state before.length).map Pass.view =
      if before.length + rest.length ≤ intMax ∧
          counter.Holds (state.result + carrySwaps carried rest) then
        some (before ++ carry carried rest,
          state.swapped || decide (0 < carrySwaps carried rest),
          state.result + carrySwaps carried rest)
      else none := by
  have length : size = before.length + (rest.length + 1) := by
    simpa using congrArg List.length shape
  have bound : sizePred size = before.length + rest.length := by
    rw [sizePred, if_neg (by omega)]
    omega
  induction rest generalizing before carried state with
  | nil =>
      rw [innerLoop, if_neg (by simp [bound])]
      simp [carry, carrySwaps, counted, held, Pass.view, shape]
  | cons next rest ih =>
      have more : before.length < sizePred size := by simp [bound]
      have lower := getElem?_of_toList shape
      have upper : state.v[before.length + 1]? = some next := by
        have after : state.v.toList = (before ++ [carried]) ++ next :: rest := by simp [shape]
        simpa using getElem?_of_toList after
      have places : before.length + (next :: rest).length = before.length + 1 + rest.length := by
        simp only [List.length_cons]
        omega
      rw [innerLoop, if_pos more]
      by_cases fits : before.length < intMax
      · rw [dif_pos fits]
        simp only [lower, upper, carry, carrySwaps]
        by_cases below : next ≤ carried
        · simp only [if_pos below, Counter.succ_eq]
          by_cases room : counter.Holds (state.result + 1)
          · have swapped := toList_swap shape
            have tail := @ih (before ++ [next]) carried
              ⟨swap state.v before.length (before.length + 1) carried next, true,
                state.result + 1⟩ (by simpa using swapped) (by simpa [Nat.succ_le_iff] using fits) room
              (by simp [length]; omega) (by simp [bound]; omega)
            rw [List.length_append, List.length_singleton] at tail
            have total : state.result + (carrySwaps carried rest + 1) =
                state.result + 1 + carrySwaps carried rest := by omega
            simp only [if_pos room, tail, total, places]
            simp
          · have spent : ¬ counter.Holds (state.result + (carrySwaps carried rest + 1)) :=
              fun holds => room (holds.mono (by omega))
            simp [room, spent]
        · have tail := @ih (before ++ [carried]) next state (by simp [shape])
              (by simpa [Nat.succ_le_iff] using fits) held (by simp [length]; omega)
              (by simp [bound]; omega)
          rw [List.length_append, List.length_singleton] at tail
          simp only [if_neg below, tail, places]
          simp
      · rw [dif_neg fits]
        have beyond : ¬ before.length + (next :: rest).length ≤ intMax := by omega
        rw [if_neg fun both => beyond both.1]
        rfl

theorem innerLoop_pass (counter : Counter) {v : Vector T size} {result : Nat}
    (more : 0 < size) (held : counter.Holds result) :
    (innerLoop counter { v, swapped := false, result } 0).map Pass.view =
      if size ≤ intMax + 1 ∧ counter.Holds (result + passSwaps v.toList) then
        some (pass v.toList, decide (0 < passSwaps v.toList), result + passSwaps v.toList)
      else none := by
  cases shape : v.toList with
  | nil =>
      have length : size = 0 := by simpa using congrArg List.length shape
      omega
  | cons first rest =>
      have length : size = rest.length + 1 := by simpa using congrArg List.length shape
      have looped := @innerLoop_eq T size _ _ counter [] rest first ⟨v, false, result⟩ shape
        (Nat.zero_le _) held
      have fits : 0 + rest.length ≤ intMax ↔ size ≤ intMax + 1 := by omega
      exact looped.trans (if_congr (and_congr_left' fits) rfl rfl)

theorem innerLoop_returns {counter : Counter} {v : Vector T size} {result : Nat}
    (more : 0 < size) (held : counter.Holds result)
    (fits : size ≤ intMax + 1 ∧ counter.Holds (result + passSwaps v.toList)) :
    ∃ state, innerLoop counter { v, swapped := false, result } 0 = some state ∧
      state.v.toList = pass v.toList ∧ state.swapped = decide (0 < passSwaps v.toList) ∧
        state.result = result + passSwaps v.toList := by
  have looped := innerLoop_pass counter (v := v) more held
  rw [if_pos fits] at looped
  obtain ⟨state, performed, view⟩ := Option.map_eq_some_iff.mp looped
  exact ⟨state, performed, by simpa [Pass.view] using view⟩

theorem innerLoop_undefined {counter : Counter} {v : Vector T size} {result : Nat}
    (more : 0 < size) (held : counter.Holds result)
    (short : ¬ (size ≤ intMax + 1 ∧ counter.Holds (result + passSwaps v.toList))) :
    innerLoop counter { v, swapped := false, result } 0 = none := by
  have looped := innerLoop_pass counter (v := v) more held
  rw [if_neg short] at looped
  exact Option.map_eq_none_iff.mp looped

variable [DecidableLT T]

/-- The integers hold what the passes from `i` on need of them. -/
def Counts (counter : Counter) (i result limit : Nat) (elements : List T) : Prop :=
  (∀ standing ∈ standings [] elements, i + standing.moves limit ≤ intMax) ∧
    counter.Holds (result + (passes limit elements).2)

instance (counter : Counter) (i result limit : Nat) (elements : List T) :
    Decidable (Counts counter i result limit elements) :=
  inferInstanceAs (Decidable (_ ∧ _))

section Total

variable [@Std.Total T (· ≤ ·)]

theorem counts_still {counter : Counter} {i result limit : Nat} {elements : List T}
    (still : passSwaps elements = 0) (counted : i ≤ intMax) (held : counter.Holds result) :
    Counts counter i result (limit + 1) elements := by
  constructor
  · intro standing member
    rw [Standing.moves_eq_zero ((passSwaps_eq_zero_iff elements).mp still standing member)]
    exact counted
  · simpa [passes, still] using held

theorem counts_succ {counter : Counter} {i result limit : Nat} {elements : List T}
    (swapped : passSwaps elements ≠ 0) :
    Counts counter i result (limit + 1) elements ↔
      i < intMax ∧ Counts counter (i + 1) (result + passSwaps elements) limit (pass elements) := by
  have total : result + (passes (limit + 1) elements).2 =
      result + passSwaps elements + (passes limit (pass elements)).2 := by
    rw [passes, if_neg swapped, Nat.add_assoc]
  have later : (∀ standing ∈ standings [] (pass elements), i + 1 + standing.moves limit ≤ intMax) ↔
      ∀ standing ∈ standings [] elements, i + 1 + standing.next.moves limit ≤ intMax := by
    simp only [(standings_pass elements).mem_iff, List.forall_mem_map]
  rw [Counts, Counts, total, later, ← and_assoc]
  apply and_congr_left'
  constructor
  · intro bounds
    have room : i < intMax := by
      rw [ne_eq, passSwaps_eq_zero_iff] at swapped
      push Not at swapped
      obtain ⟨standing, member, active⟩ := swapped
      have bound := bounds standing member
      rw [Standing.moves_succ, if_pos active] at bound
      omega
    refine ⟨room, ?_⟩
    intro standing member
    have bound := bounds standing member
    rw [Standing.moves_succ] at bound
    by_cases active : standing.Active
    · rw [if_pos active] at bound
      omega
    · rw [Standing.moves_eq_zero fun next => active next.of_next]
      exact room
  · rintro ⟨_, bounds⟩ standing member
    have bound := bounds standing member
    rw [Standing.moves_succ]
    split
    · omega
    · omega

omit [@Std.Total T (· ≤ ·)] in
theorem Counts.holds_pass {counter : Counter} {i result limit : Nat} {elements : List T}
    (counts : Counts counter i result (limit + 1) elements) :
    counter.Holds (result + passSwaps elements) := by
  refine counts.2.mono ?_
  unfold passes
  split
  · omega
  · simp

theorem outerLoop_eq (counter : Counter) {v : Vector T size} {i result : Nat}
    (counted : i ≤ intMax) (held : counter.Holds result) :
    (outerLoop counter v i result).map (fun sorted => (sorted.1.toList, sorted.2)) =
      if (i < size → size ≤ intMax + 1) ∧ Counts counter i result (size - i) v.toList then
        some ((passes (size - i) v.toList).1, result + (passes (size - i) v.toList).2)
      else none := by
  obtain ⟨limit, remaining⟩ : ∃ limit, size - i = limit := ⟨_, rfl⟩
  induction limit generalizing v i result with
  | zero =>
      have beyond : ¬ i < size := by omega
      have idle : Counts counter i result 0 v.toList := by
        refine ⟨?_, held⟩
        intro standing _
        rw [standing.moves_zero]
        exact counted
      rw [outerLoop, if_neg beyond, remaining]
      simp [beyond, idle, passes]
  | succ limit ih =>
      have more : i < size := by omega
      have some : 0 < size := Nat.zero_lt_of_lt more
      have rest : size - (i + 1) = limit := by omega
      rw [outerLoop, if_pos more, remaining]
      by_cases fits : size ≤ intMax + 1 ∧ counter.Holds (result + passSwaps v.toList)
      · obtain ⟨state, performed, shape, swapped, result'⟩ := innerLoop_returns some held fits
        rw [performed]
        by_cases still : passSwaps v.toList = 0
        · rw [still] at swapped result'
          have ended : state.swapped = false := by simpa using swapped
          have counts : Counts counter i result (limit + 1) v.toList :=
            counts_still still counted held
          simp only [ended, if_true]
          rw [if_pos ⟨fun _ => fits.1, counts⟩]
          simp [shape, result', passes, still]
        · have again : state.swapped = true := by
            simpa [swapped] using Nat.pos_of_ne_zero still
          simp only [again, Bool.true_eq_false, if_false]
          by_cases room : i < intMax
          · have tail := @ih state.v (i + 1) state.result room (result' ▸ fits.2) rest
            rw [rest, shape, result'] at tail
            rw [dif_pos room, result', tail, passes, if_neg still]
            apply if_congr
            · constructor
              · rintro ⟨_, counts⟩
                exact ⟨fun _ => fits.1, (counts_succ still).mpr ⟨room, counts⟩⟩
              · rintro ⟨_, counts⟩
                exact ⟨fun _ => fits.1, ((counts_succ still).mp counts).2⟩
            · simp only [Nat.add_assoc]
            · rfl
          · rw [dif_neg room, if_neg fun all => room ((counts_succ still).mp all.2).1]
            rfl
      · rw [innerLoop_undefined some held fits]
        exact (if_neg fun all => fits ⟨all.1 more, all.2.holds_pass⟩).symm

end Total

/-!
## What the calls return
-/

/-- The sort of these elements stays within its integers: the index `j`, the
number `i` of the pass, and `result`. -/
structure Representable (counter : Counter) (elements : List T) : Prop where
  places : elements.length ≤ intMax + 1
  passes : ∀ place, leftMoves elements place < intMax
  swaps : counter.Holds (∑ place, leftMoves elements place)

variable [@Std.Total T (· ≤ ·)]

theorem counts_iff_representable (counter : Counter) (elements : List T) :
    ((1 < elements.length → elements.length ≤ intMax + 1) ∧
        Counts counter 1 0 (elements.length - 1) elements) ↔
      Representable counter elements := by
  have moves : (∀ standing ∈ standings [] elements,
      1 + standing.moves (elements.length - 1) ≤ intMax) ↔
        ∀ place, leftMoves elements place < intMax := by
    rw [← forall_moves_iff elements (· < intMax)]
    simp only [Nat.add_comm 1, Nat.succ_le_iff]
  rw [Counts, moves, Nat.zero_add, passes_swaps_eq_sum]
  constructor
  · rintro ⟨size, passes, swaps⟩
    refine ⟨?_, passes, swaps⟩
    by_cases more : 1 < elements.length
    · exact size more
    · unfold intMax
      omega
  · intro representable
    exact ⟨fun _ => representable.places, representable.passes, representable.swaps⟩

theorem outerLoop_eq_some_iff {counter : Counter} {v sorted : Vector T size} {result : Nat} :
    outerLoop counter v 1 0 = some (sorted, result) ↔
      Representable counter v.toList ∧
        sorted.toList = (passes (size - 1) v.toList).1 ∧
          result = ∑ place, leftMoves v.toList place := by
  have held : counter.Holds 0 := by
    cases counter with
    | int => exact Nat.zero_le _
    | unbounded => trivial
  have looped := @outerLoop_eq T size _ _ _ _ counter v 1 0 (by decide) held
  have length : v.toList.length = size := v.length_toList
  have condition := counts_iff_representable counter v.toList
  rw [length] at condition
  have total : (passes (size - 1) v.toList).2 = ∑ place, leftMoves v.toList place := by
    rw [← passes_swaps_eq_sum, length]
  constructor
  · intro returned
    rw [returned, Option.map_some] at looped
    split at looped
    · rename_i counts
      obtain ⟨shape, count⟩ : sorted.toList = (passes (size - 1) v.toList).1 ∧
          result = (passes (size - 1) v.toList).2 := by
        simpa only [Nat.zero_add, Option.some.injEq, Prod.mk.injEq] using looped
      exact ⟨condition.mp counts, shape, count.trans total⟩
    · cases looped
  · rintro ⟨fits, shape, rfl⟩
    rw [if_pos (condition.mpr fits)] at looped
    obtain ⟨⟨ended, count⟩, returned, view⟩ := Option.map_eq_some_iff.mp looped
    obtain ⟨same, exchanges⟩ : ended.toList = (passes (size - 1) v.toList).1 ∧
        count = (passes (size - 1) v.toList).2 := by
      simpa only [Nat.zero_add, Prod.mk.injEq] using view
    have equal : ended = sorted := Vector.toList_inj.mp (same.trans shape.symm)
    rw [returned, equal, exchanges, total]

end BubbleSort

open BubbleSort

variable {T : Type*} [Preorder T] [DecidableLE T] [DecidableLT T] [@Std.Total T (· ≤ ·)]

theorem bubbleSort_eq_some_iff {counter : Counter} {v sorted : Array T} {result : Nat} :
    bubbleSort counter v = some (sorted, result) ↔
      Representable counter v.toList ∧ sorted.toList = (passes (v.size - 1) v.toList).1 ∧
        result = ∑ place, leftMoves v.toList place := by
  have looped : ∀ {ended : Vector T v.size}, outerLoop counter v.toVector 1 0 = some (ended, result) ↔
      Representable counter v.toList ∧ ended.toList = (passes (v.size - 1) v.toList).1 ∧
        result = ∑ place, leftMoves v.toList place :=
    outerLoop_eq_some_iff
  constructor
  · intro returned
    obtain ⟨⟨ended, count⟩, performed, same⟩ := Option.map_eq_some_iff.mp returned
    cases same
    exact looped.mp performed
  · rintro ⟨fits, shape, count⟩
    have size : sorted.size = v.size := by
      have same := (passes_perm (v.size - 1) v.toList).length_eq
      rw [← shape] at same
      exact same
    have performed := (@looped ⟨sorted, size⟩).mpr ⟨fits, shape, count⟩
    rw [bubbleSort, performed]
    rfl

theorem bubbleSortArray_eq_some_iff {N : Nat} {counter : Counter} {v sorted : Vector T N}
    {result : Nat} :
    bubbleSortArray counter v = some (sorted, result) ↔
      Representable counter v.toList ∧ sorted.toList = (passes (N - 1) v.toList).1 ∧
        result = ∑ place, leftMoves v.toList place :=
  outerLoop_eq_some_iff

structure IsSortOf (input output : List T) : Prop where
  ascending : output.Pairwise (· ≤ ·)
  perm : output.Perm input

theorem isSortOf_passes (elements : List T) :
    IsSortOf elements (passes (elements.length - 1) elements).1 :=
  ⟨passes_full_ascending elements, passes_perm _ elements⟩

theorem bubbleSort_returns {counter : Counter} {v : Array T}
    (fits : Representable counter v.toList) :
    ∃ sorted, bubbleSort counter v = some (sorted, ∑ place, leftMoves v.toList place) ∧
      IsSortOf v.toList sorted.toList :=
  ⟨(passes (v.size - 1) v.toList).1.toArray, bubbleSort_eq_some_iff.mpr ⟨fits, rfl, rfl⟩,
    isSortOf_passes v.toList⟩

theorem bubbleSortArray_returns {N : Nat} {counter : Counter} {v : Vector T N}
    (fits : Representable counter v.toList) :
    ∃ sorted, bubbleSortArray counter v = some (sorted, ∑ place, leftMoves v.toList place) ∧
      IsSortOf v.toList sorted.toList := by
  have sort := isSortOf_passes v.toList
  rw [v.length_toList] at sort
  have size : (passes (N - 1) v.toList).1.toArray.size = N := by
    rw [List.size_toArray, sort.perm.length_eq, v.length_toList]
  exact ⟨⟨_, size⟩, bubbleSortArray_eq_some_iff.mpr ⟨fits, rfl, rfl⟩, sort⟩

theorem bubbleSort_counts_iff {counter : Counter} {v : Array T} :
    (∃ sorted, bubbleSort counter v = some (sorted, ∑ place, leftMoves v.toList place)) ↔
      Representable counter v.toList := by
  constructor
  · rintro ⟨sorted, returned⟩
    exact (bubbleSort_eq_some_iff.mp returned).1
  · intro fits
    obtain ⟨sorted, returned, _⟩ := bubbleSort_returns fits
    exact ⟨sorted, returned⟩

theorem bubbleSortArray_counts_iff {N : Nat} {counter : Counter} {v : Vector T N} :
    (∃ sorted, bubbleSortArray counter v = some (sorted, ∑ place, leftMoves v.toList place)) ↔
      Representable counter v.toList := by
  constructor
  · rintro ⟨sorted, returned⟩
    exact (bubbleSortArray_eq_some_iff.mp returned).1
  · intro fits
    obtain ⟨sorted, returned, _⟩ := bubbleSortArray_returns fits
    exact ⟨sorted, returned⟩

end Libpreempt.Base
