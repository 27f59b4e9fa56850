import Libpreempt.Base.AlgorithmRefinement

/-! Where `bubble_sort` sorts, what it counts, and what it leaves alone. -/

set_option autoImplicit false

namespace Libpreempt.Base

open Libpreempt.Sorting BubbleSort

variable {T : Type*} [Preorder T] [DecidableLE T] [DecidableLT T] [@Std.Total T (· ≤ ·)]

/-!
## Sorting
-/

/-- The call sorts exactly when no `int` of its loops overflows. -/
theorem bubble_sort_ascending_iff (T : Type*) [LinearOrder T] :
    (∀ v : Array T,
      (∃ sorted result, bubbleSort .int v = some (sorted, result) ∧
        IsSortOf v.toList sorted.toList) ↔
      Representable .int v.toList) ∧
    ∀ (N : Nat) (v : Vector T N),
      (∃ sorted result, bubbleSortArray .int v = some (sorted, result) ∧
        IsSortOf v.toList sorted.toList) ↔
      Representable .int v.toList := by
  constructor
  · intro v
    constructor
    · rintro ⟨sorted, result, returned, _⟩
      exact (bubbleSort_eq_some_iff.mp returned).1
    · intro fits
      obtain ⟨sorted, returned, sort⟩ := bubbleSort_returns fits
      exact ⟨sorted, _, returned, sort⟩
  · intro N v
    constructor
    · rintro ⟨sorted, result, returned, _⟩
      exact (bubbleSortArray_eq_some_iff.mp returned).1
    · intro fits
      obtain ⟨sorted, returned, sort⟩ := bubbleSortArray_returns fits
      exact ⟨sorted, _, returned, sort⟩

/-- At `j = INT_MAX` the first pass needs `v[j + 1]`. -/
theorem bubble_sort_large_vector :
    ¬ ∀ v : Array Nat, ∃ sorted result, bubbleSort .int v = some (sorted, result) ∧
      IsSortOf v.toList sorted.toList := by
  intro sorts
  obtain ⟨sorted, result, returned, _⟩ := sorts (Array.replicate (2 ^ 31 + 1) 0)
  have places := (bubbleSort_eq_some_iff.mp returned).1.places
  rw [Array.length_toList, Array.size_replicate] at places
  exact absurd places (by decide)

/-!
## Counting the exchanges
-/

omit [@Std.Total T (· ≤ ·)] in
theorem representable_unbounded_iff {elements : List T}
    (distinct : elements.Pairwise fun first second => ¬ (first ≤ second ∧ second ≤ first)) :
    Representable .unbounded elements ↔
      elements.length ≤ intMax + 1 ∧ ∀ place, greaterBefore elements place < intMax := by
  constructor
  · intro fits
    refine ⟨fits.places, fun place => ?_⟩
    rw [← leftMoves_of_distinct distinct]
    exact fits.passes place
  · rintro ⟨places, passes⟩
    refine ⟨places, fun place => ?_, trivial⟩
    rw [leftMoves_of_distinct distinct]
    exact passes place

omit [@Std.Total T (· ≤ ·)] in
theorem sum_leftMoves_eq_inversions {elements : List T}
    (distinct : elements.Pairwise fun first second => ¬ (first ≤ second ∧ second ≤ first)) :
    ∑ place, leftMoves elements place = inversions elements := by
  rw [inversions_eq_sum]
  exact Finset.sum_congr rfl fun place _ => leftMoves_of_distinct distinct place

theorem distinct_of_nodup {T : Type*} [LinearOrder T] {elements : List T}
    (nodup : elements.Nodup) :
    elements.Pairwise fun first second => ¬ (first ≤ second ∧ second ≤ first) :=
  nodup.imp fun different both => different (le_antisymm both.1 both.2)

/-- Without equal elements every exchange removes one inversion. -/
theorem bubble_sort_inversions_iff (T : Type*) [LinearOrder T] :
    (∀ v : Array T, v.toList.Nodup →
      ((∃ sorted, bubbleSort .unbounded v = some (sorted, inversions v.toList)) ↔
        v.toList.length ≤ intMax + 1 ∧ ∀ place, greaterBefore v.toList place < intMax)) ∧
    ∀ (N : Nat) (v : Vector T N), v.toList.Nodup →
      ((∃ sorted, bubbleSortArray .unbounded v = some (sorted, inversions v.toList)) ↔
        v.toList.length ≤ intMax + 1 ∧ ∀ place, greaterBefore v.toList place < intMax) := by
  constructor
  · intro v nodup
    have distinct := distinct_of_nodup nodup
    have condition := representable_unbounded_iff distinct
    rw [← condition, ← sum_leftMoves_eq_inversions distinct]
    exact bubbleSort_counts_iff
  · intro N v nodup
    have distinct := distinct_of_nodup nodup
    have condition := representable_unbounded_iff distinct
    rw [← condition, ← sum_leftMoves_eq_inversions distinct]
    exact bubbleSortArray_counts_iff

theorem bubble_sort_inversions_iff_three :
    [3, 1, 2].Nodup ∧
      ((∃ sorted, bubbleSort .unbounded #[3, 1, 2] = some (sorted, inversions [3, 1, 2])) ↔
        3 ≤ intMax + 1 ∧ ∀ place, greaterBefore [3, 1, 2] place < intMax) :=
  ⟨by decide, (bubble_sort_inversions_iff Nat).1 #[3, 1, 2] (by decide)⟩

theorem bubble_sort_inversions_large_vector :
    ¬ ∀ v : Array Nat, v.toList.Nodup →
      ∃ sorted, bubbleSort .unbounded v = some (sorted, inversions v.toList) := by
  intro counts
  have small : ∀ size, size ≤ intMax + 1 := by
    intro size
    obtain ⟨sorted, returned⟩ := counts (List.range size).toArray List.nodup_range
    simpa using (bubbleSort_eq_some_iff.mp returned).1.places
  exact absurd (small (2 ^ 31 + 1)) (by decide)

/-!
## Sorted input
-/

theorem representable_of_strict {counter : Counter} {elements : List T}
    (places : elements.length ≤ intMax + 1) (strict : elements.Pairwise (· < ·)) :
    Representable counter elements := by
  have none := (sum_leftMoves_eq_zero_iff elements).mpr strict
  refine ⟨places, fun place => ?_, ?_⟩
  · rw [Finset.sum_eq_zero_iff.mp none place (Finset.mem_univ place)]
    decide
  · rw [none]
    cases counter with
    | int => exact Nat.zero_le _
    | unbounded => trivial

theorem passes_of_strict {elements : List T} (strict : elements.Pairwise (· < ·)) (limit : Nat) :
    (passes limit elements).1 = elements := by
  have still := (passSwaps_eq_zero_iff_ascending elements).mpr strict
  cases limit with
  | zero => rfl
  | succ limit => simp [passes, still, pass_of_passSwaps_eq_zero still]

theorem returns_unchanged_iff (counter : Counter) {size : Nat} {elements : List T}
    (length : elements.length = size) :
    (Representable counter elements ∧ elements = (passes (size - 1) elements).1 ∧
        0 = ∑ place, leftMoves elements place) ↔
      size ≤ intMax + 1 ∧ elements.Pairwise (· < ·) := by
  subst length
  constructor
  · rintro ⟨fits, _, none⟩
    exact ⟨fits.places, (sum_leftMoves_eq_zero_iff elements).mp none.symm⟩
  · rintro ⟨places, strict⟩
    exact ⟨representable_of_strict places strict, (passes_of_strict strict _).symm,
      ((sum_leftMoves_eq_zero_iff elements).mpr strict).symm⟩

theorem innerLoop_of_strict {size : Nat} {v : Vector T size} (more : 1 < size)
    (places : size ≤ intMax + 1) (strict : v.toList.Pairwise (· < ·)) :
    innerLoop .int ⟨v, false, 0⟩ 0 = some ⟨v, false, 0⟩ := by
  have still := (passSwaps_eq_zero_iff_ascending v.toList).mpr strict
  obtain ⟨state, performed, same, swapped, result⟩ :=
    @innerLoop_returns T size _ _ .int v 0 (Nat.zero_lt_of_lt more) (Nat.zero_le _)
      ⟨places, by rw [still]; exact Nat.zero_le _⟩
  rw [pass_of_passSwaps_eq_zero still] at same
  rw [still] at swapped result
  rw [performed]
  cases state with
  | mk ended swapped' result' =>
      cases Vector.toList_inj.mp same
      cases swapped
      cases result
      rfl

theorem bubbleSort_unchanged_iff (counter : Counter) (v : Array T) :
    bubbleSort counter v = some (v, 0) ↔ v.size ≤ intMax + 1 ∧ v.toList.Pairwise (· < ·) :=
  bubbleSort_eq_some_iff.trans (returns_unchanged_iff counter v.length_toList)

theorem bubbleSortArray_unchanged_iff {N : Nat} (counter : Counter) (v : Vector T N) :
    bubbleSortArray counter v = some (v, 0) ↔ N ≤ intMax + 1 ∧ v.toList.Pairwise (· < ·) :=
  bubbleSortArray_eq_some_iff.trans (returns_unchanged_iff counter v.length_toList)

theorem isSortOf_of_bubbleSort {counter : Counter} {v sorted : Array T} {result : Nat}
    (returned : bubbleSort counter v = some (sorted, result)) :
    v.size ≤ intMax + 1 ∧ IsSortOf v.toList sorted.toList := by
  obtain ⟨fits, shape, _⟩ := bubbleSort_eq_some_iff.mp returned
  exact ⟨fits.places, shape ▸ isSortOf_passes v.toList⟩

theorem isSortOf_of_bubbleSortArray {N : Nat} {counter : Counter} {v sorted : Vector T N}
    {result : Nat} (returned : bubbleSortArray counter v = some (sorted, result)) :
    N ≤ intMax + 1 ∧ IsSortOf v.toList sorted.toList := by
  obtain ⟨fits, shape, _⟩ := bubbleSortArray_eq_some_iff.mp returned
  have places := fits.places
  have sort := isSortOf_passes v.toList
  rw [v.length_toList] at places sort
  exact ⟨places, shape ▸ sort⟩

omit [DecidableLE T] [DecidableLT T] [@Std.Total T (· ≤ ·)] in
theorem strict_iff_distinct {input sorted : List T} (sort : IsSortOf input sorted) :
    sorted.Pairwise (· < ·) ↔
      input.Pairwise fun first second => ¬ (first ≤ second ∧ second ≤ first) := by
  rw [← sort.perm.pairwise_iff fun apart same => apart same.symm]
  constructor
  · intro strict
    exact strict.imp fun less same => less.not_ge same.2
  · intro distinct
    exact (sort.ascending.and distinct).imp fun both =>
      lt_of_le_not_ge both.1 fun greater => both.2 ⟨both.1, greater⟩

/-- Ascending input is left alone in one pass, and a second call has nothing to
do, exactly when no two elements are equivalent. -/
theorem bubble_sort_sorted_iff (T : Type*) [Preorder T] [DecidableLE T] [DecidableLT T]
    [@Std.Total T (· ≤ ·)] :
    ((∀ v : Array T, v.toList.Pairwise (· ≤ ·) →
        (bubbleSort .int v = some (v, 0) ∧
            (1 < v.size →
              innerLoop .int ⟨v.toVector, false, 0⟩ 0 = some ⟨v.toVector, false, 0⟩) ↔
          v.size ≤ intMax + 1 ∧ v.toList.Pairwise (· < ·))) ∧
      ∀ (v sorted : Array T) (result : Nat), bubbleSort .int v = some (sorted, result) →
        (bubbleSort .int sorted = some (sorted, 0) ↔
          v.toList.Pairwise fun first second => ¬ (first ≤ second ∧ second ≤ first))) ∧
    (∀ (N : Nat) (v : Vector T N), v.toList.Pairwise (· ≤ ·) →
        (bubbleSortArray .int v = some (v, 0) ∧
            (1 < N → innerLoop .int ⟨v, false, 0⟩ 0 = some ⟨v, false, 0⟩) ↔
          N ≤ intMax + 1 ∧ v.toList.Pairwise (· < ·))) ∧
      ∀ (N : Nat) (v sorted : Vector T N) (result : Nat),
        bubbleSortArray .int v = some (sorted, result) →
        (bubbleSortArray .int sorted = some (sorted, 0) ↔
          v.toList.Pairwise fun first second => ¬ (first ≤ second ∧ second ≤ first)) := by
  refine ⟨⟨?_, ?_⟩, ?_, ?_⟩
  · intro v _
    rw [bubbleSort_unchanged_iff]
    constructor
    · exact fun both => both.1
    · rintro ⟨places, strict⟩
      exact ⟨⟨places, strict⟩, fun more => innerLoop_of_strict more places strict⟩
  · intro v sorted result returned
    obtain ⟨places, sort⟩ := isSortOf_of_bubbleSort returned
    have size : sorted.size = v.size := sort.perm.length_eq
    rw [bubbleSort_unchanged_iff, strict_iff_distinct sort, size]
    exact and_iff_right places
  · intro N v _
    rw [bubbleSortArray_unchanged_iff]
    constructor
    · exact fun both => both.1
    · rintro ⟨places, strict⟩
      exact ⟨⟨places, strict⟩, fun more => innerLoop_of_strict more places strict⟩
  · intro N v sorted result returned
    obtain ⟨places, sort⟩ := isSortOf_of_bubbleSortArray returned
    rw [bubbleSortArray_unchanged_iff, strict_iff_distinct sort]
    exact and_iff_right places

theorem bubble_sort_sorted_iff_three :
    [1, 2, 4].Pairwise (· ≤ ·) ∧
      (bubbleSort .int #[1, 2, 4] = some (#[1, 2, 4], 0) ∧
          (1 < 3 → innerLoop .int ⟨#v[1, 2, 4], false, 0⟩ 0 = some ⟨#v[1, 2, 4], false, 0⟩) ↔
        3 ≤ intMax + 1 ∧ [1, 2, 4].Pairwise (· < ·)) :=
  ⟨by decide, (bubble_sort_sorted_iff Nat).1.1 #[1, 2, 4] (by decide)⟩

/-- The two equal elements are exchanged. -/
theorem bubble_sort_swaps_equal :
    ¬ ∀ v : Array Nat, v.toList.Pairwise (· ≤ ·) → bubbleSort .int v = some (v, 0) := by
  intro unchanged
  have strict := ((bubbleSort_unchanged_iff .int #[1, 1]).mp (unchanged #[1, 1] (by decide))).2
  exact absurd strict (by decide)

/-!
## The width of the counter
-/

omit [@Std.Total T (· ≤ ·)] in
theorem representable_iff_of_small (counter : Counter) {elements : List T}
    (size : elements.length ≤ intMax) :
    Representable counter elements ↔ counter.Holds (∑ place, leftMoves elements place) := by
  constructor
  · exact fun fits => fits.swaps
  · intro swaps
    refine ⟨Nat.le_succ_of_le size, fun place => ?_, swaps⟩
    have bound := leftMoves_le elements place
    have some := place.isLt
    omega

/-- `result` counts the moves of all elements, so it stays within `int` exactly
when these do. -/
theorem swap_counter_fits_iff (T : Type*) [Preorder T] [DecidableLE T] [DecidableLT T]
    [@Std.Total T (· ≤ ·)] (v : Array T) (size : v.size ≤ intMax) :
    (∃ sorted, bubbleSort .unbounded v = some (sorted, ∑ place, leftMoves v.toList place)) ∧
      (bubbleSort .int v ≠ none ↔ ∑ place, leftMoves v.toList place ≤ intMax) := by
  constructor
  · exact bubbleSort_counts_iff.mpr ((representable_iff_of_small .unbounded size).mpr trivial)
  · constructor
    · intro returned
      obtain ⟨⟨sorted, result⟩, performed⟩ := Option.ne_none_iff_exists'.mp returned
      exact (bubbleSort_eq_some_iff.mp performed).1.swaps
    · intro swaps
      obtain ⟨sorted, returned, _⟩ :=
        bubbleSort_returns ((representable_iff_of_small .int size).mpr swaps)
      rw [returned]
      exact Option.some_ne_none _

theorem swap_counter_fits_iff_three :
    3 ≤ intMax ∧
      (∃ sorted, bubbleSort .unbounded #[2, 1, 1] =
        some (sorted, ∑ place, leftMoves [2, 1, 1] place)) ∧
      (bubbleSort .int #[2, 1, 1] ≠ none ↔ ∑ place, leftMoves [2, 1, 1] place ≤ intMax) :=
  ⟨by decide, swap_counter_fits_iff Nat #[2, 1, 1] (by decide)⟩

/-- Equal elements are exchanged in every pass: `46341 * 46341` times. -/
theorem swap_counter_overflows :
    ¬ ∀ v : Array Nat, v.size ≤ intMax → bubbleSort .int v ≠ none := by
  intro returns
  obtain ⟨⟨sorted, result⟩, returned⟩ := Option.ne_none_iff_exists'.mp
    (returns (Array.replicate (46341 + 1) 0) (by rw [Array.size_replicate]; decide))
  have swaps := (bubbleSort_eq_some_iff.mp returned).1.swaps
  rw [Array.toList_replicate, sum_leftMoves_replicate] at swaps
  exact absurd swaps (by decide)

end Libpreempt.Base
