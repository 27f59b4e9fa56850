import Libpreempt.Sorting.BubbleProperties
import Mathlib.Algebra.BigOperators.Fin
import Mathlib.Algebra.BigOperators.Group.Finset.Sigma
import Mathlib.Data.Fintype.Prod

/-! The exchanges of bubble sort counted by the places of a list: inversions,
and the moves that equivalent elements add to them. -/

set_option autoImplicit false

namespace Libpreempt.Sorting

variable {Element : Type*} [Preorder Element] [DecidableLE Element] [DecidableLT Element]

omit [DecidableLE Element] in
/-- The places `first < second` whose elements are out of order. -/
def inversions (elements : List Element) : Nat :=
  (Finset.univ.filter fun places : Fin elements.length × Fin elements.length =>
    places.1 < places.2 ∧ elements[places.2] < elements[places.1]).card

omit [DecidableLE Element] in
/-- The greater elements before `place`. -/
def greaterBefore (elements : List Element) (place : Fin elements.length) : Nat :=
  (Finset.univ.filter fun earlier : Fin elements.length =>
    earlier < place ∧ elements[place] < elements[earlier]).card

/-- How often all passes together exchange the element at `place` to the left:
in every pass if an equivalent element stands before it, otherwise once for
every greater one. -/
def leftMoves (elements : List Element) (place : Fin elements.length) : Nat :=
  if ∃ earlier : Fin elements.length, earlier < place ∧
      elements[place] ≤ elements[earlier] ∧ elements[earlier] ≤ elements[place] then
    elements.length - 1
  else greaterBefore elements place

omit [DecidableLT Element] [DecidableLE Element] [Preorder Element] in
theorem card_before (elements : List Element) (limit : Nat) (holds : Element → Prop)
    [DecidablePred holds] :
    (Finset.univ.filter fun place : Fin elements.length =>
        place.val < limit ∧ holds elements[place]).card =
      (elements.take limit).countP fun element => decide (holds element) := by
  induction elements generalizing limit with
  | nil => simp
  | cons first rest ih =>
      cases limit with
      | zero => simp
      | succ limit =>
          have later := ih limit
          rw [Finset.card_filter] at later ⊢
          rw [List.take_succ_cons, List.countP_cons, ← later]
          refine (Fin.sum_univ_succ _).trans ?_
          simp [Nat.add_comm]

theorem standings_eq_ofFn (seen elements : List Element) :
    standings seen elements = List.ofFn fun place : Fin elements.length =>
      standing ((elements.take place).reverse ++ seen) elements[place] := by
  induction elements generalizing seen with
  | nil => rfl
  | cons first rest ih =>
      rw [standings, ih]
      refine Eq.trans ?_ (@List.ofFn_succ _ rest.length _).symm
      simp

theorem above_eq_greaterBefore (elements : List Element) (place : Fin elements.length) :
    (standing ((elements.take place).reverse ++ []) elements[place]).above =
      greaterBefore elements place := by
  rw [List.append_nil]
  simp only [standing, List.countP_reverse]
  exact (card_before elements place fun earlier => elements[place] < earlier).symm

theorem tied_iff_earlier (elements : List Element) (place : Fin elements.length) :
    (standing ((elements.take place).reverse ++ []) elements[place]).tied = true ↔
      ∃ earlier : Fin elements.length, earlier < place ∧
        elements[place] ≤ elements[earlier] ∧ elements[earlier] ≤ elements[place] := by
  simp only [List.append_nil, standing_tied_iff, List.mem_reverse]
  constructor
  · rintro ⟨element, member, same⟩
    obtain ⟨earlier, bound, rfl⟩ := List.mem_take_iff_getElem.mp member
    exact ⟨⟨earlier, by omega⟩, by simp [Fin.lt_def]; omega, same⟩
  · rintro ⟨earlier, before, same⟩
    exact ⟨elements[earlier],
      List.mem_take_iff_getElem.mpr ⟨earlier, by simp; omega, rfl⟩, same⟩

theorem leftMoves_eq_moves (elements : List Element) (place : Fin elements.length) :
    leftMoves elements place =
      (standing ((elements.take place).reverse ++ []) elements[place]).moves
        (elements.length - 1) := by
  have bound : (standing ((elements.take place).reverse ++ []) elements[place]).above ≤
      elements.length - 1 := by
    have before := above_le ((elements.take place).reverse ++ []) elements[place]
    simp only [List.append_nil, List.length_reverse, List.length_take] at before ⊢
    omega
  unfold leftMoves Standing.moves
  rw [Nat.min_eq_left bound, above_eq_greaterBefore]
  simp only [tied_iff_earlier]

theorem leftMoves_le (elements : List Element) (place : Fin elements.length) :
    leftMoves elements place ≤ elements.length - 1 := by
  rw [leftMoves_eq_moves]
  unfold Standing.moves
  split
  · exact Nat.le_refl _
  · exact Nat.min_le_right ..

section Total

variable [@Std.Total Element (· ≤ ·)]

/-- The passes that bubble sort makes at most, and all their exchanges. -/
theorem passes_swaps_eq_sum (elements : List Element) :
    (passes (elements.length - 1) elements).2 = ∑ place, leftMoves elements place := by
  rw [passes_swaps, standings_eq_ofFn, List.map_ofFn, List.sum_ofFn]
  exact Finset.sum_congr rfl fun place _ => (leftMoves_eq_moves elements place).symm

theorem sum_leftMoves_eq_zero_iff (elements : List Element) :
    ∑ place, leftMoves elements place = 0 ↔ elements.Pairwise (· < ·) := by
  rw [← passes_swaps_eq_sum, ← passSwaps_eq_zero_iff_ascending]
  cases elements with
  | nil => simp [passes, passSwaps]
  | cons first rest =>
      cases rest with
      | nil => simp [passes, passSwaps, carrySwaps]
      | cons second rest =>
          simp only [List.length_cons, Nat.add_sub_cancel, passes]
          split
          · rename_i still
            simp [still]
          · rename_i moved
            simp [moved]

omit [@Std.Total Element (· ≤ ·)] in
theorem standings_replicate {seen : List Element} {element : Element} (member : element ∈ seen)
    (greatest : ∀ earlier ∈ seen, earlier ≤ element) (count : Nat) :
    standings seen (List.replicate count element) = List.replicate count ⟨true, 0⟩ := by
  induction count generalizing seen with
  | zero => rfl
  | succ count ih =>
      have first : standing seen element = ⟨true, 0⟩ :=
        Standing.ext (standing_tied_iff.mpr ⟨element, member, le_rfl, le_rfl⟩)
          (above_eq_zero_of_le greatest)
      rw [List.replicate_succ, List.replicate_succ, standings, first,
        ih (List.mem_cons_self ..) (List.forall_mem_cons.mpr ⟨le_rfl, greatest⟩)]

theorem sum_leftMoves_replicate (count : Nat) (element : Element) :
    ∑ place, leftMoves (List.replicate (count + 1) element) place = count * count := by
  have alone : (standing [] element).moves count = 0 := by simp [standing, Standing.moves]
  have later : standings [element] (List.replicate count element) =
      List.replicate count ⟨true, 0⟩ :=
    standings_replicate (List.mem_singleton_self _) (by simp) count
  rw [← passes_swaps_eq_sum, passes_swaps, List.length_replicate, Nat.add_sub_cancel,
    List.replicate_succ, standings, later, List.map_cons, List.sum_cons, alone]
  simp [Standing.moves]

omit [@Std.Total Element (· ≤ ·)] in
theorem forall_moves_iff (elements : List Element) (holds : Nat → Prop) :
    (∀ standing ∈ standings [] elements, holds (standing.moves (elements.length - 1))) ↔
      ∀ place, holds (leftMoves elements place) := by
  rw [standings_eq_ofFn, List.forall_mem_ofFn_iff]
  simp only [leftMoves_eq_moves]

theorem passes_full_ascending (elements : List Element) :
    (passes (elements.length - 1) elements).1.Pairwise (· ≤ ·) := by
  apply passes_ascending
  intro standing member
  have bound := above_lt member
  rw [List.length_nil] at bound
  omega

end Total

omit [DecidableLE Element] in
theorem inversions_eq_sum (elements : List Element) :
    inversions elements = ∑ place, greaterBefore elements place := by
  simp only [inversions, greaterBefore, Finset.card_filter]
  rw [Fintype.sum_prod_type_right]

theorem leftMoves_of_distinct {elements : List Element}
    (distinct : elements.Pairwise fun first second => ¬ (first ≤ second ∧ second ≤ first))
    (place : Fin elements.length) :
    leftMoves elements place = greaterBefore elements place := by
  apply if_neg
  rintro ⟨earlier, before, low, high⟩
  exact List.pairwise_iff_getElem.mp distinct earlier place earlier.isLt place.isLt before
    ⟨high, low⟩

end Libpreempt.Sorting
