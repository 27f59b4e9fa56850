import Libpreempt.Sorting.Bubble
import Mathlib.Algebra.BigOperators.Group.List.Basic
import Mathlib.Algebra.Order.Monoid.Defs
import Mathlib.Algebra.Ring.Nat
import Mathlib.Order.Defs.Unbundled

/-! A pass lowers the number of greater elements before every element by one,
and keeps which elements follow an equivalent one. From this follow what the
passes return and how many exchanges they make. -/

set_option autoImplicit false

namespace Libpreempt.Sorting

theorem Standing.Active.of_next {standing : Standing} (active : standing.next.Active) :
    standing.Active :=
  active.imp_right fun above => Nat.lt_of_lt_of_le above (Nat.sub_le ..)

theorem Standing.moves_zero (standing : Standing) : standing.moves 0 = 0 := by
  simp [moves]

theorem Standing.moves_succ (limit : Nat) (standing : Standing) :
    standing.moves (limit + 1) =
      (if standing.Active then 1 else 0) + standing.next.moves limit := by
  cases standing with
  | mk tied above =>
      cases tied with
      | true => simp [moves, next, Active, Nat.add_comm]
      | false =>
          by_cases idle : above = 0
          · simp [moves, next, Active, idle]
          · have positive : 0 < above := Nat.pos_of_ne_zero idle
            simp only [moves, next, Active, positive, or_true, if_true, Bool.false_eq_true, if_false]
            omega

theorem sum_moves_succ (limit : Nat) (standings : List Standing) :
    (standings.map (Standing.moves (limit + 1))).sum =
      (standings.countP fun standing => decide standing.Active) +
        ((standings.map Standing.next).map (Standing.moves limit)).sum := by
  induction standings with
  | nil => rfl
  | cons standing rest ih =>
      simp only [List.map_cons, List.sum_cons, List.countP_cons, ih, Standing.moves_succ]
      by_cases active : standing.Active
      · simp only [active, if_true, decide_true]
        omega
      · simp only [active, if_false, decide_false, Bool.false_eq_true]
        omega

theorem Standing.moves_eq_zero {standing : Standing} (idle : ¬ standing.Active) (limit : Nat) :
    standing.moves limit = 0 := by
  rw [Active, not_or, Nat.not_lt, Nat.le_zero] at idle
  simp [moves, idle.1, idle.2]

variable {Element : Type*} [Preorder Element] [DecidableLE Element]

theorem carry_perm (carried : Element) (rest : List Element) :
    (carry carried rest).Perm (carried :: rest) := by
  induction rest generalizing carried with
  | nil => exact .refl _
  | cons next rest ih =>
      unfold carry
      split
      · exact ((ih carried).cons next).trans (.swap carried next rest)
      · exact (ih next).cons carried

theorem pass_perm (elements : List Element) : (pass elements).Perm elements := by
  cases elements with
  | nil => exact .refl _
  | cons first rest => exact carry_perm first rest

theorem passes_perm (limit : Nat) (elements : List Element) :
    (passes limit elements).1.Perm elements := by
  induction limit generalizing elements with
  | zero => exact .refl _
  | succ limit ih =>
      unfold passes
      split
      · exact pass_perm elements
      · exact (ih (pass elements)).trans (pass_perm elements)

theorem carry_of_carrySwaps_eq_zero {carried : Element} {rest : List Element}
    (still : carrySwaps carried rest = 0) : carry carried rest = carried :: rest := by
  induction rest generalizing carried with
  | nil => rfl
  | cons next rest ih =>
      unfold carrySwaps at still
      unfold carry
      split at still
      · cases still
      · rename_i ascending
        rw [if_neg ascending, ih still]

theorem pass_of_passSwaps_eq_zero {elements : List Element} (still : passSwaps elements = 0) :
    pass elements = elements := by
  cases elements with
  | nil => rfl
  | cons first rest => exact carry_of_carrySwaps_eq_zero still

variable [DecidableLT Element]

theorem standing_congr {seen other : List Element} (same : seen.Perm other) (element : Element) :
    standing seen element = standing other element := by
  simp only [standing, Standing.mk.injEq]
  exact ⟨same.any_eq, same.countP_eq _⟩

theorem standings_congr {seen other : List Element} (same : seen.Perm other)
    (elements : List Element) : standings seen elements = standings other elements := by
  induction elements generalizing seen other with
  | nil => rfl
  | cons element rest ih =>
      rw [standings, standings, standing_congr same, ih (same.cons element)]

theorem standing_tied_iff {seen : List Element} {element : Element} :
    (standing seen element).tied = true ↔
      ∃ earlier ∈ seen, element ≤ earlier ∧ earlier ≤ element := by
  simp [standing]

theorem above_cons (seen : List Element) (earlier element : Element) :
    (standing (earlier :: seen) element).above =
      (standing seen element).above + if element < earlier then 1 else 0 := by
  simp [standing, List.countP_cons]

theorem above_eq_zero_of_le {seen : List Element} {element : Element}
    (greatest : ∀ earlier ∈ seen, earlier ≤ element) : (standing seen element).above = 0 := by
  simp only [standing, List.countP_eq_zero, decide_eq_true_eq]
  intro earlier member
  exact (greatest earlier member).not_gt

theorem tied_cons (seen : List Element) (earlier element : Element) :
    (standing (earlier :: seen) element).tied = true ↔
      (element ≤ earlier ∧ earlier ≤ element) ∨ (standing seen element).tied = true := by
  simp [standing_tied_iff]

theorem above_le (seen : List Element) (element : Element) :
    (standing seen element).above ≤ seen.length :=
  List.countP_le_length

theorem above_lt {seen elements : List Element} {standing : Standing}
    (member : standing ∈ standings seen elements) :
    standing.above < seen.length + elements.length := by
  induction elements generalizing seen with
  | nil => cases member
  | cons element rest ih =>
      rcases List.mem_cons.mp member with rfl | later
      · have bound := above_le seen element
        simp only [List.length_cons]
        omega
      · have bound := ih later
        simp only [List.length_cons] at bound ⊢
        omega

/-!
## One pass
-/

theorem standing_swap_lt (seen : List Element) {carried element : Element}
    (below : element < carried) :
    standing seen element = (standing (carried :: seen) element).next ∧
      standing (element :: seen) carried = standing seen carried := by
  have apart : ¬ carried ≤ element := below.not_ge
  simp [standing, Standing.next, below, below.not_gt, apart]

theorem standing_swap_tied {seen : List Element} {carried element : Element}
    (greatest : ∀ earlier ∈ seen, earlier ≤ carried)
    (below : element ≤ carried) (above : carried ≤ element) :
    standing seen element = standing seen carried ∧
      standing (element :: seen) carried = (standing (carried :: seen) element).next := by
  have first : (standing seen element).above = 0 :=
    above_eq_zero_of_le fun earlier member => (greatest earlier member).trans above
  have second : (standing seen carried).above = 0 := above_eq_zero_of_le greatest
  have same : (standing seen element).tied = (standing seen carried).tied := by
    rw [Bool.eq_iff_iff, standing_tied_iff, standing_tied_iff]
    constructor
    · rintro ⟨earlier, member, low, high⟩
      exact ⟨earlier, member, above.trans low, high.trans below⟩
    · rintro ⟨earlier, member, low, high⟩
      exact ⟨earlier, member, below.trans low, high.trans above⟩
  have left : (standing (element :: seen) carried).tied = true :=
    (tied_cons ..).mpr (.inl ⟨above, below⟩)
  have right : (standing (carried :: seen) element).tied = true :=
    (tied_cons ..).mpr (.inl ⟨below, above⟩)
  refine ⟨Standing.ext same (first.trans second.symm), Standing.ext (left.trans right.symm) ?_⟩
  simp [Standing.next, above_cons, first, second, below.not_gt, above.not_gt]

omit [DecidableLE Element] [DecidableLT Element] in
theorem greatest_cons {seen : List Element} {carried element : Element}
    (greatest : ∀ earlier ∈ seen, earlier ≤ carried) (beyond : carried < element) :
    ∀ earlier ∈ carried :: seen, earlier ≤ element :=
  List.forall_mem_cons.mpr
    ⟨beyond.le, fun earlier member => (greatest earlier member).trans beyond.le⟩

theorem standing_no_swap {seen : List Element} {carried element : Element}
    (greatest : ∀ earlier ∈ seen, earlier ≤ carried) (beyond : carried < element) :
    (standing (carried :: seen) element).next = standing (carried :: seen) element := by
  have none : (standing (carried :: seen) element).above = 0 :=
    above_eq_zero_of_le (greatest_cons greatest beyond)
  exact Standing.ext rfl (by simp [Standing.next, none])

section Total

variable [@Std.Total Element (· ≤ ·)]

omit [DecidableLE Element] [DecidableLT Element] in
theorem lt_of_not_le {left right : Element} (refuted : ¬ right ≤ left) : left < right :=
  lt_of_le_not_ge ((Std.Total.total left right).resolve_right refuted) refuted

theorem standings_carry {seen : List Element} {carried : Element} (rest : List Element)
    (greatest : ∀ earlier ∈ seen, earlier ≤ carried) :
    (standings seen (carry carried rest)).Perm
      (standing seen carried :: (standings (carried :: seen) rest).map Standing.next) := by
  induction rest generalizing seen carried with
  | nil => exact .refl _
  | cons element rest ih =>
      unfold carry
      split
      · rename_i below
        have passed : ∀ earlier ∈ element :: seen, earlier ≤ carried :=
          List.forall_mem_cons.mpr ⟨below, greatest⟩
        have later : standings (element :: carried :: seen) rest =
            standings (carried :: element :: seen) rest :=
          standings_congr (.swap carried element seen) rest
        have tail := ih passed
        simp only [standings, List.map_cons, later]
        by_cases above : carried ≤ element
        · obtain ⟨front, back⟩ := standing_swap_tied greatest below above
          rw [front, ← back]
          exact tail.cons _
        · obtain ⟨front, back⟩ := standing_swap_lt seen (lt_of_not_le above)
          rw [← front, ← back]
          exact (tail.cons _).trans (.swap _ _ _)
      · rename_i refuted
        have beyond := lt_of_not_le refuted
        have passed := greatest_cons greatest beyond
        simp only [standings, List.map_cons]
        rw [standing_no_swap greatest beyond]
        exact (ih passed).cons _

theorem standings_pass (elements : List Element) :
    (standings [] (pass elements)).Perm ((standings [] elements).map Standing.next) := by
  cases elements with
  | nil => exact .refl _
  | cons first rest => exact standings_carry rest (by simp)

theorem carrySwaps_eq (seen : List Element) {carried : Element} (rest : List Element)
    (greatest : ∀ earlier ∈ seen, earlier ≤ carried) :
    carrySwaps carried rest =
      (standings (carried :: seen) rest).countP fun standing => decide standing.Active := by
  induction rest generalizing seen carried with
  | nil => rfl
  | cons element rest ih =>
      unfold carrySwaps
      rw [standings, List.countP_cons]
      split
      · rename_i below
        have active : (standing (carried :: seen) element).Active := by
          by_cases above : carried ≤ element
          · exact .inl ((tied_cons ..).mpr (.inl ⟨below, above⟩))
          · right
            rw [above_cons, if_pos (lt_of_not_le above)]
            exact Nat.succ_pos _
        rw [ih (element :: seen) (List.forall_mem_cons.mpr ⟨below, greatest⟩),
          if_pos (decide_eq_true active), standings_congr (.swap carried element seen)]
      · rename_i refuted
        have beyond := lt_of_not_le refuted
        have passed := greatest_cons greatest beyond
        have still : ¬ (standing (carried :: seen) element).Active := by
          rintro (tied | above)
          · obtain ⟨earlier, member, low, _⟩ := standing_tied_iff.mp tied
            rcases List.mem_cons.mp member with rfl | member
            · exact refuted low
            · exact refuted (low.trans (greatest earlier member))
          · rw [above_eq_zero_of_le passed] at above
            exact absurd above (Nat.lt_irrefl 0)
        rw [ih (carried :: seen) passed, if_neg (by simpa using still), Nat.add_zero]

theorem passSwaps_eq (elements : List Element) :
    passSwaps elements =
      (standings [] elements).countP fun standing => decide standing.Active := by
  cases elements with
  | nil => rfl
  | cons first rest =>
      have idle : ¬ (standing [] first).Active := by simp [standing, Standing.Active]
      rw [passSwaps, carrySwaps_eq [] rest (by simp), standings, List.countP_cons]
      simp [idle]

theorem passSwaps_eq_zero_iff (elements : List Element) :
    passSwaps elements = 0 ↔ ∀ standing ∈ standings [] elements, ¬ standing.Active := by
  rw [passSwaps_eq, List.countP_eq_zero]
  simp

/-!
## Ascending lists
-/

theorem above_eq_zero_iff {seen : List Element} {element : Element} :
    (standing seen element).above = 0 ↔ ∀ earlier ∈ seen, earlier ≤ element := by
  constructor
  · intro none earlier member
    simp only [standing, List.countP_eq_zero, decide_eq_true_eq] at none
    by_contra refuted
    exact none earlier member (lt_of_not_le refuted)
  · exact above_eq_zero_of_le

theorem not_active_iff {seen : List Element} {element : Element} :
    ¬ (standing seen element).Active ↔ ∀ earlier ∈ seen, earlier < element := by
  simp only [Standing.Active, not_or, Nat.not_lt, Nat.le_zero, above_eq_zero_iff,
    standing_tied_iff, not_exists, not_and]
  constructor
  · rintro ⟨apart, greatest⟩ earlier member
    exact lt_of_le_not_ge (greatest earlier member)
      fun low => apart earlier member low (greatest earlier member)
  · intro beyond
    exact ⟨fun earlier member low => absurd low (beyond earlier member).not_ge,
      fun earlier member => (beyond earlier member).le⟩

omit [@Std.Total Element (· ≤ ·)] in
/-- A condition on the elements before each one is a condition on all pairs. -/
theorem standings_forall_iff {holds : Standing → Prop} {related : Element → Element → Prop}
    (each : ∀ (seen : List Element) (element : Element),
      holds (standing seen element) ↔ ∀ earlier ∈ seen, related earlier element)
    (seen elements : List Element) :
    (∀ standing ∈ standings seen elements, holds standing) ↔
      (∀ element ∈ elements, ∀ earlier ∈ seen, related earlier element) ∧
        elements.Pairwise related := by
  induction elements generalizing seen with
  | nil => simp [standings]
  | cons element rest ih =>
      simp only [standings, List.forall_mem_cons, ih, each, List.pairwise_cons]
      constructor
      · rintro ⟨first, others, ascending⟩
        exact ⟨⟨first, fun later member => (others later member).2⟩,
          fun later member => (others later member).1, ascending⟩
      · rintro ⟨⟨first, others⟩, front, ascending⟩
        exact ⟨first, fun later member => ⟨front later member, others later member⟩, ascending⟩

theorem standings_above_eq_zero_iff (seen elements : List Element) :
    (∀ standing ∈ standings seen elements, standing.above = 0) ↔
      (∀ element ∈ elements, ∀ earlier ∈ seen, earlier ≤ element) ∧
        elements.Pairwise (· ≤ ·) :=
  standings_forall_iff (fun _ _ => above_eq_zero_iff) seen elements

theorem standings_not_active_iff (seen elements : List Element) :
    (∀ standing ∈ standings seen elements, ¬ standing.Active) ↔
      (∀ element ∈ elements, ∀ earlier ∈ seen, earlier < element) ∧
        elements.Pairwise (· < ·) :=
  standings_forall_iff (fun _ _ => not_active_iff) seen elements

/-- A pass without an exchange has met a strictly ascending list. -/
theorem passSwaps_eq_zero_iff_ascending (elements : List Element) :
    passSwaps elements = 0 ↔ elements.Pairwise (· < ·) := by
  rw [passSwaps_eq_zero_iff, standings_not_active_iff]
  simp

/-!
## All passes
-/

theorem passes_ascending {limit : Nat} {elements : List Element}
    (enough : ∀ standing ∈ standings [] elements, standing.above ≤ limit) :
    (passes limit elements).1.Pairwise (· ≤ ·) := by
  induction limit generalizing elements with
  | zero =>
      have settled := (standings_above_eq_zero_iff [] elements).mp
        fun standing member => Nat.le_zero.mp (enough standing member)
      exact settled.2
  | succ limit ih =>
      unfold passes
      split
      · rename_i still
        rw [pass_of_passSwaps_eq_zero still]
        exact ((passSwaps_eq_zero_iff_ascending elements).mp still).imp fun less => less.le
      · apply ih
        intro standing member
        obtain ⟨before, earlier, rfl⟩ := List.mem_map.mp ((standings_pass elements).mem_iff.mp member)
        exact Nat.sub_le_of_le_add (enough before earlier)

theorem passes_swaps (limit : Nat) (elements : List Element) :
    (passes limit elements).2 = ((standings [] elements).map (Standing.moves limit)).sum := by
  induction limit generalizing elements with
  | zero =>
      symm
      apply List.sum_eq_zero
      intro count member
      obtain ⟨standing, _, rfl⟩ := List.mem_map.mp member
      exact standing.moves_zero
  | succ limit ih =>
      unfold passes
      split
      · rename_i still
        symm
        apply List.sum_eq_zero
        intro count member
        obtain ⟨standing, included, rfl⟩ := List.mem_map.mp member
        exact Standing.moves_eq_zero ((passSwaps_eq_zero_iff elements).mp still standing included) _
      · rw [sum_moves_succ, ← passSwaps_eq,
          ← ((standings_pass elements).map (Standing.moves limit)).sum_eq]
        exact congrArg (passSwaps elements + ·) (ih (pass elements))

end Total

end Libpreempt.Sorting
