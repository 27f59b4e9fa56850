import Mathlib.Data.List.AList
import Mathlib.Data.List.Induction

/-! Assignments to the elements of an associative array, one after the other. -/

set_option autoImplicit false

namespace Libpreempt.Shell

variable {Key Value : Type} [DecidableEq Key]

abbrev AssociativeArray (Key Value : Type) := AList fun _ : Key => Value

namespace AssociativeArray

def assign (array : AssociativeArray Key Value) (assignments : List (Key × Value)) :
    AssociativeArray Key Value :=
  assignments.foldl (fun array assignment => array.insert assignment.1 assignment.2) array

theorem lookup_assign_of_notMem {assignments : List (Key × Value)} {key : Key}
    (absent : key ∉ assignments.map Prod.fst) (array : AssociativeArray Key Value) :
    (array.assign assignments).lookup key = array.lookup key := by
  induction assignments generalizing array with
  | nil => rfl
  | cons assignment assignments ih =>
      obtain ⟨different, later⟩ : key ≠ assignment.1 ∧ key ∉ assignments.map Prod.fst := by
        simpa using absent
      exact (ih later _).trans (AList.lookup_insert_ne different)

/-- An element that is assigned has one of the values assigned to it. -/
theorem mem_of_lookup_assign {assignments : List (Key × Value)} {key : Key} {value : Value}
    {array : AssociativeArray Key Value}
    (found : (array.assign assignments).lookup key = some value) :
    (key, value) ∈ assignments ∨ array.lookup key = some value := by
  induction assignments generalizing array with
  | nil => exact .inr found
  | cons assignment assignments ih =>
      rcases ih found with later | first
      · exact .inl (List.mem_cons_of_mem _ later)
      · by_cases same : key = assignment.1
        · rw [same, AList.lookup_insert, Option.some_inj] at first
          left
          rw [same, ← first]
          exact List.mem_cons_self
        · rw [AList.lookup_insert_ne same] at first
          exact .inr first

/-- A key may come again with the same value. -/
theorem lookup_assign {assignments : List (Key × Value)}
    (consistent : ∀ left ∈ assignments, ∀ right ∈ assignments, left.1 = right.1 →
      left.2 = right.2) {key : Key} {value : Value} (member : (key, value) ∈ assignments)
    (array : AssociativeArray Key Value) :
    (array.assign assignments).lookup key = some value := by
  induction assignments generalizing array with
  | nil => cases member
  | cons assignment assignments ih =>
      have rest := ih fun left inLeft right inRight => consistent left
        (List.mem_cons_of_mem _ inLeft) right (List.mem_cons_of_mem _ inRight)
      by_cases again : key ∈ assignments.map Prod.fst
      · obtain ⟨⟨other, last⟩, later, rfl⟩ := List.mem_map.mp again
        have same : last = value :=
          consistent _ (List.mem_cons_of_mem _ later) _ member rfl
        exact rest (same ▸ later) _
      · rcases List.mem_cons.mp member with rfl | later
        · exact (lookup_assign_of_notMem again _).trans (AList.lookup_insert array)
        · exact absurd (List.mem_map_of_mem later) again

/-- Where the key of an item is its own, the elements are those of the items, each once. -/
theorem exists_order_assign {Item : Type} {items : List Item} {key : Item → Key}
    {value : Item → Value} (injective : ∀ left ∈ items, ∀ right ∈ items,
      key left = key right → left = right) :
    ∃ order : List Item, order.Nodup ∧ (∀ item, item ∈ order ↔ item ∈ items) ∧
      (assign ∅ (items.map fun item => (key item, value item))).entries =
        order.map fun item => ⟨key item, value item⟩ := by
  induction items using List.reverseRecOn with
  | nil => exact ⟨[], List.nodup_nil, fun _ => Iff.rfl, rfl⟩
  | append_singleton items last ih =>
      obtain ⟨order, _, members, entries⟩ := ih fun left inLeft right inRight =>
        injective left (List.mem_append_left _ inLeft) right (List.mem_append_left _ inRight)
      let next := last :: order.eraseP fun item => decide (key last = key item)
      -- an element that `last` replaces comes to the front
      have inserted : (assign ∅ ((items ++ [last]).map fun item => (key item, value item))).entries =
          next.map fun item => ⟨key item, value item⟩ := by
        rw [List.map_append, assign, List.foldl_append]
        change List.kinsert _ _ (assign _ _).entries = _
        rw [entries, List.kinsert, List.kerase, List.eraseP_map]
        rfl
      have distinct : next.Nodup := by
        have keys := (assign ∅ ((items ++ [last]).map fun item => (key item, value item))).nodupKeys
        rw [inserted, List.NodupKeys, List.keys, List.map_map] at keys
        exact keys.of_map
      refine ⟨next, distinct, fun item => ?_, inserted⟩
      rw [List.mem_cons, List.mem_append, List.mem_singleton, or_comm]
      refine or_congr_left' fun other => ?_
      rw [← members item]
      constructor
      · exact List.mem_of_mem_eraseP
      · intro earlier
        refine (List.mem_eraseP_of_neg ?_).mpr earlier
        intro same
        exact other (injective last (by simp) item (List.mem_append_left _ ((members item).mp earlier))
          (of_decide_eq_true same)).symm

end AssociativeArray

end Libpreempt.Shell
