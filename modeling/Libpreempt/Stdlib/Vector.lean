import Mathlib.Data.List.Basic

/-! `std::vector` with its capacity. Appending to a full vector moves every
element into new storage through the move constructor of the element type. -/

set_option autoImplicit false

namespace Libpreempt.Stdlib

/-- The capacity an implementation allocates for a full vector. -/
structure Growth where
  next : Nat → Nat
  grows : ∀ capacity, capacity < next capacity

def Growth.doubling : Growth where
  next capacity := 2 * capacity + if capacity = 0 then 1 else 0
  grows capacity := by split <;> omega

theorem getElem?_append_singleton {Element : Type} {elements : List Element}
    {last element : Element} {index : Nat}
    (present : (elements ++ [last])[index]? = some element) :
    elements[index]? = some element ∨ index = elements.length ∧ element = last := by
  rcases Nat.lt_or_ge index elements.length with inside | outside
  · rw [List.getElem?_append_left inside] at present
    exact .inl present
  · have bound := (List.getElem?_eq_some_iff.mp present).1
    rw [List.length_append, List.length_singleton] at bound
    have place : index = elements.length := by omega
    rw [place, List.getElem?_concat_length] at present
    exact .inr ⟨place, (Option.some.inj present).symm⟩

structure StdVector (Element : Type) where
  elements : List Element
  capacity : Nat
  fits : elements.length ≤ capacity

namespace StdVector

variable {Element : Type}

def empty : StdVector Element := ⟨[], 0, Nat.le_refl 0⟩

def size (vector : StdVector Element) : Nat := vector.elements.length

def full (vector : StdVector Element) : Bool := vector.size == vector.capacity

/-- `emplace_back`; `relocate` is the move constructor of the element type. -/
def emplaceBack (growth : Growth) (relocate : Element → Element)
    (vector : StdVector Element) (element : Element) : StdVector Element :=
  if room : vector.size < vector.capacity then
    ⟨vector.elements ++ [element], vector.capacity, by
      simpa [size] using Nat.succ_le_of_lt room⟩
  else
    ⟨vector.elements.map relocate ++ [element], growth.next vector.capacity, by
      have bound := growth.grows vector.capacity
      have fits := vector.fits
      simp only [List.length_append, List.length_map, List.length_singleton]
      omega⟩

def back (vector : StdVector Element) : Option Element := vector.elements.getLast?

/-- Overwrite the elements one by one, as a loop over references does. -/
def replace (vector : StdVector Element) (elements : List Element)
    (same : elements.length = vector.elements.length) : StdVector Element :=
  ⟨elements, vector.capacity, same ▸ vector.fits⟩

@[simp] theorem elements_replace (vector : StdVector Element) (elements : List Element)
    (same : elements.length = vector.elements.length) :
    (vector.replace elements same).elements = elements := rfl

theorem full_eq_false_iff (vector : StdVector Element) :
    vector.full = false ↔ vector.size < vector.capacity := by
  have fits : vector.size ≤ vector.capacity := vector.fits
  simp only [full, beq_eq_false_iff_ne]
  omega

theorem elements_emplaceBack_room (growth : Growth) (relocate : Element → Element)
    {vector : StdVector Element} (room : vector.full = false) (element : Element) :
    (vector.emplaceBack growth relocate element).elements = vector.elements ++ [element] := by
  rw [emplaceBack, dif_pos (vector.full_eq_false_iff.mp room)]

theorem elements_emplaceBack_full (growth : Growth) (relocate : Element → Element)
    {vector : StdVector Element} (crowded : vector.full = true) (element : Element) :
    (vector.emplaceBack growth relocate element).elements =
      vector.elements.map relocate ++ [element] := by
  have noRoom : ¬ vector.size < vector.capacity := by
    rw [← full_eq_false_iff, crowded]
    simp
  rw [emplaceBack, dif_neg noRoom]

theorem map_emplaceBack {Observed : Type} (observe : Element → Observed)
    (growth : Growth) {relocate : Element → Element}
    (kept : ∀ element, observe (relocate element) = observe element)
    (vector : StdVector Element) (element : Element) :
    (vector.emplaceBack growth relocate element).elements.map observe =
      vector.elements.map observe ++ [observe element] := by
  cases crowded : vector.full with
  | false => simp [elements_emplaceBack_room growth relocate crowded]
  | true =>
      have same : observe ∘ relocate = observe := funext kept
      simp [elements_emplaceBack_full growth relocate crowded, same]

theorem size_emplaceBack (growth : Growth) (relocate : Element → Element)
    (vector : StdVector Element) (element : Element) :
    (vector.emplaceBack growth relocate element).size = vector.size + 1 := by
  unfold size emplaceBack
  split <;> simp

theorem capacity_emplaceBack (growth : Growth) (relocate : Element → Element)
    (vector : StdVector Element) (element : Element) :
    (vector.emplaceBack growth relocate element).capacity =
      if vector.full then growth.next vector.capacity else vector.capacity := by
  cases crowded : vector.full with
  | false => rw [emplaceBack, dif_pos (vector.full_eq_false_iff.mp crowded), if_neg Bool.false_ne_true]
  | true =>
      have noRoom : ¬ vector.size < vector.capacity := by
        rw [← full_eq_false_iff, crowded]
        simp
      rw [emplaceBack, dif_neg noRoom, if_pos rfl]

theorem getLast?_emplaceBack (growth : Growth) (relocate : Element → Element)
    (vector : StdVector Element) (element : Element) :
    (vector.emplaceBack growth relocate element).back = some element := by
  unfold back emplaceBack
  split <;> simp

end StdVector

end Libpreempt.Stdlib
