import Mathlib.Data.List.Basic

/-! The fields of a list: its longest nonempty parts without a separator. They
are the nonempty pieces of `List.splitOn`, in order. -/

set_option autoImplicit false

namespace Libpreempt.Sequence

variable {Element : Type*}

def slice (elements : List Element) (start stop : Nat) : List Element :=
  (elements.drop start).take (stop - start)

def SeparatorFree (elements : List Element) (sep : Element) (start stop : Nat) : Prop :=
  ∀ index, start ≤ index → index < stop → elements[index]? ≠ some sep

/-- The places from `start` up to `stop` are nonempty, free of separators, and
part of no longer such range. -/
structure IsField (elements : List Element) (sep : Element) (start stop : Nat) : Prop where
  nonempty : start < stop
  inside : stop ≤ elements.length
  free : SeparatorFree elements sep start stop
  longest : ∀ low high, low ≤ start → stop ≤ high → high ≤ elements.length →
    SeparatorFree elements sep low high → low = start ∧ high = stop

/-- A range is a field when it ends at separators or at the ends of the list. -/
theorem isField_iff {elements : List Element} {sep : Element} {start stop : Nat} :
    IsField elements sep start stop ↔
      (start < stop ∧ stop ≤ elements.length ∧ SeparatorFree elements sep start stop) ∧
        (start = 0 ∨ elements[start - 1]? = some sep) ∧
          (stop = elements.length ∨ elements[stop]? = some sep) := by
  constructor
  · intro field
    refine ⟨⟨field.nonempty, field.inside, field.free⟩, ?_, ?_⟩
    · by_contra open'
      rw [not_or] at open'
      have longer : SeparatorFree elements sep (start - 1) stop := by
        intro index low high
        by_cases first : index = start - 1
        · exact first ▸ open'.2
        · exact field.free index (by omega) high
      have same := (field.longest _ _ (Nat.sub_le ..) (Nat.le_refl _) field.inside longer).1
      omega
    · by_contra open'
      rw [not_or] at open'
      have room : stop < elements.length := Nat.lt_of_le_of_ne field.inside open'.1
      have longer : SeparatorFree elements sep start (stop + 1) := by
        intro index low high
        by_cases last : index = stop
        · exact last ▸ open'.2
        · exact field.free index low (by omega)
      have same := (field.longest _ _ (Nat.le_refl _) (Nat.le_succ _) room longer).2
      omega
  · rintro ⟨⟨nonempty, inside, free⟩, left, right⟩
    refine ⟨nonempty, inside, free, ?_⟩
    intro low high before after bound longer
    constructor
    · by_contra different
      rcases left with start | separator
      · omega
      · exact longer (start - 1) (by omega) (by omega) separator
    · by_contra different
      rcases right with stop | separator
      · omega
      · exact longer stop (by omega) (by omega) separator

/-- A list has no separator, or a piece without one stands before the first. -/
theorem fields_induction [DecidableEq Element] (sep : Element) {motive : List Element → Prop}
    (last : ∀ piece, sep ∉ piece → motive piece)
    (next : ∀ piece rest, sep ∉ piece → motive rest → motive (piece ++ sep :: rest))
    (elements : List Element) : motive elements := by
  by_cases member : sep ∈ elements
  · obtain ⟨piece, rest, shape, absent⟩ := List.eq_append_cons_of_mem member
    rw [shape]
    exact next piece rest absent (fields_induction sep last next rest)
  · exact last elements member
termination_by elements.length
decreasing_by
  rw [shape, List.length_append, List.length_cons]
  omega

/-!
## The places of the pieces
-/

/-- Where the nonempty pieces stand if the first one begins at `start`. -/
def spans (start : Nat) : List (List Element) → List (Nat × Nat)
  | [] => []
  | piece :: rest =>
      (if piece = [] then [] else [(start, start + piece.length)]) ++
        spans (start + piece.length + 1) rest

theorem isField_of_notMem {piece : List Element} {sep : Element} (absent : sep ∉ piece)
    {start stop : Nat} :
    IsField piece sep start stop ↔ piece ≠ [] ∧ start = 0 ∧ stop = piece.length := by
  have never : ∀ index, piece[index]? ≠ some sep :=
    fun index found => absent (List.mem_of_getElem? found)
  rw [isField_iff]
  constructor
  · rintro ⟨⟨nonempty, inside, _⟩, left, right⟩
    have first := left.resolve_right (never _)
    have last := right.resolve_right (never _)
    refine ⟨?_, first, last⟩
    rintro rfl
    simp at last
    omega
  · rintro ⟨some, rfl, rfl⟩
    exact ⟨⟨List.length_pos_iff.mpr some, Nat.le_refl _, fun index _ _ => never index⟩,
      .inl rfl, .inl rfl⟩

theorem getElem?_piece {piece rest : List Element} {sep : Element} (absent : sep ∉ piece)
    (index : Nat) :
    (piece ++ sep :: rest)[index]? = some sep ↔
      index = piece.length ∨
        ∃ later, index = piece.length + 1 + later ∧ rest[later]? = some sep := by
  by_cases before : index < piece.length
  · rw [List.getElem?_append_left before]
    constructor
    · exact fun found => absurd (List.mem_of_getElem? found) absent
    · rintro (same | ⟨later, same, _⟩)
      · omega
      · omega
  · obtain ⟨offset, rfl⟩ := Nat.exists_eq_add_of_le (Nat.not_lt.mp before)
    rw [List.getElem?_append_right (Nat.le_add_right ..), Nat.add_sub_cancel_left]
    cases offset with
    | zero => simp
    | succ offset =>
        rw [List.getElem?_cons_succ]
        constructor
        · exact fun found => .inr ⟨offset, by omega, found⟩
        · rintro (same | ⟨later, same, found⟩)
          · omega
          · obtain rfl : offset = later := by omega
            exact found

theorem isField_append {piece rest : List Element} {sep : Element} (absent : sep ∉ piece)
    {start stop : Nat} :
    IsField (piece ++ sep :: rest) sep start stop ↔
      (piece ≠ [] ∧ start = 0 ∧ stop = piece.length) ∨
        ∃ low high, IsField rest sep low high ∧
          start = piece.length + 1 + low ∧ stop = piece.length + 1 + high := by
  have length : (piece ++ sep :: rest).length = piece.length + 1 + rest.length := by
    rw [List.length_append, List.length_cons]
    omega
  simp only [isField_iff, SeparatorFree, ne_eq, getElem?_piece absent, length]
  constructor
  · rintro ⟨⟨nonempty, inside, free⟩, left, right⟩
    by_cases early : start ≤ piece.length
    · have ends : stop ≤ piece.length := by
        by_contra beyond
        exact free piece.length early (by omega) (.inl rfl)
      left
      rcases left with rfl | separator | ⟨later, place, _⟩
      · refine ⟨List.length_pos_iff.mp (by omega), rfl, ?_⟩
        rcases right with last | same | ⟨later, place, _⟩
        · omega
        · exact same
        · omega
      · omega
      · omega
    · right
      refine ⟨start - (piece.length + 1), stop - (piece.length + 1),
        ⟨⟨by omega, by omega, ?_⟩, ?_, ?_⟩, by omega, by omega⟩
      · intro index low high found
        exact free (piece.length + 1 + index) (by omega) (by omega) (.inr ⟨index, rfl, found⟩)
      · rcases left with first | separator | ⟨later, place, found⟩
        · omega
        · left
          omega
        · right
          obtain rfl : later = start - (piece.length + 1) - 1 := by omega
          exact found
      · rcases right with last | separator | ⟨later, place, found⟩
        · left
          omega
        · omega
        · right
          obtain rfl : later = stop - (piece.length + 1) := by omega
          exact found
  · rintro (⟨some, rfl, rfl⟩ | ⟨low, high, ⟨⟨nonempty, inside, free⟩, left, right⟩, rfl, rfl⟩)
    · refine ⟨⟨List.length_pos_iff.mpr some, by omega, ?_⟩, .inl rfl, .inr (.inl rfl)⟩
      rintro index _ inside (same | ⟨later, place, _⟩)
      · omega
      · omega
    · refine ⟨⟨by omega, by omega, ?_⟩, ?_, ?_⟩
      · rintro index from' until' (same | ⟨later, rfl, found⟩)
        · omega
        · exact free later (by omega) (by omega) found
      · right
        by_cases first : low = 0
        · left
          omega
        · right
          exact ⟨low - 1, by omega, left.resolve_left first⟩
      · rcases right with rfl | found
        · exact .inl rfl
        · exact .inr (.inr ⟨high, rfl, found⟩)

theorem mem_spans_iff [DecidableEq Element] (elements : List Element) (sep : Element)
    (offset start stop : Nat) :
    (start, stop) ∈ spans offset (elements.splitOn sep) ↔
      ∃ low high, IsField elements sep low high ∧ start = offset + low ∧ stop = offset + high := by
  induction elements using fields_induction sep generalizing offset with
  | last piece absent =>
      simp only [List.splitOn_eq_singleton absent, spans, isField_of_notMem absent]
      by_cases bare : piece = []
      · simp [bare]
      · simp [bare]
  | next piece rest absent ih =>
      rw [List.splitOn_append_cons_self_of_not_mem absent, spans, List.mem_append, ih]
      simp only [isField_append absent]
      have first : (start, stop) ∈
          (if piece = [] then [] else [(offset, offset + piece.length)]) ↔
            piece ≠ [] ∧ start = offset ∧ stop = offset + piece.length := by
        by_cases bare : piece = []
        · simp [bare]
        · simp [bare]
      rw [first]
      constructor
      · rintro (⟨some, rfl, rfl⟩ | ⟨low, high, field, rfl, rfl⟩)
        · exact ⟨0, piece.length, .inl ⟨some, rfl, rfl⟩, rfl, rfl⟩
        · exact ⟨_, _, .inr ⟨low, high, field, rfl, rfl⟩, by omega, by omega⟩
      · rintro ⟨_, _, ⟨some, rfl, rfl⟩ | ⟨low, high, field, rfl, rfl⟩, rfl, rfl⟩
        · exact .inl ⟨some, rfl, rfl⟩
        · exact .inr ⟨low, high, field, by omega, by omega⟩

theorem spans_bounds {start : Nat} {pieces : List (List Element)} {span : Nat × Nat}
    (member : span ∈ spans start pieces) : start ≤ span.1 := by
  induction pieces generalizing start with
  | nil => cases member
  | cons piece rest ih =>
      rcases List.mem_append.mp member with first | later
      · split at first
        · cases first
        · cases List.mem_singleton.mp first
          exact Nat.le_refl start
      · have bound := ih later
        omega

/-- The places are listed from left to right, with a separator in between. -/
theorem spans_pairwise (start : Nat) (pieces : List (List Element)) :
    (spans start pieces).Pairwise fun left right => left.2 < right.1 := by
  induction pieces generalizing start with
  | nil => exact .nil
  | cons piece rest ih =>
      rw [spans, List.pairwise_append]
      refine ⟨?_, ih _, ?_⟩
      · split
        · exact .nil
        · exact List.pairwise_singleton ..
      · intro left first right later
        have bound := spans_bounds later
        split at first
        · cases first
        · rw [List.mem_singleton.mp first]
          omega

theorem map_slice_piece [DecidableEq Element] {elements piece after : List Element} {offset : Nat}
    (shape : elements.drop offset = piece ++ after) :
    (if piece = [] then [] else [(offset, offset + piece.length)]).map
        (fun span => slice elements span.1 span.2) =
      [piece].filter (· ≠ []) := by
  by_cases bare : piece = []
  · simp [bare]
  · simp [bare, slice, shape]

theorem map_slice_spans [DecidableEq Element] {elements : List Element} (sep : Element)
    (rest : List Element) {offset : Nat} (suffix : elements.drop offset = rest) :
    (spans offset (rest.splitOn sep)).map (fun span => slice elements span.1 span.2) =
      (rest.splitOn sep).filter (· ≠ []) := by
  induction rest using fields_induction sep generalizing offset with
  | last piece absent =>
      rw [List.splitOn_eq_singleton absent, spans, spans, List.append_nil]
      exact map_slice_piece (suffix.trans (List.append_nil piece).symm)
  | next piece rest absent ih =>
      have later : elements.drop (offset + piece.length + 1) = rest := by
        rw [Nat.add_assoc, ← List.drop_drop, suffix]
        simp
      rw [List.splitOn_append_cons_self_of_not_mem absent, spans, List.map_append,
        map_slice_piece suffix, ih later, ← List.filter_append]
      rfl

theorem flatten_splitOn [DecidableEq Element] (elements : List Element) (sep : Element) :
    (elements.splitOn sep).flatten = elements.filter (· ≠ sep) := by
  have kept : ∀ {piece : List Element}, sep ∉ piece → piece.filter (· ≠ sep) = piece := by
    intro piece absent
    rw [List.filter_eq_self]
    intro element member
    simpa using fun same : element = sep => absent (same ▸ member)
  induction elements using fields_induction sep with
  | last piece absent => simpa [List.splitOn_eq_singleton absent] using (kept absent).symm
  | next piece rest absent ih =>
      rw [List.splitOn_append_cons_self_of_not_mem absent, List.flatten_cons, ih,
        List.filter_append, kept absent]
      simp

/-- The nonempty pieces are the fields. -/
theorem exists_fields [DecidableEq Element] (elements : List Element) (sep : Element) :
    ∃ places : List (Nat × Nat), (places.Pairwise fun left right => left.2 < right.1) ∧
      (∀ start stop, (start, stop) ∈ places ↔ IsField elements sep start stop) ∧
      (elements.splitOn sep).filter (· ≠ []) =
        places.map fun place => slice elements place.1 place.2 := by
  refine ⟨spans 0 (elements.splitOn sep), spans_pairwise _ _, ?_, ?_⟩
  · intro start stop
    rw [mem_spans_iff]
    constructor
    · rintro ⟨low, high, field, rfl, rfl⟩
      simpa using field
    · intro field
      exact ⟨start, stop, field, (Nat.zero_add start).symm, (Nat.zero_add stop).symm⟩
  · exact (map_slice_spans sep elements rfl).symm

end Libpreempt.Sequence
