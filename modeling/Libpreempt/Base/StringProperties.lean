import Libpreempt.Base.String
import Mathlib.Data.List.TakeDrop

/-! What `split` returns, in terms of the pieces between separators, and what
is left of a vector after `join` and `split`. -/

set_option autoImplicit false

namespace Libpreempt.Base

/-!
## The scan of `split`
-/

theorem find_eq_none_iff {str : StdString} {sep : Char} {pos : Nat} :
    find str sep pos = none ↔ sep ∉ str.drop pos := by
  simp only [find, Option.map_eq_none_iff, List.findIdx?_eq_none_iff, beq_eq_false_iff_ne]
  constructor
  · intro absent member
    exact absent sep member rfl
  · intro absent character member same
    exact absent (same ▸ member)

theorem drop_eq_of_find {str : StdString} {sep : Char} {pos stop : Nat}
    (found : find str sep pos = some stop) :
    str.drop pos = (str.drop pos).take (stop - pos) ++ sep :: str.drop (stop + 1) ∧
      sep ∉ (str.drop pos).take (stop - pos) := by
  obtain ⟨offset, located, rfl⟩ := Option.map_eq_some_iff.mp found
  obtain ⟨bound, here, before⟩ := List.findIdx?_eq_some_iff_getElem.mp located
  have same : (str.drop pos)[offset] = sep := by simpa using here
  rw [Nat.add_sub_cancel_left]
  constructor
  · calc str.drop pos
        = (str.drop pos).take offset ++ (str.drop pos).drop offset :=
          (List.take_append_drop offset _).symm
      _ = (str.drop pos).take offset ++ sep :: str.drop (pos + offset + 1) := by
          rw [List.drop_eq_getElem_cons bound, same, List.drop_drop, Nat.add_assoc]
  · intro member
    obtain ⟨index, small, here⟩ := List.mem_take_iff_getElem.mp member
    have different := before index (by omega)
    exact different (by simpa using here)

/-- The tokens of `split`: the empty pieces are skipped, except for the last. -/
def tokens (str : StdString) (sep : Char) : List StdString :=
  (str.splitOn sep).dropLast.filter (· ≠ []) ++ (str.splitOn sep).getLast?.toList

theorem tokens_of_notMem {str : StdString} {sep : Char} (absent : sep ∉ str) :
    tokens str sep = [str] := by
  simp [tokens, List.splitOn_eq_singleton absent]

theorem tokens_append_sep {piece : StdString} {sep : Char} (absent : sep ∉ piece)
    (rest : StdString) :
    tokens (piece ++ sep :: rest) sep =
      (if piece = [] then [] else [piece]) ++ tokens rest sep := by
  have pieces : (piece ++ sep :: rest).splitOn sep = piece :: rest.splitOn sep :=
    List.splitOn_append_cons_self_of_not_mem absent rest
  obtain ⟨first, others, shape⟩ := List.exists_cons_of_ne_nil (List.splitOn_ne_nil sep rest)
  rw [tokens, tokens, pieces, shape]
  by_cases bare : piece = [] <;> simp [bare]

theorem splitLoop_eq (str : StdString) (sep : Char) (pos : Nat) (result : List StdString)
    (bound : pos ≤ str.length) :
    splitLoop str sep pos result = .ok (result ++ tokens (str.drop pos) sep) := by
  have inside : ¬ str.length < pos := Nat.not_lt.mpr bound
  rw [splitLoop]
  split
  · rename_i stop found
    obtain ⟨low, high⟩ := find_bounds found
    obtain ⟨shape, absent⟩ := drop_eq_of_find found
    have split := tokens_append_sep absent (str.drop (stop + 1))
    rw [← shape] at split
    by_cases same : stop = pos
    · subst same
      simp only [ne_eq, not_true_eq_false, ↓reduceIte]
      rw [splitLoop_eq str sep (stop + 1) result high, split]
      simp
    · have piece : (str.drop pos).take (stop - pos) ≠ [] := by
        simp only [ne_eq, List.take_eq_nil_iff, List.drop_eq_nil_iff]
        omega
      simp only [substr, inside, if_false, same, ne_eq, not_false_eq_true, if_true]
      rw [splitLoop_eq str sep (stop + 1) _ high, split, if_neg piece]
      simp
  · rename_i absent
    rw [tokens_of_notMem (find_eq_none_iff.mp absent)]
    simp [substr, inside]
termination_by str.length - pos

theorem split_eq (str : StdString) (sep : Char) : split str sep = .ok (tokens str sep) := by
  simpa [split] using splitLoop_eq str sep 0 [] (Nat.zero_le _)

/-!
## The separator of `join`
-/

theorem joinLoop_eq (sep : Char) (v : List StdString) (text : StdString) :
    joinLoop sep v text = text ++ v.flatten ++ if v = [] then [] else [sep] := by
  induction v generalizing text with
  | nil => simp [joinLoop]
  | cons element rest ih =>
      rw [joinLoop, ih]
      cases rest <;> simp

theorem join_eq (v : List StdString) (sep : Char) :
    join v sep = v.flatten ++ if v = [] then [] else [sep] := by
  rw [join, joinLoop_eq, List.nil_append]

/-- No vector of the round trip comes back: an empty token is added, and the
elements were run together. -/
theorem split_join_ne (v : List StdString) (sep : Char)
    (nonempty : ∀ element ∈ v, element ≠ []) (free : ∀ element ∈ v, sep ∉ element) :
    split (join v sep) sep ≠ .ok v := by
  intro returned
  rw [split_eq, Except.ok.injEq, join_eq] at returned
  have absent : sep ∉ v.flatten := by
    intro member
    obtain ⟨element, included, inside⟩ := List.mem_flatten.mp member
    exact free element included inside
  have empty : [] ∈ v := by
    rw [← returned]
    by_cases bare : v = []
    · simp [bare, tokens_of_notMem]
    · rw [if_neg bare, tokens_append_sep absent, tokens_of_notMem List.not_mem_nil]
      exact List.mem_append_right _ (List.mem_singleton.mpr rfl)
  exact nonempty [] empty rfl

theorem split_join_ne_words :
    split (join ["ab".toList, "c".toList] ' ') ' ' ≠ .ok ["ab".toList, "c".toList] :=
  split_join_ne ["ab".toList, "c".toList] ' ' (by decide) (by decide)

/-- The text is `"abc "`, and its tokens are `"abc"` and the empty string. -/
theorem split_join_words :
    ¬ ∀ (v : List StdString) (sep : Char), (∀ element ∈ v, element ≠ []) →
      (∀ element ∈ v, sep ∉ element) → split (join v sep) sep = .ok v := by
  intro roundTrip
  have returned := roundTrip ["ab".toList, "c".toList] ' ' (by decide) (by decide)
  rw [split_eq] at returned
  exact absurd returned (by decide)

end Libpreempt.Base
