import Libpreempt.Base.StringProperties
import Libpreempt.Sequence.Fields

/-! The tokens of `split` are the fields of the string, except for an empty last
one: what stands behind the last separator is pushed without a look at it. -/

set_option autoImplicit false

namespace Libpreempt.Base

open Libpreempt.Sequence

/-- The string ends in a field: behind its last separator stands something. -/
def EndsInField (str : StdString) (sep : Char) : Prop :=
  ∃ last, str.getLast? = some last ∧ last ≠ sep

theorem filter_piece (piece : StdString) :
    (if piece = [] then [] else [piece]).filter (· ≠ []) = [piece].filter (· ≠ []) := by
  by_cases bare : piece = []
  · simp [bare]
  · simp [bare]

theorem filter_tokens (str : StdString) (sep : Char) :
    (tokens str sep).filter (· ≠ []) = (str.splitOn sep).filter (· ≠ []) := by
  induction str using fields_induction sep with
  | last piece absent => rw [tokens_of_notMem absent, List.splitOn_eq_singleton absent]
  | next piece rest absent ih =>
      rw [tokens_append_sep absent, List.splitOn_append_cons_self_of_not_mem absent,
        List.filter_append, ih, filter_piece, ← List.filter_append]
      rfl

theorem flatten_tokens (str : StdString) (sep : Char) :
    (tokens str sep).flatten = str.filter (· ≠ sep) := by
  rw [← flatten_splitOn]
  induction str using fields_induction sep with
  | last piece absent => rw [tokens_of_notMem absent, List.splitOn_eq_singleton absent]
  | next piece rest absent ih =>
      rw [tokens_append_sep absent, List.splitOn_append_cons_self_of_not_mem absent,
        List.flatten_append, ih, List.flatten_cons]
      by_cases bare : piece = []
      · simp [bare]
      · simp [bare]

theorem nil_notMem_tokens_iff (str : StdString) (sep : Char) :
    [] ∉ tokens str sep ↔ EndsInField str sep := by
  induction str using fields_induction sep with
  | last piece absent =>
      rw [tokens_of_notMem absent, List.mem_singleton, EndsInField]
      constructor
      · intro some
        have present : piece ≠ [] := fun bare => some bare.symm
        exact ⟨piece.getLast present, List.getLast?_eq_some_getLast present,
          fun same => absent (same ▸ List.getLast_mem present)⟩
      · rintro ⟨last, found, _⟩ rfl
        cases found
  | next piece rest absent ih =>
      have tail : [] ∉ tokens (piece ++ sep :: rest) sep ↔ [] ∉ tokens rest sep := by
        rw [tokens_append_sep absent, List.mem_append, not_or]
        by_cases bare : piece = []
        · simp [bare]
        · simp [bare, Ne.symm bare]
      rw [tail, ih, EndsInField, EndsInField, List.getLast?_append, List.getLast?_cons]
      cases found : rest.getLast? with
      | none => simp
      | some last => simp

theorem tokens_append (front back : StdString) (sep : Char) :
    tokens (front ++ sep :: back) sep =
      (tokens front sep).filter (· ≠ []) ++ tokens back sep := by
  induction front using fields_induction sep with
  | last piece absent =>
      rw [tokens_append_sep absent, tokens_of_notMem absent, ← filter_piece]
      by_cases bare : piece = []
      · simp [bare]
      · simp [bare]
  | next piece rest absent ih =>
      rw [List.append_assoc, List.cons_append, tokens_append_sep absent, ih,
        tokens_append_sep absent, List.filter_append, List.append_assoc]
      by_cases bare : piece = []
      · simp [bare]
      · simp [bare]

/-- The tokens of the parts put together, when both calls return. -/
def splitBoth (front back : StdString) (sep : Char) : Except OutOfRange (List StdString) :=
  match split front sep, split back sep with
  | .ok first, .ok second => .ok (first ++ second)
  | .error error, _ => .error error
  | _, .error error => .error error

theorem splitBoth_eq (front back : StdString) (sep : Char) :
    splitBoth front back sep = .ok (tokens front sep ++ tokens back sep) := by
  simp [splitBoth, split_eq]

/-- Splitting composes at a cut behind `str`, and `str` gives no empty token,
exactly when `str` ends in a field. -/
theorem split_append_iff (str : StdString) (sep : Char) :
    (∀ back, split (str ++ [sep] ++ back) sep = splitBoth str back sep ↔ EndsInField str sep) ∧
    ((∃ result, split str sep = .ok result ∧ [] ∉ result) ↔ EndsInField str sep) := by
  rw [← nil_notMem_tokens_iff]
  constructor
  · intro back
    rw [splitBoth_eq, split_eq, List.append_assoc, List.singleton_append,
      tokens_append, Except.ok.injEq, List.append_left_inj, List.filter_eq_self]
    constructor
    · intro some bare
      simpa using some [] bare
    · intro some token member
      simpa using fun bare : token = [] => some (bare ▸ member)
  · rw [split_eq]
    constructor
    · rintro ⟨result, returned, some⟩
      cases returned
      exact some
    · exact fun some => ⟨_, rfl, some⟩

/-- `" x"` has one token, but the empty string before the cut has one as well. -/
theorem split_append_empty :
    (¬ ∀ (front back : StdString) (sep : Char),
      split (front ++ [sep] ++ back) sep = splitBoth front back sep) ∧
    ¬ ∀ (str : StdString) (sep : Char) (result : List StdString),
      split str sep = .ok result → [] ∉ result := by
  constructor
  · intro composes
    have same := composes [] ['x'] ' '
    rw [splitBoth_eq, split_eq] at same
    exact absurd same (by decide)
  · intro some
    exact some [] ' ' _ (split_eq [] ' ') (by decide)

/-- `split` returns, and its nonempty tokens are the fields of the string from
left to right; the tokens together are the string without its separators. -/
theorem split_fields (str : StdString) (sep : Char) :
    ∃ result, split str sep = .ok result ∧
      (∃ places : List (Nat × Nat), (places.Pairwise fun left right => left.2 < right.1) ∧
        (∀ start stop, (start, stop) ∈ places ↔ IsField str sep start stop) ∧
        result.filter (· ≠ []) = places.map fun place => slice str place.1 place.2) ∧
      result.flatten = str.filter (· ≠ sep) := by
  refine ⟨tokens str sep, split_eq str sep, ?_, flatten_tokens str sep⟩
  rw [filter_tokens]
  exact exists_fields str sep

end Libpreempt.Base
