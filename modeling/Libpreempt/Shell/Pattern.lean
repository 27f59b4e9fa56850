import Mathlib.Data.List.Infix

/-! Patterns of the shell: `*`, bracket expressions, and characters that stand
for themselves. -/

set_option autoImplicit false

namespace Libpreempt.Shell

inductive Item where
  | char (c : Char)
  | bracket (ranges : List (Char × Char))
  | star
deriving DecidableEq, Repr

abbrev Pattern := List Item

def Pattern.accepts : Pattern → List Char → Bool
  | [], text => text.isEmpty
  | .star :: rest, text => text.tails.any fun tail => accepts rest tail
  | .char _ :: _, [] => false
  | .char c :: rest, first :: text => c == first && accepts rest text
  | .bracket _ :: _, [] => false
  | .bracket ranges :: rest, first :: text =>
      (ranges.any fun range => range.1 ≤ first && first ≤ range.2) && accepts rest text

/-- A pattern without special characters. -/
def Pattern.literal (text : List Char) : Pattern := text.map .char

variable {rest : Pattern} {text : List Char}

@[simp] theorem accepts_nil : Pattern.accepts [] text = text.isEmpty := by
  simp [Pattern.accepts]

@[simp] theorem accepts_char_nil (c : Char) : Pattern.accepts (.char c :: rest) [] = false := rfl

@[simp] theorem accepts_char_cons (c first : Char) :
    Pattern.accepts (.char c :: rest) (first :: text) =
      (c == first && Pattern.accepts rest text) := rfl

@[simp] theorem accepts_bracket_nil (ranges : List (Char × Char)) :
    Pattern.accepts (.bracket ranges :: rest) [] = false := rfl

@[simp] theorem accepts_bracket_cons (ranges : List (Char × Char)) (first : Char) :
    Pattern.accepts (.bracket ranges :: rest) (first :: text) =
      ((ranges.any fun range => range.1 ≤ first && first ≤ range.2) &&
        Pattern.accepts rest text) := rfl

theorem accepts_star_iff :
    Pattern.accepts (.star :: rest) text = true ↔
      ∃ tail, tail <:+ text ∧ Pattern.accepts rest tail = true := by
  simp [Pattern.accepts, List.mem_tails]

@[simp] theorem accepts_star : Pattern.accepts [.star] text = true :=
  accepts_star_iff.mpr ⟨[], List.nil_suffix, rfl⟩

theorem accepts_literal_append_iff (stem : List Char) :
    Pattern.accepts (Pattern.literal stem ++ rest) text = true ↔
      ∃ tail, text = stem ++ tail ∧ Pattern.accepts rest tail = true := by
  induction stem generalizing text with
  | nil => simp [Pattern.literal]
  | cons c stem ih =>
      cases text with
      | nil => simp [Pattern.literal]
      | cons first text =>
          have inner : Pattern.accepts (List.map Item.char stem ++ rest) text = true ↔ _ := ih
          simp only [Pattern.literal, List.map_cons, List.cons_append, accepts_char_cons,
            Bool.and_eq_true, beq_iff_eq, inner, List.cons.injEq]
          constructor
          · rintro ⟨rfl, tail, rfl, accepted⟩
            exact ⟨tail, ⟨rfl, rfl⟩, accepted⟩
          · rintro ⟨tail, ⟨rfl, rfl⟩, accepted⟩
            exact ⟨rfl, tail, rfl, accepted⟩

/-- A stem and `*` accept the texts that begin with the stem. -/
theorem accepts_prefix_iff (stem : List Char) :
    Pattern.accepts (Pattern.literal stem ++ [.star]) text = true ↔ stem <+: text := by
  rw [accepts_literal_append_iff]
  constructor
  · intro accepted
    obtain ⟨tail, rfl, _⟩ := accepted
    exact List.prefix_append ..
  · intro begins
    obtain ⟨tail, rfl⟩ := begins
    exact ⟨tail, rfl, accepts_star⟩

/-- `*` and an ending accept the texts that end so. -/
theorem accepts_suffix_iff (ending : List Char) :
    Pattern.accepts (.star :: Pattern.literal ending) text = true ↔ ending <:+ text := by
  have whole (tail : List Char) :
      Pattern.accepts (Pattern.literal ending) tail = true ↔ tail = ending := by
    have split : Pattern.accepts (Pattern.literal ending ++ []) tail = true ↔ _ :=
      accepts_literal_append_iff ending
    simpa using split
  simp only [accepts_star_iff, whole]
  constructor
  · intro accepted
    obtain ⟨tail, suffix, rfl⟩ := accepted
    exact suffix
  · exact fun suffix => ⟨ending, suffix, rfl⟩

end Libpreempt.Shell
