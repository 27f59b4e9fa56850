import Mathlib.Algebra.Group.Nat.Defs
import Libpreempt.Base.String

/-! `is_quoted` and `unquote` of `base/string.h`. One character may serve as
both quotes, and then two characters are taken from a length of one. -/

set_option autoImplicit false

namespace Libpreempt.Base

def isQuoted (str : StdString) (front back : Char) : Bool :=
  if str.isEmpty then false
  else decide (str.head? = some front) && decide (str.getLast? = some back)

/-- `size - count` in `size_t`. -/
def sizeSub (size count : Nat) : Nat :=
  if size < count then size + 2 ^ 64 - count else size - count

def unquote (str : StdString) (front back : Char) : Except OutOfRange StdString :=
  if isQuoted str front back then substr str 1 (some (sizeSub str.length 2))
  else .ok str

def quote (front : Char) (body : StdString) (back : Char) : StdString :=
  front :: (body ++ [back])

/-- What is quoted is a body between the quotes, which `unquote` returns; it
leaves everything else alone. -/
structure QuotingLaw (str : StdString) (front back : Char) : Prop where
  quoted : isQuoted str front back = true ↔ ∃ body, str = quote front body back
  stripped : ∀ body, str = quote front body back → unquote str front back = .ok body
  unchanged : (¬ ∃ body, str = quote front body back) → unquote str front back = .ok str
  fits : isQuoted str front back = true → 2 ≤ str.length

/-- The string is one character, which is both quotes. -/
def SharedQuote (str : StdString) (front back : Char) : Prop := str = [front] ∧ front = back

theorem quote_cases (str : StdString) :
    str.length ≤ 1 ∨ ∃ first body last, str = quote first body last := by
  cases str with
  | nil => exact .inl (Nat.zero_le _)
  | cons first rest =>
      rcases List.eq_nil_or_concat rest with rfl | ⟨body, last, rfl⟩
      · exact .inl (Nat.le_refl _)
      · exact .inr ⟨first, body, last, by rw [quote, List.concat_eq_append]⟩

theorem length_quote (front : Char) (body : StdString) (back : Char) :
    (quote front body back).length = body.length + 2 := by
  simp [quote]

theorem quote_inj {front back first last : Char} {body inner : StdString} :
    quote first inner last = quote front body back ↔
      first = front ∧ inner = body ∧ last = back := by
  simp [quote]

theorem isQuoted_quote {first last front back : Char} {inner : StdString} :
    isQuoted (quote first inner last) front back = true ↔ first = front ∧ last = back := by
  have final : (quote first inner last).getLast? = some last := by
    rw [quote, ← List.cons_append, List.getLast?_concat]
  rw [isQuoted, final]
  simp [quote]

theorem unquote_quote (front : Char) (body : StdString) (back : Char) :
    unquote (quote front body back) front back = .ok body := by
  have size := length_quote front body back
  rw [unquote, if_pos (isQuoted_quote.mpr ⟨rfl, rfl⟩), substr, if_neg (by omega), sizeSub,
    if_neg (by omega), size]
  simp [quote]

theorem unquote_of_not_isQuoted {str : StdString} {front back : Char}
    (bare : ¬ isQuoted str front back = true) : unquote str front back = .ok str :=
  if_neg bare

theorem quotingLaw_quote (first : Char) (inner : StdString) (last front back : Char) :
    QuotingLaw (quote first inner last) front back where
  quoted := by
    rw [isQuoted_quote]
    constructor
    · rintro ⟨rfl, rfl⟩
      exact ⟨inner, rfl⟩
    · rintro ⟨body, same⟩
      obtain ⟨front, -, back⟩ := quote_inj.mp same
      exact ⟨front, back⟩
  stripped := by
    intro body same
    obtain ⟨rfl, rfl, rfl⟩ := quote_inj.mp same
    exact unquote_quote ..
  unchanged := by
    intro unquoted
    apply unquote_of_not_isQuoted
    intro quoted
    obtain ⟨rfl, rfl⟩ := isQuoted_quote.mp quoted
    exact unquoted ⟨inner, rfl⟩
  fits _ := by
    rw [length_quote]
    omega

/-- A string too short for two quotes is unquoted unless they share its only
character. -/
theorem isQuoted_short {str : StdString} {front back : Char} (short : str.length ≤ 1) :
    isQuoted str front back = true ↔ SharedQuote str front back := by
  match str with
  | [] => simp [isQuoted, SharedQuote]
  | [only] =>
      simp only [isQuoted, SharedQuote, List.isEmpty_cons, Bool.false_eq_true, if_false,
        List.head?_cons, List.getLast?_singleton, Option.some.injEq, Bool.and_eq_true,
        decide_eq_true_eq, List.cons.injEq, and_true]
      constructor
      · rintro ⟨rfl, same⟩
        exact ⟨rfl, same⟩
      · rintro ⟨rfl, same⟩
        exact ⟨rfl, same⟩
  | _ :: _ :: _ => simp at short

theorem quoting_law_iff (str : StdString) (front back : Char) :
    QuotingLaw str front back ↔ ¬ SharedQuote str front back := by
  rcases quote_cases str with short | ⟨first, inner, last, rfl⟩
  · have none : ¬ ∃ body, str = quote front body back := by
      rintro ⟨body, rfl⟩
      rw [length_quote] at short
      omega
    constructor
    · intro law shared
      exact none (law.quoted.mp ((isQuoted_short short).mpr shared))
    · intro apart
      have bare : ¬ isQuoted str front back = true := fun quoted =>
        apart ((isQuoted_short short).mp quoted)
      exact ⟨iff_of_false bare none, fun body same => absurd ⟨body, same⟩ none,
        fun _ => unquote_of_not_isQuoted bare, fun quoted => absurd quoted bare⟩
  · constructor
    · rintro _ ⟨single, _⟩
      have size := congrArg List.length single
      rw [length_quote] at size
      exact absurd size (by simp)
    · exact fun _ => quotingLaw_quote ..

/-- A single quote character passes for a quoted string, and is lost. -/
theorem quoting_law_single :
    isQuoted ['"'] '"' '"' = true ∧ (¬ ∃ body, ['"'] = quote '"' body '"') ∧
      unquote ['"'] '"' '"' = .ok [] := by
  refine ⟨by decide, ?_, by rfl⟩
  rintro ⟨body, same⟩
  have size := congrArg List.length same
  rw [length_quote] at size
  exact absurd size (by simp)

end Libpreempt.Base
