import Libpreempt.TestMatrix.Summary

/-! The patterns on the printed percentage against the totals themselves. -/

set_option autoImplicit false

namespace Libpreempt.TestMatrix

open Libpreempt.Arithmetic Libpreempt.Shell

/-- The texts of a truncated quotient of `thousandths`, times 100. -/
inductive Percent (thousandths : Nat) : List Char → Prop where
  | zero (none : thousandths = 0) : Percent thousandths ['0']
  | fraction (places : List Char) (below : thousandths < 10) : Percent thousandths ('.' :: places)
  | oneDigit (places : List Char) (lower : 10 ≤ thousandths) (below : thousandths < 100) :
      Percent thousandths ((thousandths / 10).digitChar :: '.' :: places)
  | twoDigits (places : List Char) (lower : 100 ≤ thousandths) (below : thousandths < 1000) :
      Percent thousandths
        ((thousandths / 100).digitChar :: (thousandths / 10 % 10).digitChar :: '.' :: places)
  | all (whole : thousandths = 1000) : Percent thousandths ['1', '0', '0', '.', '0', '0', '0']

theorem text_percent {thousandths : Nat} (bound : thousandths ≤ 1000) :
    Percent thousandths (Decimal.text ⟨(thousandths * 100 : Nat), 3⟩) := by
  by_cases below : thousandths < 10
  · by_cases none : thousandths = 0
    · rw [none]
      exact .zero rfl
    · rw [Decimal.text_of_lt (by omega) (by decide) (by omega)]
      exact .fraction _ below
  · rw [Decimal.text_of_le (by decide) (by omega),
      show thousandths * 100 / 10 ^ 3 = thousandths / 10 by omega]
    by_cases one : thousandths < 100
    · rw [Nat.toDigits_of_lt_base (by omega)]
      exact .oneDigit _ (by omega) one
    · by_cases two : thousandths < 1000
      · rw [Decimal.toDigits_two (by omega) (by omega), Nat.div_div_eq_div_mul]
        exact .twoDigits _ (by omega) two
      · obtain rfl : thousandths = 1000 := by omega
        exact .all rfl

theorem Percent.allGood_iff {thousandths : Nat} {text : List Char}
    (percent : Percent thousandths text) :
    allGood.accepts text = true ↔ thousandths = 1000 := by
  rw [allGood, accepts_prefix_iff]
  cases percent with
  | zero none => simp [none]
  | fraction places below => simp [show thousandths ≠ 1000 by omega]
  | oneDigit places lower below => simp [show thousandths ≠ 1000 by omega]
  | twoDigits places lower below => simp [show thousandths ≠ 1000 by omega]
  | all whole => simp [whole]

theorem digit_range_iff {n : Nat} (digit : n < 10) :
    ('5' ≤ n.digitChar ∧ n.digitChar ≤ '9') ↔ 5 ≤ n := by
  have each : ∀ n < 10, ('5' ≤ n.digitChar ∧ n.digitChar ≤ '9') ↔ 5 ≤ n := by decide
  exact each n digit

theorem Percent.mostGood_iff {thousandths : Nat} {text : List Char}
    (percent : Percent thousandths text) :
    mostGood.accepts text = true ↔ 950 ≤ thousandths ∧ thousandths < 1000 := by
  cases percent with
  | zero none => simp [mostGood, none]
  | fraction places below => simp [mostGood, show ¬ 950 ≤ thousandths by omega]
  | oneDigit places lower below => simp [mostGood, show ¬ 950 ≤ thousandths by omega]
  | twoDigits places lower below =>
      have range := digit_range_iff (n := thousandths / 10 % 10) (by omega)
      simp only [mostGood, accepts_char_cons, accepts_bracket_cons, accepts_star, List.any_cons,
        List.any_nil, Bool.or_false, Bool.and_true, Bool.and_eq_true, beq_iff_eq,
        Nat.nine_eq_digitChar, decide_eq_true_eq, range]
      omega
  | all whole => simp [mostGood, whole]

theorem totalGoodPercent_of_runs {totalGood totalRuns : Nat} (runs : totalRuns ≠ 0) :
    totalGoodPercent totalGood totalRuns =
      Decimal.text ⟨(totalGood * 1000 / totalRuns * 100 : Nat), 3⟩ := by
  have quotient : ((totalGood : Int) * 10 ^ 3).tdiv totalRuns =
      ((totalGood * 1000 / totalRuns : Nat) : Int) := rfl
  rw [totalGoodPercent, if_pos (by omega), Decimal.divide_ofInt, Decimal.multiply_ofInt, quotient,
    Int.natCast_mul]
  rfl

theorem verdict_of_percent {thousandths : Nat} {totalGood totalRuns : Int} (optrelax : Bool)
    (percent : Percent thousandths (totalGoodPercent totalGood totalRuns)) :
    verdict optrelax totalGood totalRuns = .success ↔
      if optrelax then 950 ≤ thousandths ∧ thousandths ≤ 1000 else thousandths = 1000 := by
  cases optrelax with
  | false => simp [verdict, expected, percent.allGood_iff]
  | true =>
      simp [verdict, expected, percent.allGood_iff, percent.mostGood_iff]
      omega

/-- Strictly all runs are good, and in relax mode at least 95%. -/
theorem verdict_success_iff (optrelax : Bool) {totalGood totalRuns : Nat}
    (part : totalGood ≤ totalRuns) :
    verdict optrelax totalGood totalRuns = .success ↔
      if optrelax then 19 * totalRuns ≤ 20 * totalGood else totalGood = totalRuns := by
  by_cases runs : totalRuns = 0
  · obtain rfl : totalGood = 0 := by omega
    subst runs
    have percent : Percent 1000 (totalGoodPercent (0 : Nat) (0 : Nat)) := .all rfl
    rw [verdict_of_percent optrelax percent]
    cases optrelax <;> simp
  · have bound : totalGood * 1000 / totalRuns ≤ 1000 :=
      Nat.div_le_of_le_mul (Nat.mul_le_mul_right 1000 part)
    have percent := text_percent bound
    rw [← totalGoodPercent_of_runs runs] at percent
    have reaches (k : Nat) : k ≤ totalGood * 1000 / totalRuns ↔ k * totalRuns ≤ totalGood * 1000 :=
      Nat.le_div_iff_mul_le (by omega)
    rw [verdict_of_percent optrelax percent]
    cases optrelax with
    | false =>
        have all := reaches 1000
        simp only [Bool.false_eq_true, if_false]
        omega
    | true =>
        have most := reaches 950
        simp only [if_true]
        omega

theorem summary_verdict (totalGood totalRuns : Nat) (part : totalGood ≤ totalRuns) :
    (verdict false totalGood totalRuns = .success ↔ totalGood = totalRuns) ∧
    (verdict true totalGood totalRuns = .success ↔ 20 * totalGood ≥ 19 * totalRuns) ∧
    ∀ optrelax, verdict optrelax totalGood totalRuns ≠ .success →
      (verdict optrelax totalGood totalRuns).exitStatus = some 1 := by
  refine ⟨verdict_success_iff false part, verdict_success_iff true part, ?_⟩
  intro optrelax other
  cases outcome : verdict optrelax totalGood totalRuns with
  | success => exact absurd outcome other
  | error => rfl

theorem summary_verdict_three :
    verdict false 3 3 = .success ∧ verdict true 19 20 = .success ∧
      (verdict true 2 3).exitStatus = some 1 :=
  ⟨(summary_verdict 3 3 (by decide)).1.mpr rfl, (summary_verdict 19 20 (by decide)).2.1.mpr
    (by decide), (summary_verdict 2 3 (by decide)).2.2 true
      (mt (summary_verdict 2 3 (by decide)).2.1.mp (by decide))⟩

end Libpreempt.TestMatrix
