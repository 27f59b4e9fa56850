import Mathlib.Data.List.Basic

/-! Words of decimal digits. Programs read them in base ten, shell arithmetic
takes a leading zero for base eight and counts modulo 2⁶⁴. -/

set_option autoImplicit false

namespace Libpreempt.Shell

structure Numeral where
  digits : List (Fin 10)
  nonempty : digits ≠ []
deriving DecidableEq

def positional (base : Nat) (digits : List (Fin 10)) : Nat :=
  digits.foldl (fun value digit => value * base + digit.val) 0

def wrapped (base : Nat) (digits : List (Fin 10)) : Int64 :=
  digits.foldl (fun value digit => value * Int64.ofNat base + Int64.ofNat digit.val) 0

namespace Numeral

def decimal (numeral : Numeral) : Nat := positional 10 numeral.digits

/-- The value in `$((..))`; there is none if a digit is too great for the base. -/
def arithmetic (numeral : Numeral) : Option Int64 :=
  match numeral.digits with
  | 0 :: digit :: rest =>
      if (digit :: rest).all (· < 8) then some (wrapped 8 (digit :: rest)) else none
  | digits => some (wrapped 10 digits)

end Numeral

theorem wrapped_eq (base : Nat) (digits : List (Fin 10)) :
    wrapped base digits = Int64.ofNat (positional base digits) := by
  have fold (value : Nat) (digits : List (Fin 10)) :
      digits.foldl (fun value digit => value * Int64.ofNat base + Int64.ofNat digit.val)
          (Int64.ofNat value) =
        Int64.ofNat (digits.foldl (fun value digit => value * base + digit.val) value) := by
    induction digits generalizing value with
    | nil => rfl
    | cons digit digits ih =>
        rw [List.foldl_cons, List.foldl_cons, ← ih, Int64.ofNat_add, Int64.ofNat_mul]
  exact fold 0 digits

/-- The octal reading is not greater than the decimal one, and both are odd or
both even. -/
theorem positional_octal (digits : List (Fin 10)) :
    positional 8 digits ≤ positional 10 digits ∧
      positional 8 digits % 2 = positional 10 digits % 2 := by
  have fold (octal decimal : Nat) (below : octal ≤ decimal) (parity : octal % 2 = decimal % 2)
      (digits : List (Fin 10)) :
      digits.foldl (fun value digit => value * 8 + digit.val) octal ≤
          digits.foldl (fun value digit => value * 10 + digit.val) decimal ∧
        digits.foldl (fun value digit => value * 8 + digit.val) octal % 2 =
          digits.foldl (fun value digit => value * 10 + digit.val) decimal % 2 := by
    induction digits generalizing octal decimal with
    | nil => exact ⟨below, parity⟩
    | cons digit digits ih =>
        exact ih (octal * 8 + digit.val) (decimal * 10 + digit.val) (by omega) (by omega)
  exact fold 0 0 (Nat.le_refl 0) rfl digits

theorem Numeral.arithmetic_eq_some {numeral : Numeral} {value : Int64}
    (read : numeral.arithmetic = some value) :
    ∃ reading, reading ≤ numeral.decimal ∧ reading % 2 = numeral.decimal % 2 ∧
      value = Int64.ofNat reading := by
  rw [arithmetic] at read
  split at read
  · next digit rest shape =>
      have dropped : numeral.decimal = positional 10 (digit :: rest) := by
        rw [decimal, shape]
        rfl
      split at read
      · obtain ⟨below, parity⟩ := positional_octal (digit :: rest)
        rw [dropped]
        exact ⟨_, below, parity, by rw [← wrapped_eq]; exact (Option.some.inj read).symm⟩
      · cases read
  · exact ⟨numeral.decimal, Nat.le_refl _, rfl, by
      rw [decimal, ← wrapped_eq]
      exact (Option.some.inj read).symm⟩

end Libpreempt.Shell
