import Mathlib.Data.List.Basic

/-! The string helpers of `base/string.h`. A `std::string` is the sequence of
its characters. Positions are below `npos`, which is `none`. -/

set_option autoImplicit false

namespace Libpreempt.Base

abbrev StdString := List Char

inductive OutOfRange where
  | position (pos size : Nat)
  deriving DecidableEq, Repr

def find (str : StdString) (sep : Char) (pos : Nat) : Option Nat :=
  ((str.drop pos).findIdx? (· == sep)).map (pos + ·)

def substr (str : StdString) (pos : Nat) (count : Option Nat) : Except OutOfRange StdString :=
  if str.length < pos then .error (.position pos str.length)
  else .ok (match count with
    | none => str.drop pos
    | some count => (str.drop pos).take count)

theorem find_bounds {str : StdString} {sep : Char} {pos stop : Nat}
    (found : find str sep pos = some stop) : pos ≤ stop ∧ stop < str.length := by
  obtain ⟨offset, located, rfl⟩ := Option.map_eq_some_iff.mp found
  obtain ⟨bound, _⟩ := List.findIdx?_eq_some_iff_getElem.mp located
  rw [List.length_drop] at bound
  omega

/-- The loop of `join` at the remaining elements with the text so far;
`i == v.end() - 1` says that no element follows. -/
def joinLoop (sep : Char) : List StdString → StdString → StdString
  | [], text => text
  | element :: rest, text =>
      joinLoop sep rest (if rest.isEmpty then text ++ element ++ [sep] else text ++ element)

def join (v : List StdString) (sep : Char) : StdString := joinLoop sep v []

/-- The loop of `split`, and after it the push of the tail. There `stop` is
`npos`, which differs from every position. -/
def splitLoop (str : StdString) (sep : Char) (pos : Nat) (result : List StdString) :
    Except OutOfRange (List StdString) :=
  match _found : find str sep pos with
  | some stop =>
      if stop ≠ pos then
        match substr str pos (some (stop - pos)) with
        | .error error => .error error
        | .ok token => splitLoop str sep (stop + 1) (result ++ [token])
      else splitLoop str sep (stop + 1) result
  | none =>
      if (none : Option Nat) ≠ some pos then
        match substr str pos none with
        | .error error => .error error
        | .ok token => .ok (result ++ [token])
      else .ok result
termination_by str.length - pos
decreasing_by
  all_goals
    have bounds := find_bounds _found
    omega

def split (str : StdString) (sep : Char) : Except OutOfRange (List StdString) :=
  splitLoop str sep 0 []

/-- `base::sprintf`, where the C formatter prints `text`: the buffer has room
for the terminating zero, and the zero stays in the string. -/
def sprintf (text : StdString) : StdString :=
  let size := text.length
  let buffer := List.replicate (size + 1) '\x00'
  (text ++ ['\x00']) ++ buffer.drop (size + 1)

def cStr (str : StdString) : StdString := str.takeWhile (· != '\x00')

end Libpreempt.Base
