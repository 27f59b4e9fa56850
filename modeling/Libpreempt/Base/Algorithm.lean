import Mathlib.Algebra.Group.Nat.Defs

/-! `bubble_sort` of `base/algorithm.h`. The loops count with `int` and compare
with the unsigned size. An overflow of an `int` and an access outside the
container are undefined and end the run with `none`. -/

set_option autoImplicit false

namespace Libpreempt.Base

def intMax : Nat := 2147483647

/-- The counter `result` as the `int` it is, or as an integer without bound. -/
inductive Counter where
  | int
  | unbounded
  deriving DecidableEq, Repr

def Counter.succ : Counter → Nat → Option Nat
  | .int, result => if result < intMax then some (result + 1) else none
  | .unbounded, result => some (result + 1)

/-- `size - 1` in `size_t`. -/
def sizePred (size : Nat) : Nat := if size = 0 then 2 ^ 64 - 1 else size - 1

namespace BubbleSort

variable {T : Type*} {size : Nat}

structure Pass (T : Type*) (size : Nat) where
  v : Vector T size
  swapped : Bool
  result : Nat

/-- `std::swap(v[a], v[b])` -/
def swap (v : Vector T size) (a b : Nat) (atA atB : T) : Vector T size :=
  (v.setIfInBounds a atB).setIfInBounds b atA

variable [LE T] [DecidableLE T]

def innerLoop (counter : Counter) (state : Pass T size) (j : Nat) : Option (Pass T size) :=
  if j < sizePred size then
    -- `j + 1` and `j++` have the same value
    if _fits : j < intMax then
      match state.v[j]?, state.v[j + 1]? with
      | some lower, some upper =>
          if upper ≤ lower then
            match counter.succ state.result with
            | none => none
            | some result =>
                innerLoop counter
                  { v := swap state.v j (j + 1) lower upper, swapped := true, result } (j + 1)
          else innerLoop counter state (j + 1)
      | _, _ => none
    else none
  else some state
termination_by intMax - j

def outerLoop (counter : Counter) (v : Vector T size) (i result : Nat) :
    Option (Vector T size × Nat) :=
  if i < size then
    match innerLoop counter { v, swapped := false, result } 0 with
    | none => none
    | some state =>
        if state.swapped = false then some (state.v, state.result)
        else if _fits : i < intMax then outerLoop counter state.v (i + 1) state.result
        else none
  else some (v, result)
termination_by intMax - i

end BubbleSort

variable {T : Type*} [LE T] [DecidableLE T]

/-- `bubble_sort(std::vector<T>&)`; the vector is sorted in place. -/
def bubbleSort (counter : Counter) (v : Array T) : Option (Array T × Nat) :=
  (BubbleSort.outerLoop counter v.toVector 1 0).map fun sorted => (sorted.1.toArray, sorted.2)

/-- `bubble_sort(std::array<T, N>&)` -/
def bubbleSortArray {N : Nat} (counter : Counter) (v : Vector T N) : Option (Vector T N × Nat) :=
  BubbleSort.outerLoop counter v 1 0

end Libpreempt.Base
