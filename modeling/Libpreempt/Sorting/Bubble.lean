import Mathlib.Data.List.Perm.Basic
import Mathlib.Order.Defs.PartialOrder

/-! Bubble sort over lists. A pass carries an element to the right and drops it
in front of the first element that is strictly greater; equal elements are
exchanged as well. -/

set_option autoImplicit false

namespace Libpreempt.Sorting

variable {Element : Type*}

section Passes

variable [LE Element] [DecidableLE Element]

def carry (carried : Element) : List Element → List Element
  | [] => [carried]
  | next :: rest =>
      if next ≤ carried then next :: carry carried rest else carried :: carry next rest

def carrySwaps (carried : Element) : List Element → Nat
  | [] => 0
  | next :: rest =>
      if next ≤ carried then carrySwaps carried rest + 1 else carrySwaps next rest

def pass : List Element → List Element
  | [] => []
  | first :: rest => carry first rest

def passSwaps : List Element → Nat
  | [] => 0
  | first :: rest => carrySwaps first rest

/-- At most `limit` passes, with the number of exchanges; a pass without an
exchange is the last. -/
def passes : Nat → List Element → List Element × Nat
  | 0, elements => (elements, 0)
  | limit + 1, elements =>
      if passSwaps elements = 0 then (pass elements, 0)
      else
        let sorted := passes limit (pass elements)
        (sorted.1, passSwaps elements + sorted.2)

end Passes

section Standings

variable [LE Element] [DecidableLE Element] [LT Element] [DecidableLT Element]

/-- How an element stands to those before it: whether one of them is
equivalent, and how many are greater. -/
@[ext] structure Standing where
  tied : Bool
  above : Nat
  deriving DecidableEq, Repr

def standing (seen : List Element) (element : Element) : Standing where
  tied := seen.any fun earlier => decide (element ≤ earlier ∧ earlier ≤ element)
  above := seen.countP fun earlier => decide (element < earlier)

def standings (seen : List Element) : List Element → List Standing
  | [] => []
  | element :: rest => standing seen element :: standings (element :: seen) rest

namespace Standing

/-- The standing after one more pass. -/
def next (standing : Standing) : Standing := { standing with above := standing.above - 1 }

/-- The element is exchanged with a greater or equivalent one in the next pass. -/
def Active (standing : Standing) : Prop := standing.tied = true ∨ 0 < standing.above

instance (standing : Standing) : Decidable standing.Active :=
  inferInstanceAs (Decidable (_ ∨ _))

/-- The exchanges to the left within `limit` passes. -/
def moves (limit : Nat) (standing : Standing) : Nat :=
  if standing.tied then limit else min standing.above limit

end Standing

end Standings

end Libpreempt.Sorting
