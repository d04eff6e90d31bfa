/-!
# Sets of numbers as sorted ranges

The property tables of this library are lists of closed ranges in rising order. A look-up stops at
the first range that begins beyond the number, so the common small code points are found early.
-/

namespace LineDirective

/-- Whether a number lies in one of the ranges; they must be sorted. -/
def inRanges (n : Nat) : List (Nat × Nat) → Bool
  | [] => false
  | (lo, hi) :: rest => if n < lo then false else if n ≤ hi then true else inRanges n rest

end LineDirective
