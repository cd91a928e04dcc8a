/-!
# Ranges of code points

A class of characters is given by the ranges of its code points in ascending order.
-/

set_option autoImplicit false

namespace LiveDataflow.Text

/-- First and last code point of a run. -/
abbrev CodeRange := Nat × Nat

/-- Whether a code point lies in one of the ranges, which ascend. -/
def inRanges (n : Nat) : List CodeRange → Bool
  | [] => false
  | (first, last) :: rest => if n < first then false else n ≤ last || inRanges n rest

end LiveDataflow.Text
