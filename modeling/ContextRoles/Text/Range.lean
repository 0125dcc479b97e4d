/-! # Code point ranges

A property of characters is kept as closed ranges of code points, ascending and apart.
-/

namespace ContextRoles.Text

/-- Whether a code point lies in one of the ranges. The ranges ascend, so the search stops at the
first one that begins after it. -/
def inRanges : List (Nat × Nat) → Nat → Bool
  | [], _ => false
  | (first, last) :: ranges, n =>
    if n < first then false else if n ≤ last then true else inRanges ranges n

end ContextRoles.Text
