/-
  Sets of code points as tables.

  A table lists closed ranges of numbers in ascending order, so that a look-up can
  stop at the first range that lies above the number.
-/

namespace LoudHeaders

namespace Text

/-- Whether a number lies in one of the ranges of an ascending table. -/
def inRanges (n : Nat) : List (Nat × Nat) → Bool
  | [] => false
  | range :: rest => if n < range.1 then false else n ≤ range.2 || inRanges n rest

end Text

end LoudHeaders
