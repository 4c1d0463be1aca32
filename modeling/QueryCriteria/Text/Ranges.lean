/-!
# Tables of code points

A property of characters is kept as a list of ranges of code points, both ends included.
-/

namespace QueryCriteria.Text

/-- Whether a code point lies in one of the ranges. -/
def inRanges (ranges : List (Nat × Nat)) (point : Nat) : Bool :=
  ranges.any fun range => decide (range.1 ≤ point) && decide (point ≤ range.2)

@[simp] theorem inRanges_nil (point : Nat) : inRanges [] point = false := rfl

@[simp] theorem inRanges_cons (lo hi : Nat) (ranges : List (Nat × Nat)) (point : Nat) :
    inRanges ((lo, hi) :: ranges) point =
      (decide (lo ≤ point) && decide (point ≤ hi) || inRanges ranges point) := rfl

end QueryCriteria.Text
