/-!
# Sets of code points given by ranges

A property of characters is given by the ascending list of the ranges of code
points that have it, each by its first and last member.
-/

namespace StaticCheck.Text

/-- Whether `n` lies in one of the ascending ranges: the search ends at the first range that
starts beyond `n`. -/
def inRanges (n : Nat) : List (Nat × Nat) → Bool
  | [] => false
  | (first, last) :: ranges =>
    if n < first then false
    else if n ≤ last then true
    else inRanges n ranges

end StaticCheck.Text
