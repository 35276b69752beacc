/-!
# Sets of characters as runs

A set of code points is written down as the ends of its runs: the first run starts at the first
number and stops before the second, the next run starts at the third, and so on.
-/

namespace LiveEdit.Text

/-- Whether a number lies in one of the runs with the given ends. -/
def inRuns (ends : Array Nat) (c : Nat) : Bool := (ends.takeWhile (· ≤ c)).size % 2 == 1

end LiveEdit.Text
