/-! Sets of characters as sorted runs of code points, with a membership test that stops at the first
run beyond the character. -/
namespace ODataPlan.Text

/-- The code points `first`, `first + step`, ..., `last`. -/
structure Run where
  first : Nat
  last : Nat
  step : Nat
deriving DecidableEq, Repr

def Run.contains (r : Run) (n : Nat) : Bool :=
  r.first ≤ n && n ≤ r.last && (n - r.first) % r.step == 0

/-- Membership in a table of runs sorted by `first`: the search ends at the first run that starts
beyond the code point. -/
def inRuns : List Run → Nat → Bool
  | [], _ => false
  | r :: rs, n => if n < r.first then false else r.contains n || inRuns rs n

end ODataPlan.Text
