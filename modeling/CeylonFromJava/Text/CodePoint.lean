/-! Sets of code points as ascending lists of evenly spaced runs. -/
namespace CeylonFromJava.Text
set_option autoImplicit false

/-- The code points `first`, `first + step`, … up to `last`. -/
structure Run where
  first : Nat
  last : Nat
  step : Nat

def Run.contains (r : Run) (n : Nat) : Bool :=
  r.first ≤ n && n ≤ r.last && (n - r.first) % r.step == 0

/-- Whether one of the runs, which are in ascending order, contains `n`. -/
def Run.covers : List Run → Nat → Bool
  | [], _ => false
  | r :: rs, n => if n < r.first then false else r.contains n || Run.covers rs n

end CeylonFromJava.Text
