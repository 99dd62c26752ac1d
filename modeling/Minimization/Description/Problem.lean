import Minimization.Description.Function
import Minimization.Problem.Builder

/-!
# Problems described by values

An object with a dimension, an objective and constraints describes a problem. It is put together in
this order, and the first part that does not fit is the failure.
-/

namespace Minimization.Reading

/-- A described function with its described gradient. -/
def functionPair (p : Precision) (f df : Value) : Reading (DescribedScalar × DescribedVector) := do
  let f ← scalar p f
  return (f, ← vector p f df)

/-- Adds described constraints to a problem in the making. -/
def constraints (p : Precision) :
    Builder OnBench Float → List Value → Reading (Builder OnBench Float)
  | b, [] => return b
  | b, v :: vs => do
    let (g, dg) ← functionPair p (v.field "f") (v.field "df")
    let (r, b) := b.addConstraint g dg
    r
    constraints p b vs

/-- The problem that a value describes. -/
def problem (p : Precision) (v : Value) : Reading (Problem OnBench Float) := do
  let (f, df) ← functionPair p (v.field "f") (v.field "df")
  let (r, b) := (Builder.start (v.field "dim") p).setObjective f df
  r
  let b ← constraints p b (v.field "g").items
  b.build

end Minimization.Reading
