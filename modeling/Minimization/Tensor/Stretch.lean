import Minimization.Tensor.Basic

/-!
# Arrays of different shapes entry by entry

Two shapes are aligned at their last extents. Where they differ one of the two extents has to be one
(or missing); the array is then repeated along it. `stretched` combines two arrays this way.
-/

namespace Minimization.Tensor

variable {α : Type}

/-- The shape that two shapes are stretched to, position by position from the last extent. -/
def stretchReversed : List Nat → List Nat → Option (List Nat)
  | [], ns => some ns
  | ms, [] => some ms
  | m :: ms, n :: ns =>
    match stretchReversed ms ns with
    | none => none
    | some rest =>
      if m = n then some (m :: rest)
      else if m = 1 then some (n :: rest)
      else if n = 1 then some (m :: rest)
      else none

/-- The shape that two shapes are stretched to: extents of one are stretched, and missing leading
extents count as one. -/
def stretch? (a b : List Nat) : Option (List Nat) :=
  (stretchReversed a.reverse b.reverse).map List.reverse

/-- For every position of the reversed shape `target`, in row-major order, the position it is taken
from in an array of the reversed shape `source`. `step` is the distance of neighbours along the last
extent. -/
def sources (step : Nat) : (source target : List Nat) → List Nat
  | _, [] => [0]
  | [], n :: ns =>
    (sources step [] ns).flatMap fun i => List.replicate n i
  | m :: ms, n :: ns =>
    (sources (step * m) ms ns).flatMap fun i =>
      (List.range n).map fun j => i + (if m = 1 then 0 else j) * step

/-- The entries of an array, stretched to a larger shape. -/
def stretchEntries (shape target : List Nat) (xs : List α) : List α :=
  if shape = target then xs
  else
    let items := xs.toArray
    (sources 1 shape.reverse target.reverse).filterMap fun i => items[i]?

variable [Scalar α]

/-- Two arrays entry by entry, both stretched to a common shape. -/
def stretched (f : α → α → α) (a b : Tensor α) : Except Failure (Tensor α) :=
  match stretch? a.shape b.shape with
  | none => .error .incompatibleShapes
  | some shape =>
    let p := a.precision.max b.precision
    let xs := stretchEntries a.shape shape a.entries
    let ys := stretchEntries b.shape shape b.entries
    match ofEntries? p shape (List.zipWith f xs ys) with
    | some t => .ok t
    | none => .error .incompatibleShapes

/-- An array without extents as the number it holds; other arrays are no numbers. -/
def toNumber (t : Tensor α) : Except Failure α :=
  match t.shape, t.entries with
  | [], [x] => .ok x
  | _, _ => .error .wrongType

end Minimization.Tensor
