import Minimization.Tensor.Arithmetic
import Minimization.Tensor.Product

/-!
# Sums, inner products and norms

All of them are sums over the entries in row-major order that start at zero. `normalize` brings an
array to norm one; an array whose norm is below a threshold stays as it is, so that the reciprocal of
the norm is not taken of something negligible.
-/

namespace Minimization.Tensor

variable {α : Type} [Scalar α]

/-- The sum of the entries. -/
def sum (t : Tensor α) : α :=
  t.entries.foldl (fun s x => Scalar.round t.precision (s + x)) Scalar.zero

/-- The inner product of two arrays of one size, whatever their shapes. -/
def inner (a b : Tensor α) : Except Failure α :=
  if a.size ≠ b.size then .error (.size (.innerProduct a.size b.size))
  else .ok (innerSum (a.precision.max b.precision) a.entries b.entries)

/-- The square of the norm. -/
def normSquared (t : Tensor α) : α := innerSum t.precision t.entries t.entries

/-- The Euclidean norm. -/
def norm (t : Tensor α) : α := Scalar.round t.precision (Scalar.sqrt t.normSquared)

/-- The distance of two arrays of one shape. -/
def dist (a b : Tensor α) : Except Failure α := (sub a b).map norm

/-- Arrays of a norm below this stay as they are when they are normalized. -/
def negligible : α := Scalar.decimal 1 7

/-- An array brought to norm one, unless its norm is below the threshold. A norm of zero that is not
below the threshold has no reciprocal. -/
def normalizeAbove (threshold : α) (t : Tensor α) : Except Failure (Tensor α) :=
  if Scalar.lt t.norm threshold then .ok t
  else (Scalar.divide Scalar.one t.norm).map t.scale

/-- An array, converted to precision `p` and brought to norm one, unless its norm is negligible. -/
def normalize (p : Precision) (t : Tensor α) : Except Failure (Tensor α) :=
  (t.convert p).normalizeAbove negligible

end Minimization.Tensor
