import Minimization.Function.Basic
import Minimization.Linear.Orthogonal
import Minimization.Tensor.Stretch
import Minimization.Random.Generator
import Minimization.Value.Access
import Minimization.Value.Arithmetic

/-!
# Shifted quadratics

The function `(x - centre)ᵀ matrix (x - centre)`, with gradient `(matrix + matrixᵀ)(x - centre)`. The
matrix is square and the centre a vector of its size. `spdMatrix` builds a symmetric matrix with evenly
spaced eigenvalues from an orthogonal one.
-/

namespace Minimization

/-- A quadratic function around a centre. -/
structure ShiftedQuadratic (α : Type) where
  matrix : Tensor α
  centre : Tensor α

namespace ShiftedQuadratic

variable {α : Type} [Scalar α]

/-- The quadratic of a square matrix around a vector of its size. -/
def of (matrix centre : Tensor α) : Except Failure (ShiftedQuadratic α) :=
  match matrix.shape with
  | [m, n] =>
    if m ≠ n then .error (.argument (.notSquare matrix.shape))
    else match centre.shape with
      | [k] => if k ≠ m then .error (.argument (.centreLength m k)) else .ok ⟨matrix, centre⟩
      | shape => .error (.argument (.centreRank shape.length))
  | shape => .error (.argument (.notSquare shape))

/-- The number of variables. -/
def dimension (q : ShiftedQuadratic α) : Nat := q.matrix.shape.headD 0

/-- The vector from the centre. -/
def offset (q : ShiftedQuadratic α) (x : Tensor α) : Except Failure (Tensor α) :=
  (x.convert .double).stretched (· - ·) q.centre

/-- The value at a vector. -/
def loss (q : ShiftedQuadratic α) (x : Tensor α) : Except Failure α := do
  let r ← q.offset x
  let left ← r.productOf q.matrix
  (← left.productOf r).toNumber

/-- The gradient at a vector. -/
def grad (q : ShiftedQuadratic α) (x : Tensor α) : Except Failure (Tensor α) := do
  let r ← q.offset x
  let both ← q.matrix.stretched (· + ·) q.matrix.reversed
  both.productOf r

/-- Where the quadratic of a positive definite matrix is least. -/
def minimizer (q : ShiftedQuadratic α) : Tensor α := q.centre

/-- The quadratic with its gradient. -/
def asFunction {m : Type → Type} [Monad m] (q : ShiftedQuadratic α) : ScalarFunction m α :=
  .withGradient (some fun x => do return .ofNumber (← q.loss x)) (some (.field (some fun x => q.grad x)))

/-- `count` numbers from one to `last` at equal distances. -/
def evenlySpaced (last : α) (count : Nat) : List α :=
  if count ≤ 1 then [Scalar.one]
  else
    let width := last - Scalar.one
    let parts : α := Scalar.nat (count - 1)
    let step := width / parts
    (List.range count).map fun i =>
      if i + 1 = count then last
      else if Scalar.same step Scalar.zero then Scalar.nat i / parts * width + Scalar.one
      else Scalar.nat i * step + Scalar.one

/-- The square matrix with the given diagonal. -/
def diagonal (ds : List α) : List (List α) :=
  let n := ds.length
  ds.zipIdx.map fun (d, i) => (List.range n).map fun j => if j = i then d else Scalar.zero

/-- The matrix with the given rows. -/
def ofRows (rows : List (List α)) : Except Failure (Tensor α) :=
  match Tensor.ofEntries? .double [rows.length, (rows.headD []).length] rows.flatten with
  | some t => .ok t
  | none => .error .incompatibleShapes

/-- The symmetric matrix whose eigenvectors are the columns of `basis`, with eigenvalues evenly spaced
from one to `condition`. -/
def spdMatrix (basis : Tensor α) (condition : α) : Except Failure (Tensor α) := do
  let n := basis.shape.headD 0
  let scaled ← basis.productOf (← ofRows (diagonal (evenlySpaced condition n)))
  let b ← scaled.productOf basis.reversed
  let both ← b.stretched (· + ·) b.reversed
  return both.map (· / Scalar.two)

end ShiftedQuadratic

/-- The orthogonal matrix of a square matrix. -/
def orthonormalBasis {α : Type} [Scalar α] (n : Nat) (entries : List α) : Except Failure (Tensor α) :=
  let columns := Linear.orthonormal n (Tensor.columns n (Tensor.blocks n n entries))
  ShiftedQuadratic.ofRows (Tensor.columns n columns)

/-- The condition of a random quadratic that is not given any. -/
def ShiftedQuadratic.defaultCondition : Float := 10.0

/-- A quadratic with a random basis and a random centre, whose eigenvalues reach from one to
`condition`. -/
def ShiftedQuadratic.random (dimension : Value) (condition : Float) (g : Random.Generator) :
    Except Failure (ShiftedQuadratic Float) := do
  dimension.atLeastOne fun words => .argument (.quadraticDimension words)
  if condition < 1.0 then throw (.argument (.condition condition))
  let n := (← dimension.toExtent).toNat
  let (entries, g) ← g.normals (n * n)
  let matrix ← spdMatrix (← orthonormalBasis n entries) condition
  let (centre, _) ← g.normals n
  ShiftedQuadratic.of matrix (.vector .double centre)

end Minimization
