import Minimization.Scalar

/-!
# Orthogonal matrices by reflections

`orthonormal` turns a square matrix into an orthogonal one whose first columns span the first columns
of the matrix. Each column is reflected onto a multiple of a unit vector; a column that already is one
is left alone. Matrices are lists of rows.
-/

namespace Minimization.Linear

variable {α : Type} [Scalar α]

/-- A reflection that acts on the coordinates from `start` on: along a vector whose first coordinate is
one, with a factor. -/
structure Reflection (α : Type) where
  start : Nat
  factor : α
  direction : List α

/-- The inner product of two lists. -/
def inner (xs ys : List α) : α :=
  (List.zipWith (· * ·) xs ys).foldl (· + ·) Scalar.zero

/-- The reflection that takes a list of coordinates to a multiple of the first unit vector. -/
def Reflection.of (start : Nat) (xs : List α) : Reflection α :=
  match xs with
  | [] => ⟨start, Scalar.zero, []⟩
  | a :: rest =>
    let size := Scalar.sqrt (inner rest rest)
    if Scalar.same size Scalar.zero then
      ⟨start, Scalar.zero, Scalar.one :: rest.map fun _ => Scalar.zero⟩
    else
      let length := Scalar.sqrt (a * a + size * size)
      let b := if Scalar.le Scalar.zero a then -length else length
      ⟨start, (b - a) / b, Scalar.one :: rest.map (· / (a - b))⟩

/-- The reflection of one vector. -/
def Reflection.apply (r : Reflection α) (xs : List α) : List α :=
  let tail := xs.drop r.start
  let s := r.factor * inner r.direction tail
  xs.take r.start ++ List.zipWith (fun x v => x - s * v) tail r.direction

/-- The reflections that make the columns of a matrix triangular, for the columns still to do. -/
def reflections (start : Nat) : (count : Nat) → List (List α) → List (Reflection α)
  | 0, _ => []
  | _ + 1, [] => []
  | count + 1, column :: columns =>
    let r := Reflection.of start (column.drop start)
    r :: reflections (start + 1) count (columns.map r.apply)

/-- The unit vector of a coordinate. -/
def unitVector (n i : Nat) : List α :=
  (List.range n).map fun j => if j = i then Scalar.one else Scalar.zero

/-- The columns of the orthogonal matrix of a square matrix of `n` columns. -/
def orthonormal (n : Nat) (columns : List (List α)) : List (List α) :=
  let rs := reflections 0 n columns
  (List.range n).map fun i => rs.foldr (fun r xs => r.apply xs) (unitVector n i)

end Minimization.Linear
