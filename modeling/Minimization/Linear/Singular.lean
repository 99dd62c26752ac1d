import Minimization.Linear.Orthogonal

/-!
# Least squares solutions of least norm

The columns of a matrix are rotated against each other in pairs until they are orthogonal; their
lengths are then the singular values, and the rotations applied to the unit vectors give the
directions. The solution is the sum over all directions whose singular value is not negligible.
-/

namespace Minimization.Linear

variable {α : Type} [Scalar α]

/-- A column with the direction it belongs to. -/
abbrev Singular (α : Type) := List α × List α

/-- `c * x + s * y` entry by entry. -/
def mix (c s : α) (xs ys : List α) : List α := List.zipWith (fun x y => c * x + s * y) xs ys

/-- Rotates two columns until they are orthogonal. -/
def rotate (p q : Singular α) : Singular α × Singular α :=
  let a := inner p.1 p.1
  let b := inner q.1 q.1
  let c := inner p.1 q.1
  if Scalar.same c Scalar.zero then (p, q)
  else
    let z := (b - a) / (Scalar.two * c)
    let root := Scalar.sqrt (Scalar.one + z * z)
    let t := if Scalar.le Scalar.zero z then Scalar.one / (z + root) else -(Scalar.one / (root - z))
    let cosine := Scalar.one / Scalar.sqrt (Scalar.one + t * t)
    let sine := cosine * t
    ((mix cosine (-sine) p.1 q.1, mix cosine (-sine) p.2 q.2),
     (mix sine cosine p.1 q.1, mix sine cosine p.2 q.2))

/-- Rotates one column against all others, which are collected in order. -/
def rotateAgainst (p : Singular α) : List (Singular α) → Singular α × List (Singular α)
  | [] => (p, [])
  | q :: qs =>
    let (p, q) := rotate p q
    let (p, qs) := rotateAgainst p qs
    (p, q :: qs)

/-- Rotates every column against the later ones; the number counts the columns left to do. -/
def sweep : Nat → List (Singular α) → List (Singular α)
  | 0, qs => qs
  | _, [] => []
  | n + 1, p :: qs =>
    let (p, qs) := rotateAgainst p qs
    p :: sweep n qs

/-- So many sweeps make the columns orthogonal. -/
def sweeps : Nat := 60

/-- The columns of a matrix made orthogonal, with their directions. -/
def singular (columns : List (List α)) : List (Singular α) :=
  let n := columns.length
  let start := columns.zipIdx.map fun (c, i) => (c, unitVector n i)
  (List.range sweeps).foldl (fun qs _ => sweep n qs) start

/-- The solution of least norm for the matrix with the given columns and a right-hand side. Singular
values up to `negligible` times the largest one count as zero. -/
def leastNormSolution (negligible : α) (columns : List (List α)) (target : List α) : List α :=
  let parts := (singular columns).map fun (w, v) => (Scalar.sqrt (inner w w), w, v)
  let threshold := negligible * Scalar.largest (parts.map Prod.fst)
  parts.foldl
    (fun x (length, w, v) =>
      if Scalar.le length threshold then x
      else
        let s := inner w target / (length * length)
        List.zipWith (fun x v => x + s * v) x v)
    (columns.map fun _ => Scalar.zero)

/-- A number without its sign. -/
def magnitude (a : α) : α := Scalar.max a (-a)

/-- What the entries of a matrix are measured in: one, unless the square of the largest entry would
overflow or vanish; then it is that entry. -/
def unitFor (entries : List α) : α :=
  let largest := Scalar.largest (entries.map magnitude)
  let bound : α := Scalar.nat (Nat.pow 10 100)
  if Scalar.same largest Scalar.zero ||
      (Scalar.lt largest bound && Scalar.lt Scalar.one (largest * bound)) then Scalar.one
  else largest

end Minimization.Linear
