import Minimization.Tensor.Basic

/-!
# Arithmetic on arrays

Sums, differences and element-wise products of arrays of one shape, and an array against a single
number. The result is kept with the finer of the two precisions; a single number takes the precision of
the array it meets. The variants with `Into` keep the precision of their first array.
-/

namespace Minimization.Tensor

variable {α : Type} [Scalar α]

/-- Two arrays of one shape, entry by entry; `operation` names the operation in a failure. -/
def combine (operation : String) (f : α → α → α) (a b : Tensor α) : Except Failure (Tensor α) :=
  if h : a.shape = b.shape then
    .ok (zipWith (fun x y => Scalar.round (a.precision.max b.precision) (f x y)) a b h)
  else .error (.size (.shapes operation a.shape b.shape))

/-- Like `combine`, kept with the precision of the first array. -/
def combineInto (operation : String) (f : α → α → α) (a b : Tensor α) : Except Failure (Tensor α) :=
  (combine operation f a b).map (convert a.precision)

/-- Every entry against one number, kept with the precision of the array. -/
def withNumber (f : α → α → α) (t : Tensor α) (s : α) : Tensor α :=
  t.map fun x => Scalar.round t.precision (f x (Scalar.round t.precision s))

/-- The sum of two arrays. -/
def add (a b : Tensor α) : Except Failure (Tensor α) := combine "add" (· + ·) a b

/-- The difference of two arrays. -/
def sub (a b : Tensor α) : Except Failure (Tensor α) := combine "sub" (· - ·) a b

/-- The element-wise product of two arrays. -/
def multiply (a b : Tensor α) : Except Failure (Tensor α) := combine "elmmul" (· * ·) a b

/-- The first array with the second one added to it. -/
def addInto (a b : Tensor α) : Except Failure (Tensor α) := combineInto "add_inp" (· + ·) a b

/-- The first array with the second one taken from it. -/
def subInto (a b : Tensor α) : Except Failure (Tensor α) := combineInto "sub_inp" (· - ·) a b

/-- A number added to every entry. -/
def addNumber (t : Tensor α) (s : α) : Tensor α := t.withNumber (· + ·) s

/-- A number taken from every entry. -/
def subNumber (t : Tensor α) (s : α) : Tensor α := t.withNumber (· - ·) s

/-- An array moved by a step. A step without extents is a single number and moves every entry. -/
def moveBy (t step : Tensor α) : Except Failure (Tensor α) :=
  match step.shape, step.entries with
  | [], [s] => .ok (t.addNumber s)
  | _, _ => t.add step

/-- Every entry times a number. -/
def scale (t : Tensor α) (s : α) : Tensor α := t.withNumber (· * ·) s

end Minimization.Tensor
