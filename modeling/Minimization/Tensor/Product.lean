import Minimization.Tensor.Stretch

/-!
# Products of arrays and transposition

`product` is the matrix product. A vector on the left is a row, one on the right a column, and the
result loses the extent that this adds; arrays of more than two extents are stacks of matrices, and
stacks of different shapes are stretched along extents of one. `transpose` reverses the extents of a
matrix; a vector becomes a matrix of one row and an array of one row a vector.

Every entry of a product is a sum that starts at zero and goes through the terms in order.
-/

namespace Minimization.Tensor

variable {α : Type}

variable [Scalar α]

/-- The sum of the products of two lists, kept with a precision. -/
def innerSum (p : Precision) (xs ys : List α) : α :=
  (List.zipWith (· * ·) xs ys).foldl (fun s v => Scalar.round p (s + Scalar.round p v)) Scalar.zero

/-- The product of two matrices given by the rows of the first and the columns of the second. -/
def productRows (p : Precision) (rows columns : List (List α)) : List (List α) :=
  rows.map fun r => columns.map fun c => innerSum p r c

/-- The product of two stacks of matrices in row-major order: `count` matrices of `m` rows, `k` inner
extents and `n` columns. -/
def productStack (p : Precision) (count m k n : Nat) (xs ys : List α) : List α :=
  (List.zipWith (fun x y => (productRows p (blocks k m x) (columns n (blocks n k y))).flatten)
    (blocks (m * k) count xs) (blocks (k * n) count ys)).flatten

/-- The extents of the matrices of an array, with the shape of their stack. A vector on the left is one
row, a vector on the right one column. -/
def matrixExtents (left : Bool) : List Nat → Option (List Nat × Nat × Nat)
  | [] => none
  | [n] => some (if left then ([], 1, n) else ([], n, 1))
  | shape =>
    match shape.reverse with
    | n :: m :: stack => some (stack.reverse, m, n)
    | _ => none

/-- The matrix product of two arrays whose inner extents agree. -/
def productOf (a b : Tensor α) : Except Failure (Tensor α) :=
  match matrixExtents true a.shape, matrixExtents false b.shape with
  | some (left, m, k), some (right, k', n) =>
    if k ≠ k' then .error .incompatibleShapes
    else match stretch? left right with
      | none => .error .incompatibleShapes
      | some stack =>
        let p := a.precision.max b.precision
        let xs := stretchEntries (left ++ [m * k]) (stack ++ [m * k]) a.entries
        let ys := stretchEntries (right ++ [k * n]) (stack ++ [k * n]) b.entries
        let shape := stack ++ (if a.rank = 1 then [] else [m]) ++ (if b.rank = 1 then [] else [n])
        match ofEntries? p shape (productStack p (volume stack) m k n xs ys) with
        | some t => .ok t
        | none => .error .incompatibleShapes
  | _, _ => .error .incompatibleShapes

/-- The matrix product, kept with precision `p`. The last extent of the first array has to be the first
extent of the second; a single number has neither. -/
def product (p : Precision) (a b : Tensor α) : Except Failure (Tensor α) :=
  match a.shape.getLast?, b.shape.head? with
  | some inner, some inner' =>
    if inner ≠ inner' then .error (.size (.product a.shape b.shape))
    else (productOf a b).map (convert p)
  | _, _ => .error .outOfRange

/-- Entries with the extents reversed: the blocks along the first extent are reversed one by one, and
their entries are then read across. -/
def reverseExtents {β : Type} : List Nat → List β → List β
  | [], xs => xs
  | n :: shape, xs =>
    (columns (volume shape) ((blocks (volume shape) n xs).map (reverseExtents shape))).flatten

theorem length_reverseExtents {β : Type} {shape : List Nat} {xs : List β}
    (h : xs.length = volume shape) : (reverseExtents shape xs).length = volume shape := by
  induction shape generalizing xs with
  | nil => exact h
  | cons n shape ih =>
    have hx : xs.length = volume shape * n := by rw [h, volume_cons, Nat.mul_comm]
    have hb : ∀ r ∈ (blocks (volume shape) n xs).map (reverseExtents shape),
        r.length = volume shape := by
      intro r hr
      obtain ⟨b, hb, rfl⟩ := List.mem_map.1 hr
      exact ih (length_of_mem_blocks hx hb)
    rw [reverseExtents, length_flatten_of_forall (n := n)]
    · simp [Nat.mul_comm]
    · intro c hc
      rw [length_of_mem_columns hb hc]
      simp

/-- The array with its extents reversed. -/
def reversed (t : Tensor α) : Tensor α :=
  { t with
    shape := t.shape.reverse
    entries := reverseExtents t.shape t.entries
    length_entries := by rw [length_reverseExtents t.length_entries, volume_reverse] }

/-- The transposed array. -/
def transpose (t : Tensor α) : Except Failure (Tensor α) :=
  match h : t.shape with
  | [] => .error .outOfRange
  | [n] => .ok { t with shape := [1, n], length_entries := by simp [t.length_entries, h] }
  | 1 :: _ :: _ => .ok t.flatten
  | _ :: _ :: _ => .ok t.reversed

end Minimization.Tensor
