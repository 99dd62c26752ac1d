import Mathlib.LinearAlgebra.Matrix.RowCol
import Minimization.Proofs.Exact.Vector
import Minimization.Tensor.Stretch

/-!
# Arrays of exact numbers as matrices

`x.RepresentsMatrix A` says that the array `x` has two extents and that its entries are those of the matrix
`A` in row-major order. Blocks of the entries are then the rows of the matrix, columns its columns, and sums
and transposes of arrays are those of the matrices. A vector is a matrix of one row on the left of a product and
of one column on the right, so that all products are instances of `productOf_rowMajor`.
-/

namespace Minimization.Tensor

open ExactScalar
open scoped Matrix

variable {m n k : Nat}

/-! ## Row-major order -/

section RowMajor

variable {β γ δ : Type}

/-- The entries of a matrix, row after row. -/
def rowMajor (A : Fin m → Fin n → β) : List β := (List.ofFn fun i => List.ofFn (A i)).flatten

theorem rowMajor_succ (A : Fin (m + 1) → Fin n → β) :
    rowMajor A = List.ofFn (A 0) ++ rowMajor fun i => A i.succ := by
  rw [rowMajor, List.ofFn_succ, List.flatten_cons]
  rfl

theorem length_rowMajor (A : Fin m → Fin n → β) : (rowMajor A).length = m * n := by
  induction m with
  | zero => rw [rowMajor, List.ofFn_zero, List.flatten_nil, List.length_nil, Nat.zero_mul]
  | succ m ih =>
    rw [rowMajor_succ, List.length_append, List.length_ofFn, ih, Nat.succ_mul, Nat.add_comm]

theorem map_rowMajor (f : β → γ) (A : Fin m → Fin n → β) :
    (rowMajor A).map f = rowMajor fun i j => f (A i j) := by
  rw [rowMajor, List.map_flatten, List.map_ofFn]
  simp only [Function.comp_def, List.map_ofFn]
  rfl

theorem zipWith_rowMajor (f : β → γ → δ) (A : Fin m → Fin n → β) (B : Fin m → Fin n → γ) :
    List.zipWith f (rowMajor A) (rowMajor B) = rowMajor fun i j => f (A i j) (B i j) := by
  induction m with
  | zero => rfl
  | succ m ih =>
    rw [rowMajor_succ, rowMajor_succ, rowMajor_succ, List.zipWith_append (by simp), zipWith_ofFn, ih]

/-- A matrix of one row has the entries of the row. -/
theorem rowMajor_row (u : Fin n → β) : rowMajor (fun _ : Fin 1 => u) = List.ofFn u := by
  rw [rowMajor_succ, rowMajor, List.ofFn_zero, List.flatten_nil, List.append_nil]

/-- A matrix of one column has the entries of the column. -/
theorem rowMajor_column (u : Fin m → β) : rowMajor (fun i (_ : Fin 1) => u i) = List.ofFn u := by
  induction m with
  | zero => rfl
  | succ m ih =>
    rw [rowMajor_succ, ih fun i => u i.succ, List.ofFn_succ (f := u), List.ofFn_succ, List.ofFn_zero]
    rfl

/-- The blocks are the rows. -/
theorem blocks_rowMajor (A : Fin m → Fin n → β) :
    blocks n m (rowMajor A) = List.ofFn fun i => List.ofFn (A i) := by
  induction m with
  | zero => rfl
  | succ m ih =>
    rw [blocks, rowMajor_succ, List.take_left' (List.length_ofFn), List.drop_left' (List.length_ofFn), ih,
      List.ofFn_succ (n := m)]

/-- The columns of the rows are the rows of the transposed matrix. -/
theorem columns_ofFn (A : Fin m → Fin n → β) :
    columns n (List.ofFn fun i => List.ofFn (A i)) = List.ofFn fun j => List.ofFn fun i => A i j := by
  induction n with
  | zero => rfl
  | succ n ih =>
    have hheads : (List.ofFn fun i => List.ofFn (A i)).filterMap List.head? = List.ofFn fun i => A i 0 := by
      rw [List.ofFn_eq_map, List.filterMap_map, List.ofFn_eq_map, ← List.filterMap_eq_map]
      refine congrArg (List.filterMap · _) (funext fun i => ?_)
      rw [Function.comp_apply, List.ofFn_succ]
      rfl
    have htails : (List.ofFn fun i => List.ofFn (A i)).map List.tail
        = List.ofFn fun i => List.ofFn fun j : Fin n => A i j.succ := by
      rw [List.map_ofFn]
      refine congrArg List.ofFn (funext fun i => ?_)
      rw [Function.comp_apply, List.ofFn_succ]
      rfl
    rw [columns, hheads, htails, ih, List.ofFn_succ (n := n)]

theorem exists_ofFn {xs : List β} (h : xs.length = n) : ∃ u : Fin n → β, xs = List.ofFn u := by
  subst h
  exact ⟨xs.get, (List.ofFn_get xs).symm⟩

theorem reverseExtents_singleton {xs : List β} (h : xs.length = n) : reverseExtents [n] xs = xs := by
  obtain ⟨u, rfl⟩ := exists_ofFn h
  have hblocks : blocks 1 n (List.ofFn u) = List.ofFn fun i => List.ofFn fun _ : Fin 1 => u i := by
    rw [← rowMajor_column, blocks_rowMajor]
  show (columns 1 ((blocks 1 n (List.ofFn u)).map (reverseExtents []))).flatten = _
  rw [hblocks, show (reverseExtents [] : List β → List β) = id from rfl, List.map_id, columns_ofFn]
  exact rowMajor_row u

/-- Reversing the extents of a matrix transposes it. -/
theorem reverseExtents_rowMajor (A : Fin m → Fin n → β) :
    reverseExtents [m, n] (rowMajor A) = rowMajor fun j i => A i j := by
  show (columns (n * 1) ((blocks (n * 1) m (rowMajor A)).map (reverseExtents [n]))).flatten = _
  rw [Nat.mul_one, blocks_rowMajor, List.map_ofFn]
  have hrows : (List.ofFn (reverseExtents [n] ∘ fun i => List.ofFn (A i)))
      = List.ofFn fun i => List.ofFn (A i) :=
    congrArg List.ofFn (funext fun i => reverseExtents_singleton List.length_ofFn)
  rw [hrows, columns_ofFn]
  rfl

end RowMajor

/-! ## Arrays of one shape -/

theorem stretch?_self (shape : List Nat) : stretch? shape shape = some shape := by
  have hreversed : ∀ shape, stretchReversed shape shape = some shape := by
    intro shape
    induction shape with
    | nil => rfl
    | cons n shape ih => simp [stretchReversed, ih]
  rw [stretch?, hreversed, Option.map_some, List.reverse_reverse]

theorem stretchEntries_self {β : Type} (shape : List Nat) (xs : List β) :
    stretchEntries shape shape xs = xs :=
  if_pos rfl

/-- Arrays of one shape need not be stretched. -/
theorem stretched_eq_ok {β : Type} [Scalar β] {x y : Tensor β} (f : β → β → β) (h : x.shape = y.shape) :
    ∃ z, x.stretched f y = .ok z ∧ z.shape = x.shape ∧ z.entries
      = (List.zipWith f x.entries y.entries).map (Scalar.round (x.precision.max y.precision)) := by
  have hlength : (List.zipWith f x.entries y.entries).length = volume x.shape := by
    rw [List.length_zipWith, x.length_entries, y.length_entries, ← h, Nat.min_self]
  refine ⟨⟨x.shape, _, x.precision.max y.precision, by rw [List.length_map, hlength]⟩, ?_, rfl, rfl⟩
  unfold stretched
  rw [← h, stretch?_self]
  dsimp only
  rw [stretchEntries_self, stretchEntries_self, ofEntries?, dif_pos hlength]

/-! ## Matrices -/

variable {α : Type} [ExactScalar α] {A B : Matrix (Fin m) (Fin n) ℝ} {x y : Tensor α}

/-- The entries of a matrix of real numbers, row after row. -/
def entriesOf (A : Matrix (Fin m) (Fin n) ℝ) : List α := rowMajor fun i j => ofReal (A i j)

theorem length_entriesOf (A : Matrix (Fin m) (Fin n) ℝ) : (entriesOf A : List α).length = m * n :=
  length_rowMajor _

/-- The array has two extents, and its entries are those of the matrix. -/
structure RepresentsMatrix (x : Tensor α) (A : Matrix (Fin m) (Fin n) ℝ) : Prop where
  shape_eq : x.shape = [m, n]
  entries_eq : x.entries = entriesOf A

/-- The array of a matrix. -/
def ofMatrix (p : Precision) (A : Matrix (Fin m) (Fin n) ℝ) : Tensor α where
  shape := [m, n]
  entries := entriesOf A
  precision := p
  length_entries := by simp [length_entriesOf]

theorem representsMatrix_ofMatrix (p : Precision) (A : Matrix (Fin m) (Fin n) ℝ) :
    (ofMatrix p A : Tensor α).RepresentsMatrix A :=
  ⟨rfl, rfl⟩

theorem map_round_entriesOf (p : Precision) (A : Matrix (Fin m) (Fin n) ℝ) :
    (entriesOf A : List α).map (Scalar.round p) = entriesOf A := by
  rw [entriesOf, map_rowMajor]
  simp only [round_ofReal]

/-- The product of the entries of two matrices. -/
theorem productStack_entriesOf (p : Precision) (A : Matrix (Fin m) (Fin k) ℝ)
    (B : Matrix (Fin k) (Fin n) ℝ) :
    productStack p 1 m k n (entriesOf A : List α) (entriesOf B) = entriesOf (A * B) := by
  have hA : blocks (m * k) 1 (entriesOf A : List α) = [entriesOf A] := by
    rw [blocks, blocks, List.take_of_length_le (length_entriesOf _).le]
  have hB : blocks (k * n) 1 (entriesOf B : List α) = [entriesOf B] := by
    rw [blocks, blocks, List.take_of_length_le (length_entriesOf _).le]
  rw [productStack, hA, hB, List.zipWith_cons_cons, List.zipWith_nil_left, List.flatten_singleton,
    entriesOf, entriesOf, blocks_rowMajor, blocks_rowMajor, columns_ofFn, productRows, List.map_ofFn]
  simp only [Function.comp_def, List.map_ofFn, innerSum_eq_sum]
  rfl

/-- The product of two arrays that are matrices, or vectors as matrices of one row or one column. -/
theorem productOf_eq_ok {A : Matrix (Fin m) (Fin k) ℝ} {B : Matrix (Fin k) (Fin n) ℝ} (shape : List Nat)
    (hx : matrixExtents true x.shape = some ([], m, k))
    (hy : matrixExtents false y.shape = some ([], k, n)) (hA : x.entries = entriesOf A)
    (hB : y.entries = entriesOf B)
    (hshape : (if x.rank = 1 then [] else [m]) ++ (if y.rank = 1 then [] else [n]) = shape)
    (hvolume : volume shape = m * n) :
    ∃ z, x.productOf y = .ok z ∧ z.shape = shape ∧ z.entries = entriesOf (A * B) := by
  have hlength : (entriesOf (A * B) : List α).length = volume shape := by
    rw [hvolume, length_entriesOf]
  refine ⟨⟨shape, (entriesOf (A * B)).map (Scalar.round (x.precision.max y.precision)),
    x.precision.max y.precision, by rw [List.length_map, hlength]⟩, ?_, rfl, map_round_entriesOf _ _⟩
  unfold productOf
  rw [hx, hy]
  simp only [ne_eq, not_true_eq_false, if_false]
  rw [show stretch? [] [] = some [] from rfl]
  dsimp only
  rw [stretchEntries_self, stretchEntries_self, hA, hB, volume_nil, productStack_entriesOf,
    List.nil_append, hshape, ofEntries?, dif_pos hlength]

section Products

variable {v : Point n} {w : Point m}

namespace RepresentsMatrix

theorem reversed (hx : x.RepresentsMatrix A) : x.reversed.RepresentsMatrix A.transpose where
  shape_eq := by
    show x.shape.reverse = _
    rw [hx.shape_eq]
    rfl
  entries_eq := by
    show reverseExtents x.shape x.entries = _
    rw [hx.shape_eq, hx.entries_eq]
    exact reverseExtents_rowMajor _

theorem add (hx : x.RepresentsMatrix A) (hy : y.RepresentsMatrix B) :
    ∃ z, x.stretched (· + ·) y = .ok z ∧ z.RepresentsMatrix (A + B) := by
  obtain ⟨z, hz, hshape, hentries⟩ := stretched_eq_ok (· + ·) (hx.shape_eq.trans hy.shape_eq.symm)
  refine ⟨z, hz, hshape.trans hx.shape_eq, ?_⟩
  rw [hentries, hx.entries_eq, hy.entries_eq, entriesOf, entriesOf, zipWith_rowMajor]
  simp only [← ofReal_add]
  exact map_round_entriesOf _ (A + B)

/-- A matrix times a vector. -/
theorem mulVec (hx : x.RepresentsMatrix A) (hy : y.Represents [n] v) :
    ∃ z, x.productOf y = .ok z ∧ z.Represents [m] (WithLp.toLp 2 (A *ᵥ v.ofLp) : Point m) := by
  obtain ⟨z, hz, hshape, hentries⟩ := productOf_eq_ok (A := A) (B := .replicateCol (Fin 1) v.ofLp) [m]
    (by rw [hx.shape_eq]; rfl) (by rw [hy.shape_eq]; rfl) hx.entries_eq
    (hy.entries_eq.trans (rowMajor_column _).symm) (by rw [rank, rank, hx.shape_eq, hy.shape_eq]; rfl) rfl
  refine ⟨z, hz, hshape, ?_⟩
  rw [hentries, ← Matrix.replicateCol_mulVec]
  exact rowMajor_column _

end RepresentsMatrix

/-- A vector times a matrix. -/
theorem Represents.vecMul (hx : x.Represents [m] w) (hy : y.RepresentsMatrix A) :
    ∃ z, x.productOf y = .ok z ∧ z.Represents [n] (WithLp.toLp 2 (w.ofLp ᵥ* A) : Point n) := by
  obtain ⟨z, hz, hshape, hentries⟩ := productOf_eq_ok (A := .replicateRow (Fin 1) w.ofLp) (B := A) [n]
    (by rw [hx.shape_eq]; rfl) (by rw [hy.shape_eq]; rfl)
    (hx.entries_eq.trans (rowMajor_row _).symm) hy.entries_eq
    (by rw [rank, rank, hx.shape_eq, hy.shape_eq]; rfl) (by rw [volume_cons, volume_nil, Nat.mul_comm])
  refine ⟨z, hz, hshape, ?_⟩
  rw [hentries, ← Matrix.replicateRow_vecMul]
  exact rowMajor_row _

/-- The product of two vectors is a number. -/
theorem Represents.dot {u : Point n} (hx : x.Represents [n] u) (hy : y.Represents [n] v) :
    ∃ z, x.productOf y = .ok z ∧ z.toNumber = .ok (ofReal (u.ofLp ⬝ᵥ v.ofLp)) := by
  obtain ⟨z, hz, hshape, hentries⟩ := productOf_eq_ok (A := .replicateRow (Fin 1) u.ofLp)
    (B := .replicateCol (Fin 1) v.ofLp) [] (by rw [hx.shape_eq]; rfl)
    (by rw [hy.shape_eq]; rfl) (hx.entries_eq.trans (rowMajor_row _).symm)
    (hy.entries_eq.trans (rowMajor_column _).symm) (by rw [rank, rank, hx.shape_eq, hy.shape_eq]; rfl) rfl
  refine ⟨z, hz, ?_⟩
  have hone : z.entries = [ofReal (u.ofLp ⬝ᵥ v.ofLp)] := hentries
  unfold toNumber
  rw [hshape, hone]

/-- Vectors of one shape entry by entry. -/
theorem Represents.stretched_sub {shape : List Nat} {u : Point n} (hx : x.Represents shape u)
    (hy : y.Represents shape v) : ∃ z, x.stretched (· - ·) y = .ok z ∧ z.Represents shape (u - v) := by
  obtain ⟨z, hz, hshape, hentries⟩ := stretched_eq_ok (· - ·) (hx.shape_eq.trans hy.shape_eq.symm)
  refine ⟨z, hz, hshape.trans hx.shape_eq, ?_⟩
  rw [hentries, hx.entries_eq, hy.entries_eq, zipWith_ofFn, List.map_ofFn]
  refine congrArg List.ofFn (funext fun i => ?_)
  rw [Function.comp_apply, ← ofReal_sub, round_ofReal]
  rfl

end Products

end Minimization.Tensor
