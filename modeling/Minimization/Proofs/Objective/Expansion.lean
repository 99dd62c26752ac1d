import Mathlib.Analysis.Calculus.Gradient.Basic
import Mathlib.Analysis.InnerProductSpace.Adjoint
import Minimization.Proofs.Function.Quadratic
import Minimization.Proofs.Objective.Batches

/-!
# The loss of a batch around a point

On exact numbers the loss over some rows is `meanSquare` of these rows of the matrix and of the targets, and
the gradient over the same rows is `meanGradient`, whose matrix is the transposed one. The latter is the
adjoint, so that the loss around a point has no terms but a linear one, which is the gradient, and the square
of what the rows make of the difference (`meanSquare_eq_add`). All else follows from this expansion: the
gradient is the derivative, central differences are exact, the loss is convex, and a point without gradient
is a minimum. `LeastSquares.loss_expands` says so of the batch of every number.
-/

namespace Minimization

open ExactScalar
open scoped Matrix RealInnerProductSpace

/-! ## Mean squares -/

section MeanSquare

variable {k d : Nat}

/-- Half the mean of the squares of what a matrix leaves of some targets at a point. -/
noncomputable def meanSquare (M : Matrix (Fin k) (Fin d) ℝ) (c : Point k) (v : Point d) : ℝ :=
  Scalar.half * ‖M.toEuclideanLin v - c‖ ^ 2 / k

/-- The same residuals, taken back by the transposed matrix. -/
noncomputable def meanGradient (M : Matrix (Fin k) (Fin d) ℝ) (c : Point k) (v : Point d) : Point d :=
  (k : ℝ)⁻¹ • Mᵀ.toEuclideanLin (M.toEuclideanLin v - c)

variable (M : Matrix (Fin k) (Fin d) ℝ) (c : Point k)

/-- The transposed matrix is the adjoint. -/
theorem inner_transpose (r : Point k) (u : Point d) :
    ⟪Mᵀ.toEuclideanLin r, u⟫ = ⟪r, M.toEuclideanLin u⟫ := by
  rw [← Matrix.conjTranspose_eq_transpose_of_trivial, Matrix.toEuclideanLin_conjTranspose_eq_adjoint,
    LinearMap.adjoint_inner_left]

theorem meanSquare_eq (v : Point d) : meanSquare M c v = ‖M.toEuclideanLin v - c‖ ^ 2 / (2 * k) := by
  rw [meanSquare, half_eq, ofReal_real]
  ring

theorem meanSquare_add (v u : Point d) :
    meanSquare M c (v + u)
      = meanSquare M c v + ⟪meanGradient M c v, u⟫ + ‖M.toEuclideanLin u‖ ^ 2 / (2 * k) := by
  have hresidual : M.toEuclideanLin (v + u) - c = M.toEuclideanLin v - c + M.toEuclideanLin u := by
    rw [map_add, add_sub_right_comm]
  have hlinear : ⟪meanGradient M c v, u⟫ = 2 * ⟪M.toEuclideanLin v - c, M.toEuclideanLin u⟫ / (2 * k) := by
    rw [meanGradient, real_inner_smul_left, inner_transpose, mul_div_mul_left _ _ two_ne_zero,
      inv_mul_eq_div]
  rw [hlinear, meanSquare_eq, meanSquare_eq, hresidual, norm_add_sq_real, add_div, add_div]

/-- The expansion around a point. -/
theorem meanSquare_eq_add (v w : Point d) :
    meanSquare M c w
      = meanSquare M c v + ⟪meanGradient M c v, w - v⟫ + ‖M.toEuclideanLin (w - v)‖ ^ 2 / (2 * k) := by
  rw [← meanSquare_add, add_sub_cancel]

/-- The square of what the rows make of a difference is small, compared to the difference. -/
theorem hasGradientAt_meanSquare (v : Point d) :
    HasGradientAt (meanSquare M c) (meanGradient M c v) v := by
  have hrest : ∀ u, meanSquare M c (v + u) - meanSquare M c v - ⟪meanGradient M c v, u⟫
      = ‖M.toEuclideanLin u‖ ^ 2 * (2 * (k : ℝ))⁻¹ := fun u => by
    rw [meanSquare_add, ← div_eq_mul_inv]
    ring
  rw [hasGradientAt_iff_isLittleO_nhds_zero]
  simp only [hrest]
  have hlinear : (fun u => M.toEuclideanLin u) =O[nhds 0] fun u : Point d => u :=
    (LinearMap.toContinuousLinearMap M.toEuclideanLin).isBigO_id _
  have hsquare : (fun u : Point d => ‖u‖ ^ 2) =o[nhds 0] fun u => u :=
    Asymptotics.isLittleO_norm_pow_id one_lt_two
  simpa only [mul_comm] using ((hlinear.norm_norm.pow 2).trans_isLittleO hsquare).const_mul_left _

/-- The squares on both sides of a point cancel. -/
theorem central_meanSquare (v : Point d) (i : Fin d) {h : ℝ} (hh : h ≠ 0) :
    (meanSquare M c (v + EuclideanSpace.single i h) - meanSquare M c (v - EuclideanSpace.single i h))
      / (2 * h) = meanGradient M c v i := by
  have hinner : ⟪meanGradient M c v, EuclideanSpace.single i h⟫ = h * meanGradient M c v i := by
    rw [EuclideanSpace.inner_single_right, conj_trivial]
  rw [sub_eq_add_neg v, meanSquare_add, meanSquare_add, inner_neg_right, map_neg, norm_neg, hinner]
  field_simp
  ring

/-- The values lie above every tangent. -/
theorem meanSquare_ge_tangent (v w : Point d) :
    meanSquare M c v + ⟪meanGradient M c v, w - v⟫ ≤ meanSquare M c w := by
  rw [meanSquare_eq_add M c v w]
  exact le_add_of_nonneg_right (by positivity)

theorem convexOn_meanSquare : ConvexOn ℝ Set.univ (meanSquare M c) := by
  refine ⟨convex_univ, fun v _ w _ a b ha hb hab => ?_⟩
  -- The tangent at the point between the two is below the values at both.
  let z := a • v + b • w
  have hv := mul_le_mul_of_nonneg_left (meanSquare_ge_tangent M c z v) ha
  have hw := mul_le_mul_of_nonneg_left (meanSquare_ge_tangent M c z w) hb
  have hcancel : a * ⟪meanGradient M c z, v - z⟫ + b * ⟪meanGradient M c z, w - z⟫ = 0 := by
    have hmean : a • (v - z) + b • (w - z) = 0 := by
      rw [smul_sub, smul_sub, sub_add_sub_comm, ← add_smul, hab, one_smul, sub_self]
    rw [← real_inner_smul_right, ← real_inner_smul_right, ← inner_add_right, hmean, inner_zero_right]
  calc meanSquare M c z
      = a * (meanSquare M c z + ⟪meanGradient M c z, v - z⟫)
        + b * (meanSquare M c z + ⟪meanGradient M c z, w - z⟫) := by
        rw [mul_add, mul_add, add_add_add_comm, hcancel, add_zero, ← add_mul, hab, one_mul]
    _ ≤ a • meanSquare M c v + b • meanSquare M c w := add_le_add hv hw

theorem meanSquare_le_of_gradient_eq_zero {v : Point d} (h : meanGradient M c v = 0) (w : Point d) :
    meanSquare M c v ≤ meanSquare M c w := by
  have htangent := meanSquare_ge_tangent M c v w
  rwa [h, inner_zero_left, add_zero] at htangent

/-- Rows in their places are all rows. -/
theorem meanSquare_submatrix {n : Nat} {S : Fin k → Fin n}
    (hS : (List.ofFn fun i => (S i : Nat)) = List.range n) (A : Matrix (Fin n) (Fin d) ℝ) (b : Point n) :
    meanSquare (A.submatrix S id) (WithLp.toLp 2 (b.ofLp ∘ S) : Point k) = meanSquare A b := by
  obtain rfl : k = n := by simpa using congrArg List.length hS
  obtain rfl : S = id := funext fun i => by
    have hplace := congrArg (·[(i : Nat)]?) hS
    simp only [List.getElem?_ofFn, List.getElem?_range i.isLt, dif_pos i.isLt] at hplace
    exact Fin.ext (Option.some.inj hplace)
  rfl

end MeanSquare

/-! ## Rows of matrices and vectors -/

namespace Tensor

variable {n d k : Nat}

section Rows

variable {α : Type} {s t : Tensor α} {B : Fin n → Fin d → α} {S : Fin k → Fin n}

theorem row_eq_ofFn (hwidth : volume (t.shape.drop 1) = d) (ht : t.entries = rowMajor B) (i : Fin n) :
    t.row i = List.ofFn (B i) := by
  have hblock : (blocks d n t.entries)[(i : Nat)]? = some ((t.entries.drop (i * d)).take d) :=
    getElem?_blocks i.isLt t.entries
  rw [ht, blocks_rowMajor, List.getElem?_ofFn, dif_pos i.isLt] at hblock
  rw [row, hwidth, ht]
  exact (Option.some.inj hblock).symm

/-- The selected rows, row after row. -/
theorem HasRows.entries_rowMajor [Scalar α] (h : s.HasRows t (List.ofFn fun i => (S i : Nat)))
    (hwidth : volume (t.shape.drop 1) = d) (ht : t.entries = rowMajor B) :
    s.entries = (rowMajor fun i => B (S i)).map (Scalar.round t.precision) := by
  have hrows : (List.ofFn fun i => (S i : Nat)).map t.row = List.ofFn fun i => List.ofFn (B (S i)) := by
    rw [List.map_ofFn]
    exact congrArg List.ofFn (funext fun i => row_eq_ofFn hwidth ht (S i))
  rw [h.entries, List.flatMap_def, hrows, rowMajor]

end Rows

variable {α : Type} [ExactScalar α] {s t : Tensor α} {A : Matrix (Fin n) (Fin d) ℝ} {b : Point n}
  {S : Fin k → Fin n}

theorem RepresentsMatrix.convert (h : t.RepresentsMatrix A) (p : Precision) :
    (t.convert p).RepresentsMatrix A where
  shape_eq := h.shape_eq
  entries_eq := by
    show t.entries.map (Scalar.round p) = _
    rw [h.entries_eq, map_round_entriesOf]

/-- Some rows of a matrix. -/
theorem HasRows.representsMatrix (h : s.HasRows t (List.ofFn fun i => (S i : Nat)))
    (ht : t.RepresentsMatrix A) : s.RepresentsMatrix (A.submatrix S id) where
  shape_eq := by
    rw [h.shape, ht.shape_eq, List.length_ofFn]
    rfl
  entries_eq := by
    rw [h.entries_rowMajor (by rw [ht.shape_eq]; exact Nat.mul_one d) ht.entries_eq]
    exact map_round_entriesOf _ (A.submatrix S id)

/-- Some entries of a vector, which is a matrix of one column. -/
theorem HasRows.represents (h : s.HasRows t (List.ofFn fun i => (S i : Nat)))
    (ht : t.Represents [n] b) : s.Represents [k] (WithLp.toLp 2 (b.ofLp ∘ S) : Point k) where
  shape_eq := by
    rw [h.shape, ht.shape_eq, List.length_ofFn]
    rfl
  entries_eq := by
    have hcolumn : t.entries = rowMajor fun i (_ : Fin 1) => ofReal (b i) := by
      rw [rowMajor_column, ht.entries_eq]
    rw [h.entries_rowMajor (by rw [ht.shape_eq]; rfl) hcolumn, map_rowMajor, rowMajor_column]
    exact congrArg List.ofFn (funext fun i => round_ofReal _ _)

end Tensor

namespace LeastSquares

/-! ## Batches -/

section Batch

variable {count size : Nat} {number : Option Int} {rows : List Nat}

theorem length_of_batch (h : batch count size number = .ok rows) :
    rows.length = count ∨ rows.length = size := by
  rcases batch_eq_ok h with rfl | hselection
  · exact .inl List.length_range
  · exact .inr hselection.length

/-- Rows of the data are indices of rows. -/
theorem exists_ofFn_of_batch (h : batch count size number = .ok rows) :
    ∃ S : Fin rows.length → Fin count, (List.ofFn fun i => (S i : Nat)) = rows :=
  ⟨fun i => ⟨rows[i], lt_of_mem_batch h (List.getElem_mem i.isLt)⟩, List.ofFn_getElem⟩

end Batch

/-! ## Losses and gradients -/

variable {α : Type} [ExactScalar α] {n d k size : Nat} {x : Tensor α} {v : Point d}

section Over

variable {design targets : Tensor α} {M : Matrix (Fin k) (Fin d) ℝ} {c : Point k}

theorem residual_eq_ok (hM : design.RepresentsMatrix M) (hc : targets.Represents [k] c)
    (hx : x.Represents [d] v) :
    ∃ r, residual design targets x = .ok r ∧ r.Represents [k] (M.toEuclideanLin v - c) := by
  obtain ⟨y, hy, hyv⟩ := hM.mulVec hx
  obtain ⟨r, hr, hrv⟩ := hyv.stretched_sub hc
  refine ⟨r, ?_, hrv⟩
  rw [residual, hy]
  exact hr

theorem lossOver_eq_ok (hM : design.RepresentsMatrix M) (hc : targets.Represents [k] c)
    (hx : x.Represents [d] v) (hk : 0 < k) :
    lossOver design targets x = .ok (ofReal (meanSquare M c v)) := by
  obtain ⟨r, hr, hrv⟩ := residual_eq_ok hM hc hx
  obtain ⟨z, hz, hnumber⟩ := hrv.dot hrv
  have hsquare : (M.toEuclideanLin v - c).ofLp ⬝ᵥ (M.toEuclideanLin v - c).ofLp
      = ‖M.toEuclideanLin v - c‖ ^ 2 := by
    rw [← real_inner_self_eq_norm_sq, EuclideanSpace.inner_eq_star_dotProduct, star_trivial]
  have hcount : (k : ℝ) ≠ 0 := Nat.cast_ne_zero.mpr hk.ne'
  rw [lossOver, hr, hc.size_eq]
  show (r.productOf r >>= fun z => z.toNumber >>= fun square => _) = _
  rw [hz]
  show (z.toNumber >>= fun square => _) = _
  rw [hnumber, hsquare, meanSquare, ofReal_div _ hcount, ofReal_mul, half_eq, half_eq, ofReal_real,
    ← nat_eq]
  rfl

theorem gradOver_eq_ok (hM : design.RepresentsMatrix M) (hc : targets.Represents [k] c)
    (hx : x.Represents [d] v) (hk : 0 < k) :
    ∃ g, gradOver design targets x = .ok g ∧ g.Represents [d] (meanGradient M c v) := by
  obtain ⟨r, hr, hrv⟩ := residual_eq_ok hM hc hx
  obtain ⟨g, hg, hgv⟩ := hM.reversed.mulVec hrv
  have hcount : (k : ℝ) ≠ 0 := Nat.cast_ne_zero.mpr hk.ne'
  refine ⟨g.map (· / Scalar.nat targets.size), ?_, hgv.shape_eq, ?_⟩
  · rw [gradOver, hr]
    show (design.reversed.productOf r >>= fun g => _) = _
    rw [hg]
    rfl
  · show g.entries.map _ = _
    rw [hgv.entries_eq, List.map_ofFn, hc.size_eq]
    refine congrArg List.ofFn (funext fun i => ?_)
    show ofReal _ / Scalar.nat k = _
    rw [nat_eq, ← ofReal_div _ hcount, div_eq_inv_mul]
    rfl

end Over

/-- A batch computes with the selected rows of what the objective holds. -/
theorem perform_loss_grad {o : LeastSquares α} {A : Matrix (Fin n) (Fin d) ℝ} {b : Point n}
    {number : Value} {rows : List Nat} {S : Fin rows.length → Fin n} {kept kept' : Batch}
    (hdesign : o.design.RepresentsMatrix A) (htargets : o.targets.Represents [n] b)
    (hS : (List.ofFn fun i => (S i : Nat)) = rows) (hrows : 0 < rows.length)
    (hbatch : perform (o.batchRows number) kept = (.ok rows, kept')) (hx : x.Represents [d] v) :
    let M := A.submatrix S id
    let c : Point rows.length := WithLp.toLp 2 (b.ofLp ∘ S)
    perform (o.loss number x) kept = (.ok (ofReal (meanSquare M c v)), kept') ∧
      ∃ g, perform (o.grad number x) kept = (.ok g, kept') ∧ g.Represents [d] (meanGradient M c v) := by
  intro M c
  have hbelow : ∀ i ∈ rows, i < n := by
    rw [← hS]
    intro i hi
    obtain ⟨j, rfl⟩ := List.mem_ofFn.mp hi
    exact (S j).isLt
  have hdesignBelow : ∀ i ∈ rows, i < o.design.shape.headD 0 := by
    rwa [hdesign.shape_eq]
  have htargetsBelow : ∀ i ∈ rows, i < o.targets.shape.headD 0 := by
    rwa [htargets.shape_eq]
  obtain ⟨a, ha, harows⟩ := Tensor.selectRows_eq hdesignBelow
  obtain ⟨y, hy, hyrows⟩ := Tensor.selectRows_eq htargetsBelow
  rw [← hS] at harows hyrows
  have hloss := lossOver_eq_ok (harows.representsMatrix hdesign) (hyrows.represents htargets) hx hrows
  obtain ⟨g, hg, hgv⟩ :=
    gradOver_eq_ok (harows.representsMatrix hdesign) (hyrows.represents htargets) hx hrows
  refine ⟨?_, g, ?_, hgv⟩
  · rw [loss, perform_bind_of_ok hbatch, ha, lift_ok_bind, hy, lift_ok_bind, hloss, perform_lift]
  · rw [grad, perform_bind_of_ok hbatch, ha, lift_ok_bind, hy, lift_ok_bind, hg, perform_lift]

/-- While the rows are kept, the loss leaves no traces. -/
theorem takes_loss {o : LeastSquares α} {A : Matrix (Fin n) (Fin d) ℝ} {b : Point n} {number : Value}
    {rows : List Nat} {S : Fin rows.length → Fin n} {kept : Batch}
    (hdesign : o.design.RepresentsMatrix A) (htargets : o.targets.Represents [n] b)
    (hS : (List.ofFn fun i => (S i : Nat)) = rows) (hrows : 0 < rows.length)
    (hbatch : perform (o.batchRows number) kept = (.ok rows, kept)) :
    Takes (kept, ()) (o.loss number) [d] fun v =>
      meanSquare (A.submatrix S id) (WithLp.toLp 2 (b.ofLp ∘ S) : Point rows.length) (WithLp.toLp 2 v) :=
  fun _ _ hx => attempt_of_perform (perform_loss_grad hdesign htargets hS hrows hbatch hx).1

/-- On exact numbers, over the batch of every number and whatever rows were kept before, the loss is the mean
square of the rows of the batch, and the gradient is computed over the same rows: around every point the loss
has no terms but a linear one, which is the gradient, and the mean of the squares of what the rows make of
the difference. So central differences agree with the gradient for every step, the loss is convex, a point
without gradient is a minimum, and over all rows the loss is the full one. -/
theorem loss_expands {A : Matrix (Fin n) (Fin d) ℝ} {b : Point n} {design targets : Tensor α}
    (hdesign : design.RepresentsMatrix A) (htargets : targets.Represents [n] b) (hn : 1 ≤ n)
    (hsize : 1 ≤ size) :
    ∃ o : LeastSquares α, LeastSquares.of design targets (.int size) = .ok o ∧
      ∀ (number : Option Int) (rows : List Nat), batch n size number = .ok rows →
        0 < rows.length ∧
        ∃ S : Fin rows.length → Fin n, (List.ofFn fun i => (S i : Nat)) = rows ∧
          let M := A.submatrix S id
          let c : Point rows.length := WithLp.toLp 2 (b.ofLp ∘ S)
          (∀ kept, o.IsDrawn kept → ∃ kept', o.IsDrawn kept' ∧
            ∀ (x : Tensor α) (v : Point d), x.Represents [d] v →
              perform (o.loss (published number) x) kept = (.ok (ofReal (meanSquare M c v)), kept') ∧
              ∃ g, perform (o.grad (published number) x) kept = (.ok g, kept') ∧
                g.Represents [d] (meanGradient M c v) ∧
                ∀ (p : Precision) (h : ℝ), 0 < h →
                  Difference.central.Gives (.ofNumbers (o.loss (published number))) (ofReal h) p x
                    (kept', ()) (g.convert p)) ∧
          (∀ v w, meanSquare M c w = meanSquare M c v + ⟪meanGradient M c v, w - v⟫
            + ‖M.toEuclideanLin (w - v)‖ ^ 2 / (2 * rows.length)) ∧
          (∀ v, HasGradientAt (meanSquare M c) (meanGradient M c v) v) ∧
          (∀ v i (h : ℝ), h ≠ 0 →
            (meanSquare M c (v + EuclideanSpace.single i h) - meanSquare M c (v - EuclideanSpace.single i h))
              / (2 * h) = meanGradient M c v i) ∧
          ConvexOn ℝ Set.univ (meanSquare M c) ∧
          (∀ v, meanGradient M c v = 0 → ∀ w, meanSquare M c v ≤ meanSquare M c w) ∧
          (number = none ∨ n ≤ size → ∀ (x : Tensor α) (v : Point d), x.Represents [d] v →
            o.fullLoss x = .ok (ofReal (meanSquare M c v))) := by
  let o : LeastSquares α := ⟨design.convert .double, targets.convert .double, .int size⟩
  have hdesign' : o.design.RepresentsMatrix A := hdesign.convert .double
  have htargets' : o.targets.Represents [n] b := htargets.convert .double
  have hcount : o.sampleCount = n := congrArg (List.headD · 0) hdesign.shape_eq
  refine ⟨o, of_eq_ok hdesign.shape_eq htargets.shape_eq hsize, fun number rows hbatch => ?_⟩
  have hrows : 0 < rows.length := by
    rcases length_of_batch hbatch with h | h
    · exact h ▸ hn
    · exact h ▸ hsize
  obtain ⟨S, hS⟩ := exists_ofFn_of_batch hbatch
  refine ⟨hrows, S, hS, ?_⟩
  intro M c
  refine ⟨fun kept hkept => ?_, meanSquare_eq_add M c, hasGradientAt_meanSquare M c,
    fun v i h => central_meanSquare M c v i, convexOn_meanSquare M c,
    fun v => meanSquare_le_of_gradient_eq_zero M c, fun hall x v hx => ?_⟩
  · obtain ⟨kept', hperform, hkept'⟩ := perform_batchRows (o := o) rfl hkept number
    rw [hcount, hbatch] at hperform
    have hagain := perform_batchRows_again rfl hperform
    refine ⟨kept', hkept', fun x v hx => ?_⟩
    obtain ⟨hloss, g, hg, hgv⟩ := perform_loss_grad hdesign' htargets' hS hrows hperform hx
    refine ⟨hloss, g, hg, hgv, fun p h hh => ?_⟩
    -- The estimator finds the rows kept, whichever values it asks for first.
    obtain ⟨g', hgives, hprecision, hgv'⟩ := Difference.gives_central
      (takes_loss hdesign' htargets' hS hrows hagain) hx hh p (u := meanGradient M c v) fun i => by
        rw [Pi.single_neg, ← sub_eq_add_neg, div_div, ← div_eq_mul_one_div]
        exact central_meanSquare M c v i hh.ne'
    rwa [← hgv'.eq_convert hprecision hgv]
  · have hfull : rows = List.range n := Except.ok.inj (hbatch.symm.trans (batch_all hall))
    rw [fullLoss, lossOver_eq_ok hdesign' htargets' hx hn, ← meanSquare_submatrix (hS.trans hfull)]

/-- Three rows that a point fits: over the two that are drawn for the number 7, the loss is zero there and
not below zero anywhere. -/
theorem loss_expands_fitted :
    let A : Matrix (Fin 3) (Fin 2) ℝ := !![1, 0; 1, 1; 1, 2]
    let b : Point 3 := WithLp.toLp 2 ![1, 2, 3]
    let design : Tensor ℝ := .ofMatrix .double A
    let targets : Tensor ℝ := .ofPoint .double b
    (design.RepresentsMatrix A ∧ targets.Represents [3] b ∧ 1 ≤ 3 ∧ 1 ≤ 2) ∧
    ∃ o : LeastSquares ℝ, LeastSquares.of design targets (.int 2) = .ok o ∧
      ∃ rows, batch 3 2 (some 7) = .ok rows ∧ Random.Selection 2 3 rows ∧
      ∃ kept', perform (o.loss (.int 7) (.ofPoint .double (WithLp.toLp 2 ![1, 1] : Point 2))) .none
          = (.ok 0, kept') ∧
        ∀ w : Point 2, ∃ value, perform (o.loss (.int 7) (.ofPoint .double w)) .none = (.ok value, kept') ∧
          0 ≤ value := by
  intro A b design targets
  have hdesign : design.RepresentsMatrix A := Tensor.representsMatrix_ofMatrix .double A
  have htargets : targets.Represents [3] b := Tensor.represents_ofPoint .double b
  obtain ⟨o, hof, hbatches⟩ := loss_expands hdesign htargets (show 1 ≤ 3 by decide) (show 1 ≤ 2 by decide)
  obtain ⟨rows, hrows, hselection⟩ := batch_some (show 2 < 3 by decide) (show (0 : Int) ≤ 7 by decide)
  obtain ⟨-, S, -, hvalues, -, -, -, -, hminimum, -⟩ := hbatches (some 7) rows hrows
  obtain ⟨kept', -, hvalues⟩ := hvalues .none (isDrawn_none o)
  let v : Point 2 := WithLp.toLp 2 ![1, 1]
  -- No row leaves anything of its target, so whichever rows were drawn, they do not either.
  have hfits : A *ᵥ v.ofLp = b.ofLp := by
    ext i
    fin_cases i <;> norm_num [A, b, v, Matrix.mulVec, dotProduct, Fin.sum_univ_two]
  have hresidual : (A.submatrix S id).toEuclideanLin v - WithLp.toLp 2 (b.ofLp ∘ S) = 0 := by
    rw [← hfits]
    exact sub_self _
  have hzero : meanSquare (A.submatrix S id) (WithLp.toLp 2 (b.ofLp ∘ S)) v = 0 := by
    rw [meanSquare_eq, hresidual, norm_zero, zero_pow two_ne_zero, zero_div]
  have hgradient : meanGradient (A.submatrix S id) (WithLp.toLp 2 (b.ofLp ∘ S)) v = 0 := by
    rw [meanGradient, hresidual, map_zero, smul_zero]
  have hfitted := (hvalues _ v (Tensor.represents_ofPoint .double v)).1
  rw [hzero] at hfitted
  refine ⟨⟨hdesign, htargets, by decide, by decide⟩, o, hof, rows, hrows, hselection, kept', hfitted,
    fun w => ⟨_, (hvalues _ w (Tensor.represents_ofPoint .double w)).1, ?_⟩⟩
  exact hzero ▸ hminimum v hgradient w

end LeastSquares

end Minimization
