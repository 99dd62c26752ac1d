import Minimization.Proofs.Function.Quadratic

/-!
# The spectrum of a random quadratic

`spdMatrix` multiplies an orthogonal matrix, the diagonal matrix of evenly spaced numbers and the transposed
orthogonal matrix. On exact numbers the result is `spread Q c`, which is symmetric before it is made so
(`spdMatrix_eq_ok`). In the coordinates that the transposed orthogonal matrix gives, its quadratic form is the
sum of the squares weighted by the evenly spaced numbers (`form_spread`). So it lies between the square of the
norm and `c` times this square, and the signs of the columns do not matter.

Around a point a quadratic function has no terms but those of its gradient and of its form (`quadratic_add`).
Where the form is bounded from below, the centre is the only minimum. `ShiftedQuadratic.of_spdMatrix` puts
these together.
-/

namespace Minimization

open ExactScalar
open scoped Matrix RealInnerProductSpace

variable {n : Nat}

/-! ## Products of matrices -/

namespace Tensor

variable {α : Type} [ExactScalar α] {m k : Nat} {x y : Tensor α}

theorem RepresentsMatrix.mul {A : Matrix (Fin m) (Fin k) ℝ} {B : Matrix (Fin k) (Fin n) ℝ}
    (hx : x.RepresentsMatrix A) (hy : y.RepresentsMatrix B) :
    ∃ z, x.productOf y = .ok z ∧ z.RepresentsMatrix (A * B) := by
  obtain ⟨z, hz, hshape, hentries⟩ := productOf_eq_ok (A := A) (B := B) [m, n]
    (by rw [hx.shape_eq]; rfl) (by rw [hy.shape_eq]; rfl) hx.entries_eq hy.entries_eq
    (by rw [rank, rank, hx.shape_eq, hy.shape_eq]; rfl) (by simp)
  exact ⟨z, hz, hshape, hentries⟩

/-- A function of every entry. -/
theorem RepresentsMatrix.map {A : Matrix (Fin m) (Fin n) ℝ} (hx : x.RepresentsMatrix A) {f : α → α}
    {g : ℝ → ℝ} (hf : ∀ a, f (ofReal a) = ofReal (g a)) : (x.map f).RepresentsMatrix (A.map g) where
  shape_eq := hx.shape_eq
  entries_eq := by
    show x.entries.map f = _
    rw [hx.entries_eq, entriesOf, map_rowMajor]
    simp only [hf]
    rfl

end Tensor

/-! ## Evenly spaced eigenvalues -/

/-- The numbers from one to `c` at equal distances; a single one is one. -/
noncomputable def eigenvalue (c : ℝ) (i : Fin n) : ℝ := 1 + i * ((c - 1) / ((n : ℝ) - 1))

theorem eigenvalue_first (c : ℝ) (h : 0 < n) : eigenvalue c (⟨0, h⟩ : Fin n) = 1 := by
  rw [eigenvalue, Nat.cast_zero, zero_mul, add_zero]

theorem eigenvalue_last (c : ℝ) (h : 1 < n) {i : Fin n} (hi : (i : Nat) + 1 = n) :
    eigenvalue c i = c := by
  have hn : (n : ℝ) - 1 ≠ 0 := sub_ne_zero.mpr (by exact_mod_cast h.ne')
  have hlast : (i : ℝ) = n - 1 := by
    rw [eq_sub_iff_add_eq]
    exact_mod_cast hi
  rw [eigenvalue, hlast, mul_div_cancel₀ _ hn, add_sub_cancel]

theorem one_le_eigenvalue {c : ℝ} (hc : 1 ≤ c) (i : Fin n) : 1 ≤ eigenvalue c i := by
  have hn : (0 : ℝ) ≤ n - 1 := sub_nonneg.mpr (by exact_mod_cast i.pos)
  exact le_add_of_nonneg_right (mul_nonneg (Nat.cast_nonneg _) (div_nonneg (sub_nonneg.mpr hc) hn))

theorem eigenvalue_le {c : ℝ} (hc : 1 ≤ c) (i : Fin n) : eigenvalue c i ≤ c := by
  rcases Nat.eq_zero_or_pos i with hi | hi
  · rw [eigenvalue, hi, Nat.cast_zero, zero_mul, add_zero]
    exact hc
  · have hn : (0 : ℝ) < n - 1 := sub_pos.mpr (by exact_mod_cast Nat.lt_of_le_of_lt hi i.isLt)
    have hle : (i : ℝ) ≤ n - 1 := by
      rw [le_sub_iff_add_le]
      exact_mod_cast i.isLt
    have hpart : (i : ℝ) * ((c - 1) / (n - 1)) ≤ c - 1 := by
      rw [← mul_div_assoc, div_le_iff₀ hn, mul_comm]
      exact mul_le_mul_of_nonneg_left hle (sub_nonneg.mpr hc)
    rw [eigenvalue]
    linarith

namespace ShiftedQuadratic

section Arrays

variable {α : Type} [ExactScalar α]

/-- How the distance is computed makes no difference. -/
theorem evenlySpaced_eq (c : ℝ) (hn : 1 ≤ n) :
    evenlySpaced (ofReal c : α) n = List.ofFn fun i : Fin n => ofReal (eigenvalue c i) := by
  unfold evenlySpaced
  by_cases h : n ≤ 1
  · obtain rfl : n = 1 := Nat.le_antisymm h hn
    rw [if_pos h, List.ofFn_succ, List.ofFn_zero, one_eq]
    exact congrArg (fun a => [ofReal a]) (eigenvalue_first c Nat.one_pos).symm
  · have hparts : ((n : ℝ) - 1) ≠ 0 := sub_ne_zero.mpr (by exact_mod_cast (not_le.mp h).ne')
    rw [if_neg h, nat_eq, Nat.cast_sub hn, Nat.cast_one, one_eq, ← ofReal_sub]
    dsimp only
    rw [← ofReal_div _ hparts]
    refine List.ext_getElem (by simp) fun i hi hi' => ?_
    rw [List.getElem_map, List.getElem_range, List.getElem_ofFn, nat_eq, ← ofReal_div _ hparts,
      ← ofReal_mul, ← ofReal_mul, ← ofReal_add, ← ofReal_add]
    split
    next hlast => rw [eigenvalue_last c (not_le.mp h) hlast]
    next =>
      split
      next => rw [eigenvalue, div_mul_eq_mul_div, mul_div_assoc, add_comm]
      next => rw [eigenvalue, add_comm]

theorem diagonal_ofFn (d : Fin n → ℝ) :
    diagonal (List.ofFn fun i => (ofReal (d i) : α))
      = List.ofFn fun i => List.ofFn fun j => ofReal (Matrix.diagonal d i j) := by
  unfold diagonal
  refine List.ext_getElem (by simp) fun i hi hi' => ?_
  rw [List.getElem_map, List.getElem_zipIdx, List.getElem_ofFn, List.getElem_ofFn]
  refine List.ext_getElem (by simp) fun j hj hj' => ?_
  simp only [List.getElem_map, List.getElem_range, List.getElem_ofFn, Nat.zero_add]
  by_cases hij : j = i
  · subst hij
    rw [if_pos rfl, Matrix.diagonal_apply_eq]
  · rw [if_neg hij, Matrix.diagonal_apply_ne _ fun h => hij (congrArg Fin.val h).symm, zero_eq]

theorem ofRows_eq_ok (A : Matrix (Fin n) (Fin n) ℝ) (hn : 1 ≤ n) :
    ∃ z : Tensor α, ofRows (List.ofFn fun i => List.ofFn fun j => ofReal (A i j)) = .ok z ∧
      z.RepresentsMatrix A := by
  have hwidth : ((List.ofFn fun i => List.ofFn fun j => (ofReal (A i j) : α)).headD []).length = n := by
    obtain ⟨k, rfl⟩ := Nat.exists_eq_add_of_le' hn
    rw [List.ofFn_succ, List.headD_cons, List.length_ofFn]
  have hlength : (Tensor.entriesOf A : List α).length = volume [n, n] := by
    rw [Tensor.length_entriesOf, volume_cons, volume_cons, volume_nil, Nat.mul_one]
  refine ⟨⟨[n, n], (Tensor.entriesOf A).map (Scalar.round .double), .double, by
    rw [List.length_map, hlength]⟩, ?_, rfl, Tensor.map_round_entriesOf _ _⟩
  unfold ofRows
  rw [hwidth, List.length_ofFn, Tensor.ofEntries?,
    show (List.ofFn fun i => List.ofFn fun j => (ofReal (A i j) : α)).flatten = Tensor.entriesOf A from rfl,
    dif_pos hlength]

end Arrays

end ShiftedQuadratic

/-! ## Matrices with given eigenvalues -/

/-- The matrix whose eigenvectors are the columns of an orthogonal one, with evenly spaced eigenvalues. -/
noncomputable def spread (Q : Matrix (Fin n) (Fin n) ℝ) (c : ℝ) : Matrix (Fin n) (Fin n) ℝ :=
  Q * Matrix.diagonal (eigenvalue c) * Qᵀ

section Spread

variable (Q : Matrix (Fin n) (Fin n) ℝ) (c : ℝ)

theorem isSymm_spread : (spread Q c).IsSymm := by
  rw [Matrix.IsSymm, spread, Matrix.transpose_mul, Matrix.transpose_mul, Matrix.transpose_transpose,
    Matrix.diagonal_transpose, Matrix.mul_assoc]

/-- The signs of the columns cancel. -/
theorem spread_mul_diagonal {signs : Fin n → ℝ} (h : ∀ i, signs i * signs i = 1) :
    spread (Q * Matrix.diagonal signs) c = spread Q c := by
  have hcancel : Matrix.diagonal signs * Matrix.diagonal (eigenvalue c) * Matrix.diagonal signs
      = Matrix.diagonal (eigenvalue c) := by
    rw [Matrix.diagonal_mul_diagonal, Matrix.diagonal_mul_diagonal]
    refine congrArg Matrix.diagonal (funext fun i => ?_)
    rw [mul_right_comm, h, one_mul]
  calc spread (Q * Matrix.diagonal signs) c
      = Q * (Matrix.diagonal signs * Matrix.diagonal (eigenvalue c) * Matrix.diagonal signs) * Qᵀ := by
        rw [spread, Matrix.transpose_mul, Matrix.diagonal_transpose]
        simp only [Matrix.mul_assoc]
    _ = spread Q c := by rw [hcancel, spread]

/-- In the coordinates of the transposed matrix the form is a weighted sum of squares. -/
theorem form_spread (r : Fin n → ℝ) :
    r ⬝ᵥ spread Q c *ᵥ r = ∑ i, eigenvalue c i * (Qᵀ *ᵥ r) i ^ 2 := by
  have hcoordinates : r ⬝ᵥ spread Q c *ᵥ r
      = (Qᵀ *ᵥ r) ⬝ᵥ Matrix.diagonal (eigenvalue c) *ᵥ (Qᵀ *ᵥ r) := by
    rw [spread, ← Matrix.mulVec_mulVec, ← Matrix.mulVec_mulVec, Matrix.dotProduct_mulVec,
      ← Matrix.mulVec_transpose]
  rw [hcoordinates, dotProduct]
  refine Finset.sum_congr rfl fun i _ => ?_
  rw [Matrix.mulVec_diagonal]
  ring

/-- An orthogonal matrix keeps squares. -/
theorem sum_sq_transpose_mulVec {Q : Matrix (Fin n) (Fin n) ℝ} (hQ : Q * Qᵀ = 1) (r : Fin n → ℝ) :
    ∑ i, (Qᵀ *ᵥ r) i ^ 2 = r ⬝ᵥ r := by
  calc ∑ i, (Qᵀ *ᵥ r) i ^ 2 = (Qᵀ *ᵥ r) ⬝ᵥ (Qᵀ *ᵥ r) := by simp only [dotProduct, sq]
    _ = r ⬝ᵥ (Q * Qᵀ) *ᵥ r := by
      rw [← Matrix.mulVec_mulVec, Matrix.dotProduct_mulVec r Q, Matrix.mulVec_transpose]
    _ = r ⬝ᵥ r := by rw [hQ, Matrix.one_mulVec]

/-- Eigenvalues are not less than one, and so is the form compared to the square. -/
theorem le_form_spread {Q : Matrix (Fin n) (Fin n) ℝ} (hQ : Q * Qᵀ = 1) {c : ℝ} (hc : 1 ≤ c)
    (r : Fin n → ℝ) : r ⬝ᵥ r ≤ r ⬝ᵥ spread Q c *ᵥ r := by
  rw [form_spread, ← sum_sq_transpose_mulVec hQ]
  exact Finset.sum_le_sum fun i _ => le_mul_of_one_le_left (sq_nonneg _) (one_le_eigenvalue hc i)

theorem form_spread_le {Q : Matrix (Fin n) (Fin n) ℝ} (hQ : Q * Qᵀ = 1) {c : ℝ} (hc : 1 ≤ c)
    (r : Fin n → ℝ) : r ⬝ᵥ spread Q c *ᵥ r ≤ c * (r ⬝ᵥ r) := by
  rw [form_spread, ← sum_sq_transpose_mulVec hQ, Finset.mul_sum]
  exact Finset.sum_le_sum fun i _ => mul_le_mul_of_nonneg_right (eigenvalue_le hc i) (sq_nonneg _)

/-- At a column of the orthogonal matrix, whose square is one, the form is the eigenvalue. -/
theorem form_spread_column {Q : Matrix (Fin n) (Fin n) ℝ} (hQ : Qᵀ * Q = 1) (c : ℝ) (j : Fin n) :
    Q.col j ⬝ᵥ Q.col j = 1 ∧ Q.col j ⬝ᵥ spread Q c *ᵥ Q.col j = eigenvalue c j := by
  have hcoordinates : Qᵀ *ᵥ Q.col j = Pi.single j 1 := by
    rw [← Matrix.mulVec_single_one, Matrix.mulVec_mulVec, hQ, Matrix.one_mulVec]
  have hsquare : Q.col j ⬝ᵥ Q.col j = 1 := by
    rw [← sum_sq_transpose_mulVec (mul_eq_one_comm.mp hQ), hcoordinates]
    simp [Pi.single_apply]
  refine ⟨hsquare, ?_⟩
  rw [form_spread, hcoordinates]
  simp [Pi.single_apply]

end Spread

/-- The terms of a quadratic function around a point. -/
theorem quadratic_add (A : Matrix (Fin n) (Fin n) ℝ) (b : Fin n → ℝ) (c : ℝ) (v u : Fin n → ℝ) :
    quadratic A b c (v + u)
      = quadratic A b c v + ((A + Aᵀ) *ᵥ v + b) ⬝ᵥ u + u ⬝ᵥ A *ᵥ u := by
  have hmixed : v ⬝ᵥ A *ᵥ u = (Aᵀ *ᵥ v) ⬝ᵥ u := by
    rw [Matrix.dotProduct_mulVec, Matrix.mulVec_transpose]
  rw [quadratic, quadratic, Matrix.mulVec_add, add_dotProduct, dotProduct_add, dotProduct_add,
    dotProduct_add, hmixed, Matrix.add_mulVec, add_dotProduct, add_dotProduct,
    dotProduct_comm u (A *ᵥ v)]
  ring

namespace ShiftedQuadratic

variable {α : Type} [ExactScalar α] {x basis centre : Tensor α} {Q : Matrix (Fin n) (Fin n) ℝ}

/-- On exact numbers the matrix is symmetric before it is made so. -/
theorem spdMatrix_eq_ok (hbasis : basis.RepresentsMatrix Q) (hn : 1 ≤ n) (c : ℝ) :
    ∃ b, spdMatrix basis (ofReal c) = .ok b ∧ b.RepresentsMatrix (spread Q c) := by
  obtain ⟨d, hd, hdA⟩ := ofRows_eq_ok (α := α) (Matrix.diagonal (eigenvalue c)) hn
  obtain ⟨scaled, hscaled, hscaledA⟩ := hbasis.mul hdA
  obtain ⟨b, hb, hbA⟩ := hscaledA.mul hbasis.reversed
  obtain ⟨both, hboth, hbothA⟩ := hbA.add hbA.reversed
  have hhalf := hbothA.map (f := (· / Scalar.two)) (g := (· / 2)) fun a => by
    rw [two_eq, ofReal_div a two_ne_zero]
  have hmean : (Q * Matrix.diagonal (eigenvalue c) * Qᵀ
      + (Q * Matrix.diagonal (eigenvalue c) * Qᵀ)ᵀ).map (· / 2) = spread Q c := by
    have hsymm := isSymm_spread Q c
    rw [Matrix.IsSymm, spread] at hsymm
    rw [hsymm, spread]
    ext i j
    rw [Matrix.map_apply, Matrix.add_apply, add_self_div_two]
  rw [hmean] at hhalf
  refine ⟨_, ?_, hhalf⟩
  unfold spdMatrix
  rw [hbasis.shape_eq, List.headD_cons]
  dsimp only
  rw [evenlySpaced_eq c hn, diagonal_ofFn, hd]
  show (basis.productOf d >>= _) = _
  rw [hscaled]
  show (scaled.productOf basis.reversed >>= _) = _
  rw [hb]
  show (b.stretched (· + ·) b.reversed >>= _) = _
  rw [hboth]
  rfl

theorem inner_toEuclideanLin (B : Matrix (Fin n) (Fin n) ℝ) (r s : Point n) :
    ⟪r, B.toEuclideanLin s⟫ = r.ofLp ⬝ᵥ B *ᵥ s.ofLp := by
  rw [EuclideanSpace.inner_eq_star_dotProduct, star_trivial, dotProduct_comm]
  rfl

theorem norm_sq_eq_dotProduct (r : Point n) : ‖r‖ ^ 2 = r.ofLp ⬝ᵥ r.ofLp := by
  rw [← real_inner_self_eq_norm_sq, EuclideanSpace.inner_eq_star_dotProduct, star_trivial]

/-- The columns of the orthogonal matrix are eigenvectors. -/
theorem form_spread_attained (hQ : Qᵀ * Q = 1) (c : ℝ) (j : Fin n) :
    let r : Point n := WithLp.toLp 2 (Q.col j)
    r ≠ 0 ∧ ⟪r, (spread Q c).toEuclideanLin r⟫ = eigenvalue c j * ‖r‖ ^ 2 := by
  intro r
  obtain ⟨hsquare, hform⟩ := form_spread_column hQ c j
  have hnorm : ‖r‖ ^ 2 = 1 := (norm_sq_eq_dotProduct r).trans hsquare
  refine ⟨?_, ?_⟩
  · rintro hr
    rw [hr, norm_zero, zero_pow two_ne_zero] at hnorm
    exact zero_ne_one hnorm
  · rw [inner_toEuclideanLin, hnorm, mul_one]
    exact hform

/-- The value of a quadratic around its centre. -/
noncomputable def valueAround (B : Matrix (Fin n) (Fin n) ℝ) (t v : Point n) : ℝ :=
  (v - t).ofLp ⬝ᵥ B *ᵥ (v - t).ofLp

/-- The gradient of a quadratic around its centre. -/
noncomputable def gradientAround (B : Matrix (Fin n) (Fin n) ℝ) (t v : Point n) : Point n :=
  WithLp.toLp _ ((B + Bᵀ) *ᵥ (v - t).ofLp)

theorem valueAround_eq (B : Matrix (Fin n) (Fin n) ℝ) (t v : Point n) :
    valueAround B t v = quadratic B 0 0 (v.ofLp - t.ofLp) := by
  rw [valueAround, quadratic, zero_dotProduct, add_zero, add_zero]
  rfl

/-- Around every point the value has the terms of the gradient and of the form. -/
theorem valueAround_eq_add (B : Matrix (Fin n) (Fin n) ℝ) (t v w : Point n) :
    valueAround B t w
      = valueAround B t v + ⟪gradientAround B t v, w - v⟫ + ⟪w - v, B.toEuclideanLin (w - v)⟫ := by
  have hpoint : w.ofLp - t.ofLp = (v.ofLp - t.ofLp) + (w.ofLp - v.ofLp) := by abel
  rw [valueAround_eq, hpoint, quadratic_add, ← valueAround_eq, inner_toEuclideanLin,
    EuclideanSpace.inner_eq_star_dotProduct, star_trivial, dotProduct_comm (w - v).ofLp, add_zero]
  rfl

theorem valueAround_self (B : Matrix (Fin n) (Fin n) ℝ) (t : Point n) : valueAround B t t = 0 := by
  rw [valueAround, sub_self]
  exact zero_dotProduct _

/-- The value is not below the square of the distance if the form is not below the square of the norm. -/
theorem le_valueAround {B : Matrix (Fin n) (Fin n) ℝ}
    (hB : ∀ r : Point n, ‖r‖ ^ 2 ≤ ⟪r, B.toEuclideanLin r⟫) (t v : Point n) :
    ‖v - t‖ ^ 2 ≤ valueAround B t v := by
  rw [valueAround, ← inner_toEuclideanLin]
  exact hB (v - t)

/-- A form that is not below the square of the norm has its only minimum at the centre. -/
theorem valueAround_least_iff {B : Matrix (Fin n) (Fin n) ℝ}
    (hB : ∀ r : Point n, ‖r‖ ^ 2 ≤ ⟪r, B.toEuclideanLin r⟫) {t v : Point n} :
    (∀ w, valueAround B t v ≤ valueAround B t w) ↔ v = t := by
  have hcentre : valueAround B t t = 0 := valueAround_self B t
  constructor
  · intro h
    have hsquare : ‖v - t‖ ^ 2 ≤ 0 := (le_valueAround hB t v).trans ((h t).trans hcentre.le)
    exact sub_eq_zero.mp (norm_eq_zero.mp (pow_eq_zero_iff two_ne_zero |>.mp
      (le_antisymm hsquare (sq_nonneg _))))
  · rintro rfl w
    rw [hcentre]
    exact (sq_nonneg _).trans (le_valueAround hB v w)

/-- On exact numbers, for every orthogonal matrix, every condition from one on and every centre: the
matrix that is built is symmetric, its form is between the square of the norm and `c` times this square, and
is equal to either at some vector if there are two dimensions, and the signs of the columns of the orthogonal
matrix make no difference. The quadratic with this matrix has around every point no terms but its gradient
and the form. It is not below the square of the distance from the centre, which is its only minimum. -/
theorem of_spdMatrix (hn : 1 ≤ n) {c : ℝ} (hc : 1 ≤ c) (hQ : Qᵀ * Q = 1 ∧ Q * Qᵀ = 1)
    (hbasis : basis.RepresentsMatrix Q) {t : Point n} (hcentre : centre.Represents [n] t) :
    ∃ (b : Tensor α) (q : ShiftedQuadratic α) (B : Matrix (Fin n) (Fin n) ℝ),
      spdMatrix basis (ofReal c) = .ok b ∧ b.RepresentsMatrix B ∧ of b centre = .ok q ∧
      B.IsSymm ∧
      (∀ r : Point n, ‖r‖ ^ 2 ≤ ⟪r, B.toEuclideanLin r⟫ ∧ ⟪r, B.toEuclideanLin r⟫ ≤ c * ‖r‖ ^ 2) ∧
      (2 ≤ n → (∃ r : Point n, r ≠ 0 ∧ ⟪r, B.toEuclideanLin r⟫ = ‖r‖ ^ 2) ∧
        ∃ r : Point n, r ≠ 0 ∧ ⟪r, B.toEuclideanLin r⟫ = c * ‖r‖ ^ 2) ∧
      (∀ (signs : Fin n → ℤˣ) (basis' : Tensor α),
        basis'.RepresentsMatrix (Matrix.of fun i j => Q i j * (signs j : ℝ)) →
        ∃ b', spdMatrix basis' (ofReal c) = .ok b' ∧ b'.RepresentsMatrix B) ∧
      (∀ (x : Tensor α) (v : Point n), x.Represents [n] v →
        q.loss x = .ok (ofReal (valueAround B t v)) ∧
        ∃ g, q.grad x = .ok g ∧ g.Represents [n] (gradientAround B t v)) ∧
      (∀ v w, valueAround B t w = valueAround B t v + ⟪gradientAround B t v, w - v⟫
        + ⟪w - v, B.toEuclideanLin (w - v)⟫) ∧
      (∀ v, ‖v - t‖ ^ 2 ≤ valueAround B t v) ∧
      q.minimizer.Represents [n] t ∧
      ∀ v, (∀ w, valueAround B t v ≤ valueAround B t w) ↔ v = t := by
  obtain ⟨b, hb, hbB⟩ := spdMatrix_eq_ok hbasis hn c
  have hq : of b centre = .ok ⟨b, centre⟩ := by
    unfold of
    rw [hbB.shape_eq, hcentre.shape_eq]
    simp
  have hlower : ∀ r : Point n, ‖r‖ ^ 2 ≤ ⟪r, (spread Q c).toEuclideanLin r⟫ := fun r => by
    rw [norm_sq_eq_dotProduct, inner_toEuclideanLin]
    exact le_form_spread hQ.2 hc r.ofLp
  refine ⟨b, ⟨b, centre⟩, spread Q c, hb, hbB, hq, isSymm_spread Q c, fun r => ⟨hlower r, ?_⟩,
    fun hn2 => ⟨?_, ?_⟩, fun signs basis' hbasis' => ?_, fun x v hx => ?_,
    fun v w => valueAround_eq_add _ t v w, le_valueAround hlower t, hcentre,
    fun v => valueAround_least_iff hlower⟩
  · rw [norm_sq_eq_dotProduct, inner_toEuclideanLin]
    exact form_spread_le hQ.2 hc r.ofLp
  · obtain ⟨hne, hvalue⟩ := form_spread_attained hQ.1 c (⟨0, hn⟩ : Fin n)
    rw [eigenvalue_first, one_mul] at hvalue
    exact ⟨_, hne, hvalue⟩
  · obtain ⟨hne, hvalue⟩ := form_spread_attained hQ.1 c (⟨n - 1, by omega⟩ : Fin n)
    rw [eigenvalue_last c hn2 (Nat.sub_add_cancel hn)] at hvalue
    exact ⟨_, hne, hvalue⟩
  · obtain ⟨b', hb', hbB'⟩ := spdMatrix_eq_ok hbasis' hn c
    have hcolumns : (Matrix.of fun i j => Q i j * (signs j : ℝ))
        = Q * Matrix.diagonal fun j => ((signs j : ℤ) : ℝ) := by
      ext i j
      rw [Matrix.mul_diagonal, Matrix.of_apply]
    rw [hcolumns, spread_mul_diagonal Q c fun i => by exact_mod_cast Int.units_coe_mul_self (signs i)]
      at hbB'
    exact ⟨b', hb', hbB'⟩
  · rw [valueAround_eq]
    exact ⟨loss_eq_ok hbB hcentre hx, grad_eq_ok hbB hcentre hx⟩

/-- A rotated parabola with eigenvalues one and ten around (1, -1). -/
theorem of_spdMatrix_rotated :
    let Q : Matrix (Fin 2) (Fin 2) ℝ := !![3 / 5, -4 / 5; 4 / 5, 3 / 5]
    let t : Point 2 := WithLp.toLp 2 ![1, -1]
    let basis : Tensor ℝ := .ofMatrix .double Q
    let centre : Tensor ℝ := .ofPoint .double t
    (1 ≤ 2 ∧ (1 : ℝ) ≤ 10 ∧ (Qᵀ * Q = 1 ∧ Q * Qᵀ = 1) ∧ basis.RepresentsMatrix Q ∧
      centre.Represents [2] t) ∧
    ∃ (b : Tensor ℝ) (q : ShiftedQuadratic ℝ), spdMatrix basis 10 = .ok b ∧ of b centre = .ok q ∧
      (∀ v : Point 2, ∃ value : ℝ, q.loss (.ofPoint .double v) = .ok value ∧ ‖v - t‖ ^ 2 ≤ value) ∧
      q.loss centre = .ok 0 := by
  intro Q t basis centre
  have hQ : Qᵀ * Q = 1 ∧ Q * Qᵀ = 1 := by
    constructor <;>
    · ext i j
      fin_cases i <;> fin_cases j <;> norm_num [Q, Matrix.mul_apply, Fin.sum_univ_two]
  have hbasis : basis.RepresentsMatrix Q := Tensor.representsMatrix_ofMatrix .double Q
  have hcentre : centre.Represents [2] t := Tensor.represents_ofPoint .double t
  have hc : (1 : ℝ) ≤ 10 := by norm_num
  obtain ⟨b, q, B, hb, -, hq, -, -, -, -, hvalues, -, hlower, -⟩ :=
    of_spdMatrix (by decide) hc hQ hbasis hcentre
  refine ⟨⟨by decide, hc, hQ, hbasis, hcentre⟩, b, q, hb, hq, fun v => ?_, ?_⟩
  · exact ⟨_, (hvalues _ v (Tensor.represents_ofPoint .double v)).1, hlower v⟩
  · rw [(hvalues _ t hcentre).1, valueAround_self]
    rfl

end ShiftedQuadratic

end Minimization
