import Mathlib.Analysis.InnerProductSpace.PiL2
import Minimization.Proofs.Exact.Number
import Minimization.Proofs.Tensor.Entries

/-!
# Arrays of exact numbers as points of Euclidean space

`x.Represents shape v` says that the array `x` has the shape and that its entries are the
coordinates of the point `v`. On such arrays every operation is the operation of Euclidean space:
sums, multiples, inner products and norms are those of the points, and bringing an array to norm one is
`unit`. What the solvers compute with arrays can therefore be read as vector algebra.

Over the real numbers every array represents a point, `Tensor.toPoint`.
-/

namespace Minimization

open ExactScalar
open scoped RealInnerProductSpace

/-- Euclidean space of a dimension. -/
abbrev Point (n : Nat) := EuclideanSpace ℝ (Fin n)

/-- The point in the direction of another one with norm one; a point whose norm is below the
threshold stays as it is. -/
noncomputable def unit {n : Nat} (threshold : ℝ) (v : Point n) : Point n :=
  if ‖v‖ < threshold then v else ‖v‖⁻¹ • v

/-- The threshold of arrays whose norm is negligible. -/
noncomputable def negligible : ℝ := Tensor.negligible

theorem negligible_eq : negligible = 1 / 10 ^ 7 := by
  rw [negligible, Tensor.negligible, decimal_eq, ofReal_real, Nat.cast_one]

theorem negligible_pos : 0 < negligible := by
  rw [negligible_eq]
  positivity

theorem negligible_le_one : negligible ≤ 1 := by
  rw [negligible_eq]
  norm_num

theorem unit_of_lt {n : Nat} {threshold : ℝ} {v : Point n} (hv : ‖v‖ < threshold) :
    unit threshold v = v :=
  if_pos hv

theorem unit_of_le {n : Nat} {threshold : ℝ} {v : Point n} (hv : threshold ≤ ‖v‖) :
    unit threshold v = ‖v‖⁻¹ • v :=
  if_neg (not_lt.mpr hv)

/-- A point that is not negligible is brought to norm one. -/
theorem norm_unit {n : Nat} {threshold : ℝ} (h₀ : 0 < threshold) {v : Point n} (hv : threshold ≤ ‖v‖) :
    ‖unit threshold v‖ = 1 := by
  have hne : ‖v‖ ≠ 0 := (h₀.trans_le hv).ne'
  rw [unit_of_le hv, norm_smul, norm_inv, norm_norm, inv_mul_cancel₀ hne]

/-- A point brought to norm one is not longer than one, whether it was negligible or not. -/
theorem norm_unit_le_one {n : Nat} {threshold : ℝ} (h₀ : 0 < threshold) (h₁ : threshold ≤ 1)
    (v : Point n) : ‖unit threshold v‖ ≤ 1 := by
  rcases lt_or_ge ‖v‖ threshold with hv | hv
  · rw [unit_of_lt hv]
    exact hv.le.trans h₁
  · exact (norm_unit h₀ hv).le

/-- A point that was brought to norm one stays as it is, on whichever side of the threshold one lies. -/
theorem unit_unit {n : Nat} {threshold : ℝ} (h₀ : 0 < threshold) (v : Point n) :
    unit threshold (unit threshold v) = unit threshold v := by
  rcases lt_or_ge ‖v‖ threshold with hv | hv
  · rw [unit_of_lt hv, unit_of_lt hv]
  · have hone : ‖unit threshold v‖ = 1 := norm_unit h₀ hv
    rcases lt_or_ge ‖unit threshold v‖ threshold with hu | hu
    · exact unit_of_lt hu
    · rw [unit_of_le hu, hone, inv_one, one_smul]

/-- The opposite point has the opposite direction. -/
theorem unit_neg {n : Nat} (threshold : ℝ) (v : Point n) :
    unit threshold (-v) = -unit threshold v := by
  rcases lt_or_ge ‖v‖ threshold with hv | hv
  · rw [unit_of_lt hv, unit_of_lt (by rwa [norm_neg])]
  · rw [unit_of_le hv, unit_of_le (by rwa [norm_neg]), norm_neg, smul_neg]

/-- A positive factor does not change the direction of a point, unless it moves the point across the
threshold. -/
theorem unit_smul {n : Nat} {threshold c : ℝ} (hc : 0 < c) {v : Point n} (hv : threshold ≤ ‖v‖)
    (hcv : threshold ≤ c * ‖v‖) : unit threshold (c • v) = unit threshold v := by
  have hnorm : ‖c • v‖ = c * ‖v‖ := by rw [norm_smul, Real.norm_eq_abs, abs_of_pos hc]
  rw [unit_of_le hv, unit_of_le (hnorm ▸ hcv), hnorm, smul_smul, mul_inv, mul_right_comm,
    inv_mul_cancel₀ hc.ne', one_mul]

/-- A point and its direction enclose no obtuse angle. -/
theorem inner_unit_nonneg {n : Nat} (threshold : ℝ) (v : Point n) : 0 ≤ ⟪v, unit threshold v⟫ := by
  unfold unit
  split
  next => exact real_inner_self_nonneg
  next =>
    rw [inner_smul_right]
    exact mul_nonneg (inv_nonneg.mpr (norm_nonneg v)) real_inner_self_nonneg

namespace Tensor

variable {α : Type} [ExactScalar α] {n : Nat} {shape shape' : List Nat}

/-- The array has the shape, and its entries are the coordinates of the point. -/
structure Represents (x : Tensor α) (shape : List Nat) (v : Point n) : Prop where
  shape_eq : x.shape = shape
  entries_eq : x.entries = List.ofFn fun i => (ofReal (v i) : α)

/-- The vector with the coordinates of a point. -/
def ofPoint (p : Precision) (v : Point n) : Tensor α where
  shape := [n]
  entries := List.ofFn fun i => ofReal (v i)
  precision := p
  length_entries := by simp

theorem represents_ofPoint (p : Precision) (v : Point n) :
    (ofPoint p v : Tensor α).Represents [n] v :=
  ⟨rfl, rfl⟩

/-- The entries of a vector of exact numbers are kept as they are. -/
theorem entries_vector {β : Type} (p : Precision) (f : β → ℝ) (xs : List β) :
    (vector p (xs.map fun b => (ofReal (f b) : α))).entries = xs.map fun b => ofReal (f b) := by
  show (xs.map _).map _ = _
  rw [List.map_map]
  exact List.map_congr_left fun b _ => round_ofReal p (f b)

theorem represents_vector (p : Precision) (v : Point n) :
    (vector p (List.ofFn fun i => (ofReal (v i) : α))).Represents [n] v where
  shape_eq := by
    show [(List.ofFn _).length] = _
    rw [List.length_ofFn]
  entries_eq := by
    rw [List.ofFn_eq_map]
    exact entries_vector p (fun i => v i) _

theorem zipWith_ofFn {β γ δ : Type} (f : β → γ → δ) (u : Fin n → β) (v : Fin n → γ) :
    List.zipWith f (List.ofFn u) (List.ofFn v) = List.ofFn fun i => f (u i) (v i) := by
  apply List.ext_getElem <;> simp

/-- Sums of exact numbers, taken term by term with rounding, are sums. -/
theorem foldl_round_eq (p : Precision) (f : Fin n → ℝ) (a : ℝ) :
    (List.ofFn fun i => (ofReal (f i) : α)).foldl
        (fun s v => Scalar.round p (s + Scalar.round p v)) (ofReal a)
      = ofReal (a + ∑ i, f i) := by
  induction n generalizing a with
  | zero => simp
  | succ n ih =>
    rw [List.ofFn_succ, List.foldl_cons, round_ofReal, ← ofReal_add, round_ofReal,
      ih (fun i => f i.succ), Fin.sum_univ_succ, add_assoc]

theorem innerSum_eq_sum (p : Precision) (v w : Fin n → ℝ) :
    innerSum p (List.ofFn fun i => (ofReal (v i) : α)) (List.ofFn fun i => ofReal (w i))
      = ofReal (∑ i, v i * w i) := by
  have h := foldl_round_eq (α := α) p (fun i => v i * w i) 0
  simp only [ofReal_mul, zero_add] at h
  rw [innerSum, zipWith_ofFn, zero_eq, h]

theorem innerSum_ofFn (p : Precision) (v w : Point n) :
    innerSum p (List.ofFn fun i => (ofReal (v i) : α)) (List.ofFn fun i => ofReal (w i))
      = ofReal ⟪v, w⟫ := by
  rw [innerSum_eq_sum, PiLp.inner_apply]
  refine congrArg ofReal (Finset.sum_congr rfl fun i _ => ?_)
  rw [RCLike.inner_apply, conj_trivial, mul_comm]

namespace Represents

variable {x y : Tensor α} {v w : Point n}

theorem size_eq (h : x.Represents shape v) : x.size = n := by
  rw [Tensor.size, h.entries_eq, List.length_ofFn]

/-- An array represents at most one point. -/
theorem unique (hv : x.Represents shape v) (hw : x.Represents shape' w) : v = w := by
  have h := List.ofFn_injective (hv.entries_eq.symm.trans hw.entries_eq)
  ext i
  exact ofReal_injective (congrFun h i)

/-- Exact numbers are kept as they are with every precision. -/
theorem convert (h : x.Represents shape v) (p : Precision) : (x.convert p).Represents shape v where
  shape_eq := h.shape_eq
  entries_eq := by
    show x.entries.map (Scalar.round p) = _
    rw [h.entries_eq, List.map_ofFn]
    exact congrArg List.ofFn (funext fun i => round_ofReal p (v i))

theorem isKept (h : x.Represents shape v) : x.IsKept x.precision :=
  ⟨rfl, (h.convert x.precision).entries_eq.trans h.entries_eq.symm⟩

/-- Arrays that represent one point with one precision are equal. -/
theorem eq (hx : x.Represents shape v) (hy : y.Represents shape v) (hp : x.precision = y.precision) :
    x = y :=
  ext (hx.shape_eq.trans hy.shape_eq.symm) (hx.entries_eq.trans hy.entries_eq.symm) hp

/-- Arrays that represent one point are equal up to their precisions. -/
theorem eq_convert {p : Precision} (hx : x.Represents shape v) (hp : x.precision = p)
    (hy : y.Represents shape v) : x = y.convert p :=
  hx.eq (hy.convert p) hp

theorem flatten (h : x.Represents shape v) : x.flatten.Represents [n] v where
  shape_eq := congrArg (fun k => [k]) h.size_eq
  entries_eq := h.entries_eq

theorem scale (h : x.Represents shape v) (c : ℝ) :
    (x.scale (ofReal c)).Represents shape (c • v) where
  shape_eq := h.shape_eq
  entries_eq := by
    show x.entries.map _ = _
    rw [h.entries_eq, List.map_ofFn]
    refine congrArg List.ofFn (funext fun i => ?_)
    simp only [Function.comp_apply, round_ofReal, PiLp.smul_apply, smul_eq_mul]
    rw [← ofReal_mul, round_ofReal, mul_comm]

/-- Arrays of one shape combine entry by entry. -/
theorem combine {f : α → α → α} {g : ℝ → ℝ → ℝ}
    (hf : ∀ a b, f (ofReal a) (ofReal b) = ofReal (g a b))
    {u : Point n} (hu : ∀ i, u i = g (v i) (w i)) (operation : String)
    (hx : x.Represents shape v) (hy : y.Represents shape w) :
    ∃ z, Tensor.combine operation f x y = .ok z ∧ z.Represents shape u := by
  have hs : x.shape = y.shape := hx.shape_eq.trans hy.shape_eq.symm
  refine ⟨_, dif_pos hs, hx.shape_eq, ?_⟩
  show List.zipWith _ x.entries y.entries = _
  rw [hx.entries_eq, hy.entries_eq, zipWith_ofFn]
  refine congrArg List.ofFn (funext fun i => ?_)
  rw [hf, round_ofReal, hu]

theorem add (hx : x.Represents shape v) (hy : y.Represents shape w) :
    ∃ z, x.add y = .ok z ∧ z.Represents shape (v + w) :=
  combine (fun a b => (ofReal_add a b).symm) (fun _ => rfl) _ hx hy

theorem addInto (hx : x.Represents shape v) (hy : y.Represents shape w) :
    ∃ z, x.addInto y = .ok z ∧ z.Represents shape (v + w) := by
  obtain ⟨z, hz, h⟩ :=
    combine (fun a b => (ofReal_add a b).symm) (fun _ => rfl) "add_inp" hx hy (u := v + w)
  exact ⟨z.convert x.precision, by rw [Tensor.addInto, combineInto, hz]; rfl, h.convert _⟩

theorem subInto (hx : x.Represents shape v) (hy : y.Represents shape w) :
    ∃ z, x.subInto y = .ok z ∧ z.Represents shape (v - w) := by
  obtain ⟨z, hz, h⟩ :=
    combine (fun a b => (ofReal_sub a b).symm) (fun _ => rfl) "sub_inp" hx hy (u := v - w)
  exact ⟨z.convert x.precision, by rw [Tensor.subInto, combineInto, hz]; rfl, h.convert _⟩

/-- A step of the shape of the array is added to it. A single number is moved by a single number, so
that it does not matter that such a step would move every entry of any array. -/
theorem moveBy (hx : x.Represents shape v) (hy : y.Represents shape w) :
    ∃ z, x.moveBy y = .ok z ∧ z.Represents shape (v + w) := by
  unfold Tensor.moveBy
  split
  next s hs he =>
    obtain rfl : shape = [] := hy.shape_eq.symm.trans hs
    refine ⟨_, rfl, hx.shape_eq, ?_⟩
    show x.entries.map _ = _
    -- Both arrays are single numbers, so there is one coordinate.
    have hn : n = 1 := by rw [← hy.size_eq, Tensor.size, he]; rfl
    subst hn
    rw [hy.entries_eq, List.ofFn_succ, List.ofFn_zero, List.cons.injEq] at he
    rw [hx.entries_eq, List.map_ofFn]
    refine congrArg List.ofFn (funext fun i => ?_)
    show Scalar.round _ (ofReal (v i) + Scalar.round _ s) = _
    rw [← he.1, round_ofReal, ← ofReal_add, round_ofReal, Fin.fin_one_eq_zero i]
    rfl
  next => exact hx.add hy

/-- Inner products do not look at shapes. -/
theorem inner (hx : x.Represents shape v) (hy : y.Represents shape' w) :
    x.inner y = .ok (ofReal ⟪v, w⟫) := by
  rw [Tensor.inner, if_neg (by rw [hx.size_eq, hy.size_eq]; exact not_not.mpr rfl), hx.entries_eq,
    hy.entries_eq, innerSum_ofFn]

theorem norm (h : x.Represents shape v) : x.norm = ofReal ‖v‖ := by
  rw [Tensor.norm, normSquared, h.entries_eq, innerSum_ofFn, sqrt_ofReal real_inner_self_nonneg,
    round_ofReal, norm_eq_sqrt_real_inner]

theorem negligible_eq : (Tensor.negligible : α) = ofReal Minimization.negligible := by
  rw [Tensor.negligible, decimal_eq, Nat.cast_one, Minimization.negligible_eq]

/-- The reciprocal is taken of a norm that is at least the threshold, so not of zero. -/
theorem normalizeAbove (h : x.Represents shape v) {threshold : ℝ} (ht : 0 < threshold) :
    ∃ z, x.normalizeAbove (ofReal threshold) = .ok z ∧ z.Represents shape (unit threshold v) := by
  unfold Tensor.normalizeAbove
  rw [h.norm, lt_ofReal]
  rcases lt_or_ge ‖v‖ threshold with hv | hv
  · rw [if_pos (decide_eq_true hv), unit_of_lt hv]
    exact ⟨x, rfl, h⟩
  · rw [if_neg (by simpa using hv), unit_of_le hv, one_eq,
      divide_ofReal 1 (ht.trans_le hv).ne', one_div]
    exact ⟨_, rfl, h.scale ‖v‖⁻¹⟩

theorem normalize (h : x.Represents shape v) (p : Precision) :
    ∃ z, x.normalize p = .ok z ∧ z.Represents shape (unit Minimization.negligible v) := by
  rw [Tensor.normalize, negligible_eq]
  exact (h.convert p).normalizeAbove negligible_pos

end Represents

/-- The point that an array of real numbers represents. -/
noncomputable def toPoint (n : Nat) (x : Tensor ℝ) : Point n :=
  WithLp.toLp _ fun i => x.entries.getD i 0

theorem represents_toPoint {x : Tensor ℝ} (hx : x.shape = shape) (hn : volume shape = n) :
    x.Represents shape (x.toPoint n) where
  shape_eq := hx
  entries_eq := by
    have hl : x.entries.length = n := by rw [x.length_entries, hx, hn]
    apply List.ext_getElem
    · rw [hl, List.length_ofFn]
    · intro i hi _
      simp [toPoint, List.getElem?_eq_getElem hi]

theorem Represents.toPoint_eq {x : Tensor ℝ} {v : Point n} (h : x.Represents shape v) :
    x.toPoint n = v := by
  ext i
  simp [toPoint, h.entries_eq]

/-- Converting an array of real numbers does not move its point. -/
theorem toPoint_convert (p : Precision) (x : Tensor ℝ) : (x.convert p).toPoint n = x.toPoint n := by
  have h : (x.convert p).entries = x.entries := List.map_id x.entries
  rw [toPoint, toPoint, h]

end Tensor

end Minimization
