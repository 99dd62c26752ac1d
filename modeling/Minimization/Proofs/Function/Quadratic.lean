import Minimization.Function.Closed
import Minimization.Objective.Quadratic
import Minimization.Proofs.Exact.Matrix
import Minimization.Proofs.Function.Probing
import Minimization.Proofs.Problem.Evaluations

/-!
# Estimated gradients of quadratic functions

The difference of the values of a quadratic function on both sides of a point is linear in the step, so central
differences of exact numbers are its gradient, whatever the step is; forward differences are off by the
step times the diagonal of the matrix, which need not be symmetric (`quadratic_add_single`). So where the
library has a quadratic function with a gradient of its own, central differences agree with it
(`Estimator.run_quadratic`).
-/

namespace Minimization

open ExactScalar
open scoped Matrix

variable {n : Nat}

/-! ## Differences of a quadratic function -/

/-- The quadratic function of a matrix, coefficients and a constant. -/
def quadratic (A : Matrix (Fin n) (Fin n) ℝ) (b : Fin n → ℝ) (c : ℝ) (v : Fin n → ℝ) : ℝ :=
  v ⬝ᵥ A *ᵥ v + b ⬝ᵥ v + c

/-- A change of one coordinate. -/
theorem quadratic_add_single (A : Matrix (Fin n) (Fin n) ℝ) (b : Fin n → ℝ) (c : ℝ) (v : Fin n → ℝ)
    (i : Fin n) (t : ℝ) :
    quadratic A b c (v + Pi.single i t)
      = quadratic A b c v + t * ((A + Aᵀ) *ᵥ v + b) i + t ^ 2 * A i i := by
  have hcolumn : v ⬝ᵥ A *ᵥ Pi.single i t = t * (Aᵀ *ᵥ v) i := by
    rw [Matrix.mulVec_single, Matrix.mulVec_transpose]
    simp [Matrix.vecMul, dotProduct, Finset.mul_sum, mul_left_comm, mul_comm]
  have hdiagonal : (A *ᵥ Pi.single i t) i = A i i * t := by
    rw [Matrix.mulVec_single]
    simp
  rw [quadratic, quadratic, Matrix.mulVec_add, add_dotProduct, dotProduct_add, dotProduct_add,
    dotProduct_add, single_dotProduct, single_dotProduct, dotProduct_single, hcolumn, hdiagonal,
    Matrix.add_mulVec, Pi.add_apply, Pi.add_apply]
  ring

theorem central_quadratic (A : Matrix (Fin n) (Fin n) ℝ) (b : Fin n → ℝ) (c : ℝ) (v : Fin n → ℝ)
    (i : Fin n) {h : ℝ} (hh : h ≠ 0) :
    (quadratic A b c (v + Pi.single i h) - quadratic A b c (v + Pi.single i (-h))) * (1 / 2 / h)
      = ((A + Aᵀ) *ᵥ v + b) i := by
  rw [quadratic_add_single, quadratic_add_single]
  field_simp
  ring

theorem forward_quadratic (A : Matrix (Fin n) (Fin n) ℝ) (b : Fin n → ℝ) (c : ℝ) (v : Fin n → ℝ)
    (i : Fin n) {h : ℝ} (hh : h ≠ 0) :
    (quadratic A b c (v + Pi.single i h) - quadratic A b c v) / h
      = ((A + Aᵀ) *ᵥ v + b + h • A.diag) i := by
  rw [quadratic_add_single, Pi.add_apply _ (h • A.diag), Pi.smul_apply, smul_eq_mul, Matrix.diag_apply]
  field_simp
  ring

/-! ## Estimates at points -/

section Points

variable {α : Type} [ExactScalar α] {shape : List Nat} {x : Tensor α} {v : Point n}

/-- A change of one entry is a change of one coordinate. -/
theorem Tensor.Represents.modifyAt (hx : x.Represents shape v) (i : Fin n) {g : α → α} {a : ℝ}
    (hg : ∀ b, g (ofReal b) = ofReal (b + a)) :
    (x.modifyAt i g).Represents shape (v + EuclideanSpace.single i a) where
  shape_eq := hx.shape_eq
  entries_eq := by
    show x.entries.modify i (fun b => Scalar.round x.precision (g b)) = _
    rw [hx.entries_eq]
    refine List.ext_getElem (by simp) fun j hj hj' => ?_
    rw [List.getElem_modify, List.getElem_ofFn, List.getElem_ofFn]
    split
    next hij =>
      subst hij
      rw [hg, round_ofReal, PiLp.add_apply, PiLp.single_apply, if_pos rfl]
    next hij =>
      have hne : (⟨j, by simpa using hj'⟩ : Fin n) ≠ i := fun h => hij (congrArg Fin.val h).symm
      rw [PiLp.add_apply, PiLp.single_apply, if_neg hne, add_zero]

variable {m : Type → Type} [Monad m] {ω : Type} [Stateful m ω] {f : Tensor α → Evaluation m α}
  {F : (Fin n → ℝ) → ℝ} {w : ω}

/-- At the arrays of a shape the function has the values of a function of their points, without traces. -/
def Takes (w : ω) (f : Tensor α → Evaluation m α) (shape : List Nat) (F : (Fin n → ℝ) → ℝ) : Prop :=
  ∀ (x : Tensor α) (v : Point n), x.Represents shape v → attempt (f x) w = (.ok (ofReal (F v.ofLp)), w)

theorem Difference.quotients_central (h : α) (a b : Fin n → α) (is : List (Fin n)) :
    Difference.quotients h .central (is.flatMap fun i => [a i, b i])
      = is.map fun i => (a i - b i) * (Scalar.half / h) := by
  induction is with
  | nil => rfl
  | cons i is ih =>
    rw [List.flatMap_cons, List.map_cons, ← ih]
    rfl

theorem Tensor.Represents.evaluates_modifyAt (hf : Takes w f shape F) (hx : x.Represents shape v)
    (i : Fin n) {g : α → α} {a : ℝ} (hg : ∀ b, g (ofReal b) = ofReal (b + a)) :
    Evaluates f w [x.modifyAt i g] [ofReal (F (v.ofLp + Pi.single i a))] w :=
  .cons (hf _ _ (hx.modifyAt i hg)) .none

theorem evaluates_forward (hf : Takes w f shape F) (hx : x.Represents shape v) (h : ℝ) :
    Evaluates f w (Difference.forward.points (ofReal h) x)
      (ofReal (F v.ofLp) :: List.ofFn fun i => ofReal (F (v.ofLp + Pi.single i h))) w := by
  have hmoved := Evaluates.flatMap
    (fun i => hx.evaluates_modifyAt hf i (g := (· + ofReal h)) fun b => (ofReal_add b h).symm)
    (List.finRange n)
  rw [← List.map_eq_flatMap, ← List.map_eq_flatMap] at hmoved
  rw [Difference.points, hx.size_eq, ← List.map_coe_finRange_eq_range, List.map_map, List.ofFn_eq_map]
  exact .cons (hf x v hx) hmoved

theorem evaluates_central (hf : Takes w f shape F) (hx : x.Represents shape v) (h : ℝ) :
    Evaluates f w (Difference.central.points (ofReal h) x)
      ((List.finRange n).flatMap fun i =>
        [ofReal (F (v.ofLp + Pi.single i h)), ofReal (F (v.ofLp + Pi.single i (-h)))]) w := by
  have hsub : ∀ b : ℝ, (ofReal b - ofReal h : α) = ofReal (b + -h) := fun b => by
    rw [← ofReal_sub, sub_eq_add_neg]
  rw [Difference.points, hx.size_eq, ← List.map_coe_finRange_eq_range, List.flatMap_map]
  exact .flatMap (fun i =>
    (hx.evaluates_modifyAt hf i fun b => (ofReal_add b h).symm).append
      (hx.evaluates_modifyAt hf i hsub)) _

/-- The estimator of a rule with a step gives the array at a vector, which it leaves as it was. -/
def Difference.Gives (d : Difference) (f : Rule m α) (h : α) (p : Precision) (x : Tensor α) (w : ω)
    (g : Tensor α) : Prop :=
  ∃ e, Estimator.of? d f h = some e ∧ Stateful.run (e.run p x) w = ((.ok g, x), w)

theorem Difference.gives_of_evaluates (d : Difference) (hx : x.Represents shape v) {h : ℝ} (hh : 0 < h)
    (p : Precision) {values : List α} (hvalues : Evaluates f w (d.points (ofReal h) x) values w) :
    d.Gives (.ofNumbers f) (ofReal h) p x w (.vector p (d.quotients (ofReal h) values)) := by
  have hpositive : Scalar.le (ofReal h : α) Scalar.zero = false := by
    rw [zero_eq, le_ofReal]
    exact decide_eq_false (not_le.mpr hh)
  refine ⟨⟨d, .ofNumbers f, ofReal h⟩, ?_,
    Estimator.run_of_survey hx.isKept p d _ hvalues.attempt_survey⟩
  rw [Estimator.of?, hpositive]
  rfl

theorem Difference.gives_forward (hf : Takes w f shape F) (hx : x.Represents shape v) {h : ℝ}
    (hh : 0 < h) (p : Precision) {u : Point n}
    (hu : ∀ i, (F (v.ofLp + Pi.single i h) - F v.ofLp) / h = u i) :
    ∃ g, Difference.forward.Gives (.ofNumbers f) (ofReal h) p x w g ∧ g.precision = p ∧
      g.Represents [n] u := by
  have hquotients : Difference.quotients (ofReal h) .forward
      (ofReal (F v.ofLp) :: List.ofFn fun i => ofReal (F (v.ofLp + Pi.single i h)))
        = List.ofFn fun i => (ofReal (u i) : α) := by
    rw [quotients, List.map_ofFn]
    refine congrArg List.ofFn (funext fun i => ?_)
    rw [Function.comp_apply, ← ofReal_sub, ← ofReal_div _ hh.ne', hu]
  have hgives := Difference.forward.gives_of_evaluates hx hh p (evaluates_forward hf hx h)
  rw [hquotients] at hgives
  exact ⟨_, hgives, rfl, Tensor.represents_vector p u⟩

theorem Difference.gives_central (hf : Takes w f shape F) (hx : x.Represents shape v) {h : ℝ}
    (hh : 0 < h) (p : Precision) {u : Point n}
    (hu : ∀ i, (F (v.ofLp + Pi.single i h) - F (v.ofLp + Pi.single i (-h))) * (1 / 2 / h) = u i) :
    ∃ g, Difference.central.Gives (.ofNumbers f) (ofReal h) p x w g ∧ g.precision = p ∧
      g.Represents [n] u := by
  have hquotients : Difference.quotients (ofReal h) .central ((List.finRange n).flatMap fun i =>
      [ofReal (F (v.ofLp + Pi.single i h)), ofReal (F (v.ofLp + Pi.single i (-h)))])
        = List.ofFn fun i => (ofReal (u i) : α) := by
    rw [quotients_central, ← List.ofFn_eq_map]
    refine congrArg List.ofFn (funext fun i => ?_)
    rw [half_eq, ← ofReal_div _ hh.ne', ← ofReal_sub, ← ofReal_mul, hu]
  have hgives := Difference.central.gives_of_evaluates hx hh p (evaluates_central hf hx h)
  rw [hquotients] at hgives
  exact ⟨_, hgives, rfl, Tensor.represents_vector p u⟩

/-! ## Functions with a gradient of their own -/

section Shifted

variable {q : ShiftedQuadratic α} {B : Matrix (Fin n) (Fin n) ℝ} {t : Point n}

theorem ShiftedQuadratic.offset_ok (ht : q.centre.Represents [n] t) (hx : x.Represents [n] v) :
    ∃ r, q.offset x = .ok r ∧ r.Represents [n] (v - t) :=
  (hx.convert .double).stretched_sub ht

/-- The value around the centre. -/
theorem ShiftedQuadratic.loss_eq_ok (hB : q.matrix.RepresentsMatrix B) (ht : q.centre.Represents [n] t)
    (hx : x.Represents [n] v) :
    q.loss x = .ok (ofReal (quadratic B 0 0 (v.ofLp - t.ofLp))) := by
  obtain ⟨r, hr, hrv⟩ := offset_ok ht hx
  obtain ⟨left, hleft, hleftv⟩ := hrv.vecMul hB
  obtain ⟨z, hz, hnumber⟩ := hleftv.dot hrv
  have hvalue : quadratic B 0 0 (v.ofLp - t.ofLp)
      = ((v - t).ofLp ᵥ* B) ⬝ᵥ (v - t).ofLp := by
    rw [quadratic, zero_dotProduct, add_zero, add_zero, Matrix.dotProduct_mulVec]
    rfl
  rw [loss, hr, hvalue]
  show (r.productOf q.matrix >>= _) = _
  rw [hleft]
  show (left.productOf r >>= _) = _
  rw [hz]
  exact hnumber

theorem ShiftedQuadratic.grad_eq_ok (hB : q.matrix.RepresentsMatrix B) (ht : q.centre.Represents [n] t)
    (hx : x.Represents [n] v) :
    ∃ g, q.grad x = .ok g ∧
      g.Represents [n] (WithLp.toLp 2 ((B + Bᵀ) *ᵥ (v.ofLp - t.ofLp)) : Point n) := by
  obtain ⟨r, hr, hrv⟩ := offset_ok ht hx
  obtain ⟨both, hboth, hbothv⟩ := hB.add hB.reversed
  obtain ⟨g, hg, hgv⟩ := hbothv.mulVec hrv
  refine ⟨g, ?_, hgv⟩
  rw [grad, hr]
  show (q.matrix.stretched (· + ·) q.matrix.reversed >>= _) = _
  rw [hboth]
  exact hg

end Shifted

theorem takes_affine (p : Precision) {coefficients : Tensor α} {b : Point n}
    (hb : coefficients.Represents [n] b) (c : ℝ) (w : ω) :
    Takes w (ScalarFunction.affine (m := m) p coefficients (ofReal c)).evaluate [n]
      (quadratic 0 b.ofLp c) := by
  intro x v hx
  have hinner : coefficients.inner x = .ok (ofReal (b.ofLp ⬝ᵥ v.ofLp)) := by
    rw [hb.inner hx, EuclideanSpace.inner_eq_star_dotProduct, star_trivial, dotProduct_comm]
  have hvalue : quadratic 0 b.ofLp c v.ofLp = b.ofLp ⬝ᵥ v.ofLp + c := by
    rw [quadratic, Matrix.zero_mulVec, dotProduct_zero, zero_add]
  have hproduct : attempt (coefficients.inner x : Evaluation m α) w
      = (.ok (ofReal (b.ofLp ⬝ᵥ v.ofLp)), w) := by
    rw [hinner]
    exact attempt_lift _ w
  have hrule : attempt ((coefficients.inner x : Evaluation m α) >>= fun product =>
      pure (Answer.ofNumber (product + ofReal c))) w
        = (.ok (.ofNumber (ofReal (quadratic 0 b.ofLp c v.ofLp))), w) := by
    rw [attempt_bind_of_ok hproduct, hvalue, ofReal_add]
    exact attempt_pure _ w
  exact (attempt_bind_of_ok hrule _).trans (attempt_lift _ w)

/-- On exact numbers and for every positive step, central differences of a quadratic function are its gradient
and forward differences are off by the step times the diagonal. So central differences agree, up to the precision
that the array is kept with, with the gradients that shifted quadratics and affine functions have. -/
theorem Difference.gives_quadratic (A : Matrix (Fin n) (Fin n) ℝ) (b : Point n) (c : ℝ) {h : ℝ}
    (hh : 0 < h) (hf : Takes w f [n] (quadratic A b.ofLp c)) (p : Precision)
    (hx : x.Represents [n] v) :
    (∃ g, Difference.central.Gives (.ofNumbers f) (ofReal h) p x w g ∧
      g.Represents [n] (WithLp.toLp 2 ((A + Aᵀ) *ᵥ v.ofLp + b.ofLp) : Point n)) ∧
    (∃ g, Difference.forward.Gives (.ofNumbers f) (ofReal h) p x w g ∧
      g.Represents [n] (WithLp.toLp 2 ((A + Aᵀ) *ᵥ v.ofLp + b.ofLp + h • A.diag) : Point n)) ∧
    (∀ (q : ShiftedQuadratic α) (B : Matrix (Fin n) (Fin n) ℝ) (t : Point n),
      q.matrix.RepresentsMatrix B → q.centre.Represents [n] t →
      ∃ g g', Difference.central.Gives (.ofNumbers fun x => (q.loss x : Evaluation m α)) (ofReal h) p x w g ∧
        q.grad x = .ok g' ∧ g = g'.convert p) ∧
    (∀ (coefficients : Tensor α) (d : Point n) (e : ℝ) (p' : Precision), coefficients.Represents [n] d →
      let affine : ScalarFunction m α := .affine p' coefficients (ofReal e)
      ∃ (g g' : Tensor α) (df : VectorFunction m α),
        Difference.central.Gives affine.asRule (ofReal h) p x w g ∧ affine.gradient = .ok (some df) ∧
        attempt (df.evaluate x) w = (.ok g', w) ∧ g = g'.convert p) := by
  refine ⟨?_, ?_, fun q B t hB ht => ?_, fun coefficients d e p' hd => ?_⟩
  · obtain ⟨g, hg, -, hgu⟩ := gives_central hf hx hh p
      (u := WithLp.toLp 2 ((A + Aᵀ) *ᵥ v.ofLp + b.ofLp)) fun i => central_quadratic A b.ofLp c v.ofLp i hh.ne'
    exact ⟨g, hg, hgu⟩
  · obtain ⟨g, hg, -, hgu⟩ := gives_forward hf hx hh p
      (u := WithLp.toLp 2 ((A + Aᵀ) *ᵥ v.ofLp + b.ofLp + h • A.diag))
      fun i => forward_quadratic A b.ofLp c v.ofLp i hh.ne'
    exact ⟨g, hg, hgu⟩
  · have htakes : Takes w (fun x => (q.loss x : Evaluation m α)) [n]
        fun v => quadratic B 0 0 (v - t.ofLp) := by
      intro x v hx
      dsimp only
      rw [ShiftedQuadratic.loss_eq_ok hB ht hx]
      exact attempt_lift _ w
    obtain ⟨g', hg', hgrad⟩ := ShiftedQuadratic.grad_eq_ok hB ht hx
    obtain ⟨g, hg, hprecision, hgu⟩ := gives_central htakes hx hh p
      (u := WithLp.toLp 2 ((B + Bᵀ) *ᵥ (v.ofLp - t.ofLp))) fun i => by
        rw [add_sub_right_comm, add_sub_right_comm, central_quadratic B 0 0 _ i hh.ne', add_zero]
    exact ⟨g, g', hg, hg', hgu.eq_convert hprecision hgrad⟩
  · obtain ⟨g, hg, hprecision, hgu⟩ := gives_central (takes_affine (m := m) p' hd e w) hx hh p (u := d)
      fun i => by
        rw [central_quadratic 0 d.ofLp e _ i hh.ne']
        simp
    refine ⟨g, coefficients.convert p', _, hg, rfl, ?_, hgu.eq_convert hprecision (hd.convert p')⟩
    rw [Problem.attempt_evaluate_field]
    exact attempt_pure _ w

end Points

/-- The quadratic function of a matrix that is not symmetric, at the point (1, -1) with the step 1/10. -/
theorem Difference.gives_quadratic_not_symmetric :
    let A : Matrix (Fin 2) (Fin 2) ℝ := !![1, 2; 0, 3]
    let b : Point 2 := WithLp.toLp 2 ![5, 0]
    let f : Tensor ℝ → Evaluation Id ℝ := fun x => pure (quadratic A b.ofLp 7 (x.toPoint 2).ofLp)
    let x : Tensor ℝ := .ofPoint .double (WithLp.toLp 2 ![1, -1] : Point 2)
    ((0 : ℝ) < 1 / 10 ∧ Takes () f [2] (quadratic A b.ofLp 7) ∧
      x.Represents [2] (WithLp.toLp 2 ![1, -1] : Point 2)) ∧
    (∃ g, Difference.central.Gives (.ofNumbers f) (1 / 10) .double x () g ∧
      g.Represents [2] (WithLp.toLp 2 ![5, -4] : Point 2)) ∧
    ∃ g, Difference.forward.Gives (.ofNumbers f) (1 / 10) .double x () g ∧
      g.Represents [2] (WithLp.toLp 2 ![51 / 10, -37 / 10] : Point 2) := by
  intro A b f x
  have hh : (0 : ℝ) < 1 / 10 := by norm_num
  have hf : Takes () f [2] (quadratic A b.ofLp 7) := by
    intro y v hy
    rw [← hy.toPoint_eq]
    exact attempt_pure _ ()
  have hx : x.Represents [2] (WithLp.toLp 2 ![1, -1] : Point 2) := Tensor.represents_ofPoint .double _
  have hgradient : (A + Aᵀ) *ᵥ ![1, -1] + b.ofLp = ![5, -4] := by
    ext i
    fin_cases i <;> norm_num [A, b, Matrix.mulVec, dotProduct, Fin.sum_univ_two]
  have hoff : ![5, -4] + (1 / 10 : ℝ) • A.diag = ![51 / 10, -37 / 10] := by
    ext i
    fin_cases i <;> norm_num [A]
  obtain ⟨hcentral, hforward, -, -⟩ := gives_quadratic A b 7 hh hf .double hx
  dsimp only at hcentral hforward
  rw [hgradient] at hcentral hforward
  rw [hoff] at hforward
  exact ⟨⟨hh, hf, hx⟩, hcentral, hforward⟩

end Minimization
