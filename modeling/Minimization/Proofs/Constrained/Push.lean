import Minimization.Proofs.Constrained.Implied

/-!
# How the barrier's gradient pushes back

The gradient of the barrier is the direction of the objective plus a combination of the directions of the
constraints. All weights are positive, whether a constraint is strictly satisfied or not (`barrierPush_pos`).

Beyond a single constraint `g` the weight is `1 + g`. The direction of the objective takes at most one of it,
as it is not longer than one, so that along the direction of the constraint at least `g` is left
(`Landscape.le_inner_barrierField`). A descent goes against this gradient, and hence not up the constraint
(`LogBarrier.barrierGradient_pushes_back`).
-/

namespace Minimization

open ExactScalar
open scoped RealInnerProductSpace

variable {n : Nat} {shape : List Nat}

/-- A point brought to norm one keeps its side of a hyperplane. -/
theorem inner_unit_left_nonneg {threshold : ℝ} {v w : Point n} (h : 0 ≤ ⟪v, w⟫) :
    0 ≤ ⟪unit threshold v, w⟫ := by
  unfold unit
  split
  next => exact h
  next =>
    rw [real_inner_smul_left]
    exact mul_nonneg (inv_nonneg.mpr (norm_nonneg v)) h

/-- A point whose direction is on one side of a hyperplane is on this side. -/
theorem inner_nonneg_of_unit {threshold : ℝ} (h₀ : 0 < threshold) {v w : Point n}
    (h : 0 ≤ ⟪w, unit threshold v⟫) : 0 ≤ ⟪w, v⟫ := by
  unfold unit at h
  split at h
  next => exact h
  next hv =>
    rw [inner_smul_right] at h
    exact nonneg_of_mul_nonneg_right h (inv_pos.mpr (h₀.trans_le (not_lt.mp hv)))

/-- Where a gradient rises, the direction of steepest descent does not. -/
theorem inner_steepest_left_nonpos {g w : Point n} (h : 0 ≤ ⟪g, w⟫) : ⟪steepest g, w⟫ ≤ 0 := by
  have hflipped : 0 ≤ ⟪-g, -w⟫ := by rwa [inner_neg_neg]
  have hunit : 0 ≤ ⟪steepest g, -w⟫ := inner_unit_left_nonneg hflipped
  rw [inner_neg_right] at hunit
  exact neg_nonneg.mp hunit

/-- A constraint pushes back in either branch: with a weight that is positive inside and outside. -/
theorem barrierPush_pos {weight : ℝ} (hweight : 0 < weight) (t : ℝ) : 0 < barrierPush weight t := by
  unfold barrierPush
  split
  next ht => exact neg_pos.mpr (div_neg_of_pos_of_neg hweight ht)
  next ht => linarith [not_lt.mp ht]

namespace Landscape

variable {f g : Landscape n} {v : Point n}

theorem barrierField_singleton (weight : ℝ) :
    f.barrierField [g] weight v
      = unit negligible (f.field v) + barrierPush weight (g.value v) • unit negligible (g.field v) := by
  rw [barrierField, List.map_singleton, List.sum_singleton]

/-- Beyond a single constraint the gradient of the barrier rises along it at least by its value. -/
theorem le_inner_barrierField (hg : 0 ≤ g.value v) (hfield : negligible ≤ ‖g.field v‖) (weight : ℝ) :
    g.value v ≤ ⟪f.barrierField [g] weight v, unit negligible (g.field v)⟫ := by
  have hone := norm_unit negligible_pos hfield
  have hobjective : -1 ≤ ⟪unit negligible (f.field v), unit negligible (g.field v)⟫ := by
    have habs := abs_real_inner_le_norm (unit negligible (f.field v)) (unit negligible (g.field v))
    rw [hone, mul_one] at habs
    exact (abs_le.mp (habs.trans (norm_unit_le_one negligible_pos negligible_le_one _))).1
  calc g.value v = -1 + (1 + g.value v) * ‖unit negligible (g.field v)‖ ^ 2 := by
        rw [hone]
        ring
    _ ≤ ⟪unit negligible (f.field v), unit negligible (g.field v)⟫
        + (1 + g.value v) * ‖unit negligible (g.field v)‖ ^ 2 := by gcongr
    _ = ⟪f.barrierField [g] weight v, unit negligible (g.field v)⟫ := by
        rw [barrierField_singleton, inner_add_left, real_inner_smul_left, real_inner_self_eq_norm_sq,
          barrierPush, if_neg (not_lt.mpr hg)]

end Landscape

/-- A problem of one constraint has one function with its gradient. -/
theorem Problem.Realizes.exists_constraint {α : Type} [ExactScalar α] {p : Problem Id α}
    {f g : Landscape n} (hp : p.Realizes shape f [g]) :
    ∃ c dc, p.constraintPairs = [(c, dc)] ∧ g.RealizedBy shape c dc := by
  have hconstraints := hp.constraints
  generalize p.constraintPairs = pairs at hconstraints
  obtain ⟨c, rest, hc, hrest, rfl⟩ := List.forall₂_cons_right_iff.mp hconstraints
  obtain rfl := List.forall₂_nil_right_iff.mp hrest
  exact ⟨c.1, c.2, rfl, hc⟩

namespace LogBarrier

variable {α : Type} [ExactScalar α] {s : Setup Id α} {f : Landscape n} {gs : List (Landscape n)}
  {x : Tensor α} {v : Point n}

/-- Whatever its settings are, an inner descent makes a step from an array, and the direction of the step does
not rise along another one. -/
def Setup.Recedes (s : Setup Id α) (weight : ℝ) (x w : Tensor α) : Prop :=
  ∀ (settings : GradientDescent.Settings ℝ) (a : ℝ) (r : Run α),
    let inner := s.inner settings.lift (ofReal weight)
    ∃ (k : GradientDescent.Step α) (slope : ℝ),
      perform (GradientDescent.iteration inner x (ofReal a)) r = (.ok (k.trial, k.next), k.after inner r) ∧
      k.Follows inner x (ofReal a) ∧ k.direction.inner w = .ok (ofReal slope) ∧ slope ≤ 0

/-- An inner descent goes against the gradient of the barrier. -/
theorem recedes_of_inner_nonneg (hp : s.problem.Realizes shape f gs) (hx : x.Represents shape v)
    {weight : ℝ} {w : Tensor α} {u : Point n} (hw : w.Represents shape u)
    (hu : 0 ≤ ⟪f.barrierField gs weight v, u⟫) : s.Recedes weight x w := by
  intro settings a r inner
  have hs := Setup.realizes_inner hp settings.lift weight
  obtain ⟨t, y, r', hiteration⟩ :=
    GradientDescent.iteration_total (h := settings) hs rfl ⟨⟨v, hx⟩, a, rfl⟩ r
  obtain ⟨k, hk, rfl, rfl, rfl⟩ := GradientDescent.iteration_ok hiteration
  have hdirection := (hk.realizes (h := settings) hs rfl hx).direction
  exact ⟨k, _, hiteration, hk, hdirection.inner hw, inner_steepest_left_nonpos hu⟩

/-- The gradient of the barrier is the direction of the objective plus the directions of the constraints with
weights that are all positive for a positive barrier weight, whether the constraints are strictly satisfied
or not. For a single constraint that is not, and whose gradient is not negligible, it rises along the
direction of the constraint at least by the value of the constraint, whatever the barrier weight and the
objective are. So the direction of a step from there does not rise along the gradient of the constraint. -/
theorem barrierGradient_pushes_back (hp : s.problem.Realizes shape f gs) (hx : x.Represents shape v)
    (weight : ℝ) :
    ∃ z, s.problem.barrierGradient s.precision (ofReal weight) x = pure z ∧
      z.Represents shape (unit negligible (f.field v)
        + (gs.map fun g => barrierPush weight (g.value v) • unit negligible (g.field v)).sum) ∧
      (0 < weight → ∀ g ∈ gs, 0 < barrierPush weight (g.value v)) ∧
      ∀ g, gs = [g] → 0 ≤ g.value v → negligible ≤ ‖g.field v‖ →
        ∃ c dc dg d rise, s.problem.constraintPairs = [(c, dc)] ∧
          c.evaluate x = pure (ofReal (g.value v)) ∧ dc.evaluate x = pure dg ∧
          dg.normalize s.precision = .ok d ∧ z.inner d = .ok (ofReal rise) ∧ g.value v ≤ rise ∧
          s.Recedes weight x dg := by
  obtain ⟨z, hz, hzr⟩ := hp.barrierGradient hx s.precision weight
  refine ⟨z, hz, hzr, fun hweight g _ => barrierPush_pos hweight _, ?_⟩
  rintro g rfl hg hfield
  obtain ⟨c, dc, hpair, hc⟩ := hp.exists_constraint
  obtain ⟨dg, hdg, hdgr⟩ := hc.field hx
  obtain ⟨d, hd, hdr⟩ := hdgr.normalize s.precision
  have hrise := Landscape.le_inner_barrierField (f := f) hg hfield weight
  exact ⟨c, dc, dg, d, _, hpair, hc.value hx, hdg, hd, hzr.inner hdr, hrise,
    recedes_of_inner_nonneg hp hx hdgr (inner_nonneg_of_unit negligible_pos (hg.trans hrise))⟩

/-- At -3, beyond the constraint that a coordinate is not negative, the gradient rises along it by three. -/
theorem barrierGradient_pushes_back_beyond :
    let v : Point 1 := .single 0 (-3)
    let x : Tensor ℝ := .ofPoint .double v
    let s : Setup Id ℝ := ⟨.double, .euclidean (.linear 2) [.linear (-1)] rfl,
      ⟨1, 1, 1, .none, .error .absent⟩⟩
    (s.problem.Realizes [1] (.linear 2) [.linear (-1)] ∧ x.Represents [1] v ∧
      0 ≤ (Landscape.linear (-1)).value v ∧ negligible ≤ ‖(Landscape.linear (-1)).field v‖ ∧ (0 : ℝ) < 1) ∧
    0 < barrierPush 1 3 ∧
    ∃ z c dc dg d rise, s.problem.barrierGradient .double 1 x = pure z ∧
      s.problem.constraintPairs = [(c, dc)] ∧ dc.evaluate x = pure dg ∧ dg.normalize .double = .ok d ∧
      z.inner d = .ok rise ∧ 3 ≤ rise ∧ s.Recedes 1 x dg := by
  intro v x s
  have hp : s.problem.Realizes [1] (.linear 2) [.linear (-1)] := Problem.realizes_euclidean _ _ rfl
  have hx : x.Represents [1] v := Tensor.represents_ofPoint .double v
  have hvalue : (Landscape.linear (-1)).value v = 3 := by simp [v, Landscape.linear]
  have hbeyond : 0 ≤ (Landscape.linear (-1)).value v := by norm_num [hvalue]
  have hfield : negligible ≤ ‖(Landscape.linear (-1)).field v‖ :=
    Landscape.negligible_le_linear (by norm_num) v
  obtain ⟨z, hz, -, hpush, hbeyondOnly⟩ := barrierGradient_pushes_back hp hx 1
  obtain ⟨c, dc, dg, d, rise, hpair, -, hdg, hd, hinner, hrise, hrecedes⟩ :=
    hbeyondOnly _ rfl hbeyond hfield
  have hpositive := hpush one_pos _ (List.mem_singleton_self _)
  rw [hvalue] at hpositive hrise
  exact ⟨⟨hp, hx, hbeyond, hfield, one_pos⟩, hpositive, z, c, dc, dg, d, rise, hz, hpair, hdg, hd, hinner,
    hrise, hrecedes⟩

end LogBarrier

end Minimization
