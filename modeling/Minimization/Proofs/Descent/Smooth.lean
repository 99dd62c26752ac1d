import Minimization.Proofs.Constrained.Landscape
import Minimization.Proofs.Descent.Decrease

/-!
# Descents along smooth losses

Along a loss whose first-order model misses at most `L / 2` times the squared distance, a trial can only be
rejected if it is longer than `2 * (1 - c) * G / L`, where `G` is the norm of the gradient and `c` the share of the
promised decrease (`lt_of_rejected`). So a line search that gets below this length accepts a trial, and one
that accepts a trial after a shrink was above this length before it (`run_smooth`).

The loss need not be convex, and the field need not be its gradient. Gradients of negligible norm are not
brought to norm one, and nothing is said about iterations from there.
-/

namespace Minimization

open ExactScalar
open scoped RealInnerProductSpace

variable {n : Nat}

section Smooth

variable {f : Landscape n} {L : ℝ}
  (hf : ∀ v w, f.value w ≤ f.value v + ⟪f.field v, w - v⟫ + L / 2 * ‖w - v‖ ^ 2)
include hf

/-- The value at a trial, against the model. -/
theorem Landscape.value_along_steepest_le {v : Point n} (hg : negligible ≤ ‖f.field v‖) (t : ℝ) :
    f.value (v + t • steepest (f.field v)) ≤ f.value v - t * ‖f.field v‖ + L / 2 * t ^ 2 := by
  have h := hf v (v + t • steepest (f.field v))
  rw [add_sub_cancel_left, inner_smul_right, inner_steepest hg, norm_smul, norm_steepest hg, mul_one,
    Real.norm_eq_abs, sq_abs] at h
  linarith

/-- A trial that is rejected is long. -/
theorem Landscape.lt_of_rejected (hL : 0 < L) {v : Point n} (hg : negligible ≤ ‖f.field v‖) {c t : ℝ}
    (ht : 0 < t)
    (h : f.value v + c * t * ⟪f.field v, steepest (f.field v)⟫
      < f.value (v + t • steepest (f.field v))) :
    2 * (1 - c) * ‖f.field v‖ / L < t := by
  have hle := Landscape.value_along_steepest_le hf hg t
  rw [inner_steepest hg] at h
  -- What the loss misses of the promise is made up for by the error of the model, so it is at most that.
  have hshare : t * ((1 - c) * ‖f.field v‖) < t * (L / 2 * t) := by nlinarith
  have hlong := lt_of_mul_lt_mul_left hshare ht.le
  rw [div_lt_iff₀ hL]
  linarith

end Smooth

namespace GradientDescent

variable {s : Setup Id ℝ} {shape : List Nat} {F : Point n → ℝ} {dF : Point n → Point n}

/-- The loss at a trial that is rejected is above the bound. -/
theorem Tries.lt_loss {x d : Tensor ℝ} {v u : Point n} {bound : ℝ → ℝ} {t : ℝ}
    (h : Tries s x d bound t true) (hs : s.Realizes shape F dF) (hx : x.Represents shape v)
    (hd : d.Represents shape u) : bound t < F (v + t • u) := by
  obtain ⟨there, answer, value, hthere, hanswer, hvalue, hlt⟩ := h
  obtain ⟨z, hz, hzr⟩ := hx.moveBy (hd.scale t)
  obtain rfl : z = there := Except.ok.inj (hz.symm.trans hthere)
  rw [hs.loss hzr] at hanswer
  obtain rfl := Evaluation.pure_inj.mp hanswer
  obtain rfl := Except.ok.inj hvalue
  exact of_decide_eq_true hlt

/-- The sizes that a step tried and rejected are those whose trials miss the share of the promise. -/
theorem Step.Follows.lt_loss {k : Step ℝ} {x : Tensor ℝ} {v : Point n} {a t : ℝ}
    (hk : k.Follows s x a) (hs : s.Realizes shape F dF) (hx : x.Represents shape v)
    (h : Tries s x k.direction (k.bound s) t true) :
    F v + s.settings.sufficientShare * t * ⟪dF v, steepest (dF v)⟫ < F (v + t • steepest (dF v)) := by
  have hr := Step.Follows.realizes (h := s.settings) hk hs rfl hx
  have hlt := h.lt_loss hs hx hr.direction
  rw [Step.bound, hr.loss_eq, hr.slope_eq] at hlt
  exact hlt

/-- A descent along a smooth loss. From a gradient that is not negligible, a line search that may get down
to `2 * (1 - c) * G / L` is not exhausted, and one that is not exhausted accepts its first trial or one of at
least that size, but for a shrink. A line search that is exhausted has made all its shrinks, and its
last trial is taken, which is rejected like the others. -/
theorem run_smooth {f : Landscape n} {L : ℝ} (hL : 0 < L)
    (hf : ∀ v w, f.value w ≤ f.value v + ⟪f.field v, w - v⟫ + L / 2 * ‖w - v‖ ^ 2)
    (hs : s.Realizes shape f.value f.field) (hshrink : 0 < s.settings.shrinkFactor)
    (hmax : 0 ≤ s.settings.maxShrinks) {guess : Tensor ℝ} {v : Point n}
    (hg : guess.Represents shape v) (r : Run ℝ) :
    ∃ y ks reason r', perform (run s guess) r = (.ok y, r') ∧ Completed s guess r ks y reason r' ∧
      (0 < s.settings.initialStep → 0 < s.settings.growthFactor → ∀ k ∈ ks, 0 < k.firstSize) ∧
      ∀ k ∈ ks,
        (0 < k.firstSize → 1 / 10 ^ 7 ≤ ‖f.field (k.point.toPoint n)‖ →
          (k.firstSize * s.settings.shrinkFactor ^ s.settings.maxShrinks.toNat
              ≤ 2 * (1 - s.settings.sufficientShare) * ‖f.field (k.point.toPoint n)‖ / L →
            k.trial.exhausted = false) ∧
          (k.trial.exhausted = false →
            min k.firstSize (s.settings.shrinkFactor *
                (2 * (1 - s.settings.sufficientShare) * ‖f.field (k.point.toPoint n)‖ / L))
              ≤ k.trial.stepSize)) ∧
        (k.trial.exhausted = true →
          (k.shrinks : Int) = s.settings.maxShrinks ∧
          k.trial.stepSize = k.firstSize * s.settings.shrinkFactor ^ k.shrinks ∧
          k.next.toPoint n = k.point.toPoint n + k.trial.stepSize • k.direction.toPoint n ∧
          f.value (k.point.toPoint n) + s.settings.sufficientShare * k.trial.stepSize *
              ⟪f.field (k.point.toPoint n), k.direction.toPoint n⟫
            < f.value (k.next.toPoint n)) := by
  obtain ⟨y, r', hrun⟩ := run_total (h := s.settings) hs rfl hg r
  obtain ⟨ks, reason, hc⟩ := run_ok hrun
  -- The invariant of the run is that the size a search starts from is positive.
  obtain ⟨-, hmem⟩ := hc.follows hs hg
    (P := fun a => 0 < s.settings.initialStep → 0 < s.settings.growthFactor → 0 < a) (fun h _ => h)
    fun a i ha hstart hgrowth => by
      rw [Settings.shrunk_eq]
      exact mul_pos (mul_pos (ha hstart hgrowth) (pow_pos hshrink i)) hgrowth
  refine ⟨y, ks, reason, r', hrun, hc, fun hstart hgrowth k hk => ?_, fun k hk => ?_⟩
  · obtain ⟨x, u, -, -, ha⟩ := hmem k hk
    exact ha hstart hgrowth
  obtain ⟨x, u, hfollows, hu, -⟩ := hmem k hk
  have hr := Step.Follows.realizes (h := s.settings) (a := k.firstSize) hfollows hs rfl hu
  have hstep : k.trial.stepSize = k.firstSize * s.settings.shrinkFactor ^ k.shrinks :=
    hr.stepSize_eq.trans (Settings.shrunk_eq _ _ _)
  rw [hr.point.toPoint_eq, hr.direction.toPoint_eq, hr.next.toPoint_eq]
  have hshrinks : k.trial.exhausted = true → k.shrinks = s.settings.maxShrinks.toNat :=
    hfollows.searched.exhausted
  have hsettled := hfollows.searched.settled
  refine ⟨fun ha hG => ⟨fun hreach => ?_, fun hx => ?_⟩, fun hx => ⟨?_, hstep, ?_, ?_⟩⟩
  · -- The last trial is too short to be rejected.
    by_contra hx
    have hx := Bool.eq_true_of_not_eq_false hx
    rw [hx, hstep, hshrinks hx] at hsettled
    have hlong := Landscape.lt_of_rejected hf hL (negligible_eq ▸ hG) (by positivity)
      (hfollows.lt_loss hs hu hsettled)
    exact absurd hlong (not_lt.mpr hreach)
  · rw [hstep]
    rcases hi : k.shrinks with _ | i
    · rw [pow_zero, mul_one]
      exact min_le_left _ _
    · -- The trial before the last shrink is rejected.
      have hrejected := hfollows.searched.rejected i (by omega)
      rw [Settings.shrunk_eq] at hrejected
      have hlong := Landscape.lt_of_rejected hf hL (negligible_eq ▸ hG) (by positivity)
        (hfollows.lt_loss hs hu hrejected)
      calc min k.firstSize _ ≤ s.settings.shrinkFactor * _ := min_le_right _ _
        _ ≤ s.settings.shrinkFactor * (k.firstSize * s.settings.shrinkFactor ^ i) :=
          mul_le_mul_of_nonneg_left hlong.le hshrink.le
        _ = k.firstSize * s.settings.shrinkFactor ^ (i + 1) := by ring
  · rw [hshrinks hx]
    exact Int.toNat_of_nonneg hmax
  · rw [hr.stepSize_eq]
    rfl
  · rw [hx] at hsettled
    have h := hfollows.lt_loss hs hu hsettled
    rw [hr.stepSize_eq] at h ⊢
    exact h

/-- A descent from the point (3, 4) along half the square of the norm, which is smooth with `L = 1`. -/
theorem run_smooth_half_norm_sq :
    let f : Landscape 2 := ⟨fun v => ‖v‖ ^ 2 / 2, id⟩
    let settings : Settings ℝ := ⟨10, 1 / 2, 6 / 5, 1 / 10 ^ 8, 1 / 100, 100, 20⟩
    let s := Setup.euclidean settings f.value f.field
    let v : Point 2 := WithLp.toLp 2 ![3, 4]
    let r : Run ℝ := ⟨⟨0, 0, 0⟩, some .empty, []⟩
    ((0 : ℝ) < 1 ∧
      (∀ v w, f.value w ≤ f.value v + ⟪f.field v, w - v⟫ + 1 / 2 * ‖w - v‖ ^ 2) ∧
      s.Realizes [2] f.value f.field ∧ (0 : ℝ) < 1 / 2 ∧ (0 : Int) ≤ 20 ∧
      (Tensor.ofPoint .double v : Tensor ℝ).Represents [2] v) ∧
    ∃ y ks reason r', perform (run s (.ofPoint .double v)) r = (.ok y, r') ∧
      Completed s (.ofPoint .double v) r ks y reason r' ∧
      ((0 : ℝ) < 10 → (0 : ℝ) < 6 / 5 → ∀ k ∈ ks, 0 < k.firstSize) ∧
      ∀ k ∈ ks,
        (0 < k.firstSize → 1 / 10 ^ 7 ≤ ‖f.field (k.point.toPoint 2)‖ →
          (k.firstSize * (1 / 2) ^ (20 : Int).toNat
              ≤ 2 * (1 - 1 / 100) * ‖f.field (k.point.toPoint 2)‖ / 1 →
            k.trial.exhausted = false) ∧
          (k.trial.exhausted = false →
            min k.firstSize (1 / 2 * (2 * (1 - 1 / 100) * ‖f.field (k.point.toPoint 2)‖ / 1))
              ≤ k.trial.stepSize)) ∧
        (k.trial.exhausted = true →
          (k.shrinks : Int) = 20 ∧
          k.trial.stepSize = k.firstSize * (1 / 2) ^ k.shrinks ∧
          k.next.toPoint 2 = k.point.toPoint 2 + k.trial.stepSize • k.direction.toPoint 2 ∧
          f.value (k.point.toPoint 2) + 1 / 100 * k.trial.stepSize *
              ⟪f.field (k.point.toPoint 2), k.direction.toPoint 2⟫
            < f.value (k.next.toPoint 2)) := by
  intro f settings s v r
  have hf : ∀ v w, f.value w ≤ f.value v + ⟪f.field v, w - v⟫ + 1 / 2 * ‖w - v‖ ^ 2 := by
    intro v w
    have h := norm_add_sq_real v (w - v)
    rw [add_sub_cancel] at h
    show ‖w‖ ^ 2 / 2 ≤ ‖v‖ ^ 2 / 2 + ⟪v, w - v⟫ + 1 / 2 * ‖w - v‖ ^ 2
    linarith
  have hs : s.Realizes [2] f.value f.field := Setup.realizes_euclidean settings _ _
  have hg := Tensor.represents_ofPoint (α := ℝ) .double v
  have hshrink : (0 : ℝ) < 1 / 2 := by norm_num
  exact ⟨⟨one_pos, hf, hs, hshrink, by decide, hg⟩,
    run_smooth one_pos hf hs hshrink (by decide) hg r⟩

end GradientDescent

end Minimization
