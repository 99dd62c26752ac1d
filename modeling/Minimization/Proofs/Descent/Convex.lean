import Minimization.Parameters.Settings
import Minimization.Proofs.Constrained.Landscape
import Minimization.Proofs.Descent.Decrease

/-!
# Descents along convex losses

A line search that may still shrink never settles on a step that raises the loss, whatever the loss is.
With no shrinks left it settles on its last trial nevertheless, and close to a minimum all of its trials
can raise the loss, that of a convex function as well (`run_rises_near_minimum`). Convexity says that
this was the least of them: once the loss has risen along a line it goes on rising, so no longer trial
would have been better (`run_convex`).

All of this is about the settings that a descent starts from, as exact numbers.
-/

namespace Minimization

open ExactScalar
open scoped RealInnerProductSpace

variable {n : Nat}

/-- A convex function that has risen along a line goes on rising. -/
theorem Landscape.IsConvex.le_of_lt {f : Landscape n} (hf : f.IsConvex) {v d : Point n} {a t : ℝ}
    (ha : 0 ≤ a) (hat : a ≤ t) (hrise : f.value v < f.value (v + a • d)) :
    f.value (v + a • d) ≤ f.value (v + t • d) := by
  -- Seen from where it has risen to, the start lies below, so the slope along the line is positive.
  have hback := hf (v + a • d) v
  rw [sub_add_cancel_left, inner_neg_right, inner_smul_right] at hback
  have hslope : 0 < a * ⟪f.field (v + a • d), d⟫ := by linarith
  have hpos : 0 < ⟪f.field (v + a • d), d⟫ := pos_of_mul_pos_right hslope ha
  have hahead := hf (v + a • d) (v + t • d)
  rw [add_sub_add_left_eq_sub, ← sub_smul, inner_smul_right] at hahead
  have hrest : 0 ≤ (t - a) * ⟪f.field (v + a • d), d⟫ :=
    mul_nonneg (sub_nonneg.mpr hat) hpos.le
  linarith

namespace GradientDescent

/-- The settings that a descent starts from. -/
def Settings.standard {α : Type} [Scalar α] : Settings α where
  initialStep := Scalar.one
  shrinkFactor := Scalar.half
  growthFactor := Scalar.decimal 12 1
  terminationStep := Scalar.decimal 1 8
  sufficientShare := Scalar.decimal 1 2
  maxSteps := 100
  maxShrinks := 20

/-- They are what a descent reads from the default parameters. -/
theorem settingsOf_gradientDescent :
    settingsOf Parameters.gradientDescent = .ok Settings.standard := rfl

theorem Settings.shrinkFactor_standard : (Settings.standard : Settings ℝ).shrinkFactor = 1 / 2 :=
  half_eq

theorem Settings.initialStep_standard : (Settings.standard : Settings ℝ).initialStep = 1 :=
  one_eq

theorem Settings.growthFactor_standard_nonneg : 0 ≤ (Settings.standard : Settings ℝ).growthFactor := by
  show (0 : ℝ) ≤ Scalar.decimal 12 1
  rw [decimal_eq, ofReal_real]
  positivity

theorem Settings.sufficientShare_standard_nonneg :
    0 ≤ (Settings.standard : Settings ℝ).sufficientShare := by
  show (0 : ℝ) ≤ Scalar.decimal 1 2
  rw [decimal_eq, ofReal_real]
  positivity

variable {s : Setup Id ℝ} {shape : List Nat}

/-- A descent with the default settings along a convex loss. No step raises the loss, except for the last
trial of a line search that has made all its twenty shrinks; and then no longer step would have been
better. -/
theorem run_convex {f : Landscape n} (hf : f.IsConvex) (hs : s.Realizes shape f.value f.field)
    (hsettings : s.settings = .standard) {guess : Tensor ℝ} {v : Point n}
    (hg : guess.Represents shape v) (r : Run ℝ) :
    ∃ y ks reason r', perform (run s guess) r = (.ok y, r') ∧ Completed s guess r ks y reason r' ∧
      ∀ k ∈ ks, f.value (k.next.toPoint n) ≤ f.value (k.point.toPoint n) ∨
        k.trial.exhausted = true ∧ k.shrinks = 20 ∧
          k.trial.stepSize = k.firstSize * (1 / 2) ^ 20 ∧
          ∀ t, k.trial.stepSize ≤ t →
            f.value (k.next.toPoint n) ≤ f.value (k.point.toPoint n + t • k.direction.toPoint n) := by
  obtain ⟨y, r', hrun⟩ := run_total (h := s.settings) hs rfl hg r
  obtain ⟨ks, reason, hc⟩ := run_ok hrun
  have hstart : 0 ≤ s.settings.initialStep := by
    rw [hsettings, Settings.initialStep_standard]
    exact zero_le_one
  have hshrink : 0 ≤ s.settings.shrinkFactor := by
    rw [hsettings, Settings.shrinkFactor_standard]
    positivity
  obtain ⟨-, hreal⟩ := hc.realizes hs hstart hshrink
    (hsettings ▸ Settings.growthFactor_standard_nonneg) hg
  refine ⟨y, ks, reason, r', hrun, hc, fun k hk => ?_⟩
  obtain ⟨u, hr, ha⟩ := hreal k hk
  have hsize : 0 ≤ s.settings.shrunk k.firstSize k.shrinks := Settings.shrunk_nonneg hshrink ha _
  have hdec := hr.decreases (hsettings ▸ Settings.sufficientShare_standard_nonneg) hsize
  rcases le_or_gt (f.value (k.next.toPoint n)) (f.value (k.point.toPoint n)) with hle | hrise
  · exact .inl hle
  -- A step that raises the loss was not accepted, so its search made all shrinks.
  have hexhausted : k.trial.exhausted = true := by
    by_contra hx
    have := (hdec.decrease (Bool.eq_false_of_not_eq_true hx)).trans hdec.promise_le
    exact absurd hrise (not_lt.mpr this)
  obtain ⟨x, a, hfollows⟩ : ∃ x a, k.Follows s x a := by
    obtain ⟨-, hmem⟩ := hc.path.invariant (I := fun _ _ => True) trivial fun _ _ _ _ _ _ => trivial
    obtain ⟨x, a, hfollows, -⟩ := hmem k hk
    exact ⟨x, a, hfollows⟩
  have hshrinks : k.shrinks = 20 := by
    have h := hfollows.searched.exhausted hexhausted
    rw [hsettings] at h
    exact h
  have hstep : k.trial.stepSize = s.settings.shrunk k.firstSize k.shrinks := hr.stepSize_eq
  refine .inr ⟨hexhausted, hshrinks, ?_, fun t ht => ?_⟩
  · rw [hstep, Settings.shrunk_eq, hsettings, Settings.shrinkFactor_standard, hshrinks]
  · rw [hdec.next_eq] at hrise ⊢
    exact hf.le_of_lt (hstep ▸ hsize) ht hrise

/-- The direction of steepest descent against a gradient of one coordinate that is not negligible. -/
theorem steepest_single {a : ℝ} (ha : negligible ≤ a) :
    steepest (.single 0 a : Point 1) = .single 0 (-1) := by
  have hpos : 0 < a := negligible_pos.trans_le ha
  have hnorm : ‖-(EuclideanSpace.single 0 a : Point 1)‖ = a := by
    rw [norm_neg, PiLp.norm_single, Real.norm_of_nonneg hpos.le]
  rw [steepest, unit, hnorm, if_neg (not_lt.mpr ha)]
  ext i
  obtain rfl : i = 0 := Subsingleton.elim i 0
  simp [hpos.ne']

/-- A steep parabola is convex. -/
theorem isConvex_parabola {c : ℝ} (hc : 0 ≤ c) :
    (⟨fun v => 1 + c * v 0 ^ 2, fun v => (2 * c) • v⟩ : Landscape 1).IsConvex := by
  intro v w
  have hinner : ⟪(2 * c) • v, w - v⟫ = 2 * c * (v 0 * (w 0 - v 0)) := by
    rw [inner_smul_left, PiLp.inner_apply]
    simp [mul_comm]
  show 1 + c * v 0 ^ 2 + ⟪(2 * c) • v, w - v⟫ ≤ 1 + c * w 0 ^ 2
  rw [hinner]
  nlinarith [mul_nonneg hc (sq_nonneg (w 0 - v 0))]

/-- Close to the minimum of a convex loss the first step of a descent with the default settings raises
the loss: even after twenty shrinks the trial is far longer than the way to the minimum. -/
theorem run_rises_near_minimum :
    let f : Landscape 1 := ⟨fun v => 1 + 10 ^ 12 * v 0 ^ 2, fun v => (2 * 10 ^ 12 : ℝ) • v⟩
    let s : Setup Id ℝ := .euclidean .standard f.value f.field
    let guess : Tensor ℝ := .ofPoint .double (.single 0 (1 / 10 ^ 13) : Point 1)
    let r : Run ℝ := ⟨⟨0, 0, 0⟩, some .empty, []⟩
    f.IsConvex ∧
    ∃ y ks reason r', perform (run s guess) r = (.ok y, r') ∧ Completed s guess r ks y reason r' ∧
      ¬∀ k ∈ ks, f.value (k.next.toPoint 1) ≤ f.value (k.point.toPoint 1) := by
  intro f s guess r
  have hs : s.Realizes [1] f.value f.field := Setup.realizes_euclidean _ _ _
  have hg : guess.Represents [1] (.single 0 (1 / 10 ^ 13) : Point 1) :=
    Tensor.represents_ofPoint .double _
  obtain ⟨y, r', hrun⟩ := run_total (h := .standard) hs rfl hg r
  obtain ⟨ks, reason, hc⟩ := run_ok hrun
  refine ⟨isConvex_parabola (by positivity), y, ks, reason, r', hrun, hc, fun hall => ?_⟩
  obtain ⟨k, hk, hfollows⟩ := hc.path.exists_first
  have hr := Step.Follows.realizes (h := .standard) (a := s.settings.initialStep) hfollows hs rfl
    (hg.convert s.precision)
  -- However often the search has shrunk, the step is longer than twice the way to the minimum.
  have hlong : 2 / 10 ^ 13 < (Settings.standard : Settings ℝ).shrunk s.settings.initialStep k.shrinks := by
    have hle : k.shrinks ≤ 20 := hfollows.searched.shrinks_le
    rw [Settings.shrunk_eq, Settings.shrinkFactor_standard,
      show s.settings.initialStep = 1 from Settings.initialStep_standard, one_mul]
    calc (2 / 10 ^ 13 : ℝ) < (1 / 2) ^ 20 := by norm_num
      _ ≤ (1 / 2) ^ k.shrinks := pow_le_pow_of_le_one (by norm_num) (by norm_num) hle
  have hdirection : steepest (f.field (.single 0 (1 / 10 ^ 13))) = .single 0 (-1) := by
    have hfield : f.field (.single 0 (1 / 10 ^ 13)) = .single 0 (1 / 5) := by
      ext i
      simp [f]
      norm_num
    rw [hfield]
    refine steepest_single ?_
    rw [negligible_eq]
    norm_num
  have h := hall k hk
  rw [hr.next.toPoint_eq, hr.point.toPoint_eq, hdirection] at h
  generalize (Settings.standard : Settings ℝ).shrunk _ _ = size at hlong h
  simp only [f, PiLp.add_apply, PiLp.smul_apply, PiLp.single_apply, if_true, smul_eq_mul] at h
  nlinarith

/-- The same descent, with what is true of its steps. -/
theorem run_convex_near_minimum :
    let f : Landscape 1 := ⟨fun v => 1 + 10 ^ 12 * v 0 ^ 2, fun v => (2 * 10 ^ 12 : ℝ) • v⟩
    let s : Setup Id ℝ := .euclidean .standard f.value f.field
    let v : Point 1 := .single 0 (1 / 10 ^ 13)
    let r : Run ℝ := ⟨⟨0, 0, 0⟩, some .empty, []⟩
    (f.IsConvex ∧ s.Realizes [1] f.value f.field ∧ s.settings = .standard ∧
      (Tensor.ofPoint .double v : Tensor ℝ).Represents [1] v) ∧
    ∃ y ks reason r', perform (run s (.ofPoint .double v)) r = (.ok y, r') ∧
      Completed s (.ofPoint .double v) r ks y reason r' ∧
      ∀ k ∈ ks, f.value (k.next.toPoint 1) ≤ f.value (k.point.toPoint 1) ∨
        k.trial.exhausted = true ∧ k.shrinks = 20 ∧
          k.trial.stepSize = k.firstSize * (1 / 2) ^ 20 ∧
          ∀ t, k.trial.stepSize ≤ t →
            f.value (k.next.toPoint 1)
              ≤ f.value (k.point.toPoint 1 + t • k.direction.toPoint 1) := by
  intro f s v r
  have hf : f.IsConvex := isConvex_parabola (by positivity)
  have hs : s.Realizes [1] f.value f.field := Setup.realizes_euclidean _ _ _
  have hg : (Tensor.ofPoint .double v : Tensor ℝ).Represents [1] v := Tensor.represents_ofPoint .double v
  exact ⟨⟨hf, hs, rfl, hg⟩, run_convex hf hs rfl hg r⟩

end GradientDescent

end Minimization
