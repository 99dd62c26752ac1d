import Minimization.Proofs.Descent.Exact

/-!
# Descents that decrease the loss

With real numbers, every step whose line search is not exhausted decreases the loss by the share of
what the slope promises, whatever loss and field are: the field need not be a gradient. For the
accepted trial is the step that is taken, its size is not negative, and the direction has no
positive slope. A descent without exhausted searches therefore records losses that never increase
(`run_decreases`).
-/

namespace Minimization.GradientDescent

open ExactScalar
open scoped RealInnerProductSpace

variable {n : Nat}

/-- Where no step of a path increases a quantity, it decreases along the whole path. -/
theorem Path.antitone {α : Type} [Scalar α] {s : Setup Id α} {left : Nat} {x y : Tensor α} {a : α}
    {ks : List (Step α)} {reason : StopReason} {L : Tensor α → ℝ} (hp : Path s left x a ks y reason)
    (hL : ∀ k ∈ ks, L k.next ≤ L k.point) :
    ((ks.map fun k => L k.point) ++ [L y]).Pairwise (· ≥ ·) ∧
      ∀ l ∈ (ks.map fun k => L k.point) ++ [L y], l ≤ L x := by
  -- Beside the order of the values, every one of them is at most the first, which carries the induction.
  induction hp with
  | full hk =>
    have h := hL _ (List.mem_singleton_self _)
    rw [hk.point_eq] at h
    simpa [hk.point_eq] using h
  | small hk _ =>
    have h := hL _ (List.mem_singleton_self _)
    rw [hk.point_eq] at h
    simpa [hk.point_eq] using h
  | step hk _ _ ih =>
    obtain ⟨hpair, hle⟩ := ih fun k hmem => hL k (List.mem_cons_of_mem _ hmem)
    have h := hL _ (List.mem_cons_self ..)
    rw [hk.point_eq] at h
    rw [List.map_cons, List.cons_append, hk.point_eq]
    refine ⟨List.pairwise_cons.mpr ⟨fun l hl => (hle l hl).trans h, hpair⟩, ?_⟩
    rintro l hl
    rcases List.mem_cons.mp hl with rfl | hl
    · exact le_rfl
    · exact (hle l hl).trans h

variable {s : Setup Id ℝ} {shape : List Nat} {F : Point n → ℝ} {dF : Point n → Point n}

/-- Every shrink multiplies the size by the factor. -/
theorem Settings.shrunk_eq (h : Settings ℝ) (a : ℝ) (i : Nat) :
    h.shrunk a i = a * h.shrinkFactor ^ i := by
  induction i generalizing a with
  | zero => exact (mul_one a).symm
  | succ i ih =>
    rw [pow_succ', ← mul_assoc]
    exact ih _

/-- Shrinking keeps a size from becoming negative. -/
theorem Settings.shrunk_nonneg {h : Settings ℝ} (hshrink : 0 ≤ h.shrinkFactor) {a : ℝ} (ha : 0 ≤ a)
    (i : Nat) : 0 ≤ h.shrunk a i := by
  rw [Settings.shrunk_eq]
  exact mul_nonneg ha (pow_nonneg hshrink i)

/-- What a step of real size that is not negative achieves. -/
structure Step.Decreases (k : Step ℝ) (s : Setup Id ℝ) (F : Point n → ℝ) (dF : Point n → Point n) :
    Prop where
  next_eq : k.next.toPoint n = k.point.toPoint n + k.trial.stepSize • k.direction.toPoint n
  slope_nonpos : ⟪dF (k.point.toPoint n), k.direction.toPoint n⟫ ≤ 0
  norm_le_one : ‖k.direction.toPoint n‖ ≤ 1
  decrease : k.trial.exhausted = false →
    F (k.next.toPoint n) ≤ F (k.point.toPoint n)
      + s.settings.sufficientShare * k.trial.stepSize
        * ⟪dF (k.point.toPoint n), k.direction.toPoint n⟫
  promise_le : F (k.point.toPoint n)
      + s.settings.sufficientShare * k.trial.stepSize
        * ⟪dF (k.point.toPoint n), k.direction.toPoint n⟫
    ≤ F (k.point.toPoint n)

/-- A step that was accepted decreases the loss as the comparison says, because the slope is not
positive. -/
theorem Step.Realizes.decreases {k : Step ℝ} {v : Point n} {size : ℝ}
    (hk : k.Realizes s shape F dF v size) (hshare : 0 ≤ s.settings.sufficientShare)
    (hsize : 0 ≤ size) : k.Decreases s F dF := by
  have hstep : k.trial.stepSize = size := hk.stepSize_eq
  have hslope := inner_steepest_nonpos (dF v)
  have hpromise := mul_nonpos_of_nonneg_of_nonpos (mul_nonneg hshare hsize) hslope
  refine ⟨?_, ?_, ?_, fun hx => ?_, ?_⟩
  · rw [hk.next.toPoint_eq, hk.point.toPoint_eq, hk.direction.toPoint_eq, hstep]
  · rw [hk.point.toPoint_eq, hk.direction.toPoint_eq]
    exact hslope
  · rw [hk.direction.toPoint_eq]
    exact norm_steepest_le_one _
  · -- An accepted trial has been compared with the very bound that is claimed.
    have hlt := hk.settled
    rw [hx, Step.bound, hk.loss_eq, hk.slope_eq] at hlt
    rw [hk.next.toPoint_eq, hk.point.toPoint_eq, hk.direction.toPoint_eq, hstep]
    exact not_lt.mp (of_decide_eq_false hlt)
  · rw [hk.point.toPoint_eq, hk.direction.toPoint_eq, hstep]
    exact add_le_of_nonpos_right hpromise

/-- The steps of a descent start at points, and what its first trial size satisfies and every iteration
hands on holds of all first trial sizes. -/
theorem Completed.follows {guess y : Tensor ℝ} {ks : List (Step ℝ)} {reason : StopReason}
    {r r' : Run ℝ} (hc : Completed s guess r ks y reason r') (hs : s.Realizes shape F dF) {v : Point n}
    (hg : guess.Represents shape v) {P : ℝ → Prop} (hstart : P s.settings.initialStep)
    (hnext : ∀ a i, P a → P (s.settings.shrunk a i * s.settings.growthFactor)) :
    (∃ w : Point n, y.Represents shape w) ∧
      ∀ k ∈ ks, ∃ x u, k.Follows s x k.firstSize ∧ x.Represents shape (u : Point n) ∧ P k.firstSize := by
  obtain ⟨⟨_, hy, -⟩, hmem⟩ := hc.path.invariant
    (I := fun x a => (∃ v : Point n, x.Represents shape v) ∧ P a) ⟨⟨v, hg.convert _⟩, hstart⟩ (by
      rintro k - x a hk ⟨⟨u, hu⟩, ha⟩
      have hr := Step.Follows.realizes (h := s.settings) hk hs rfl hu
      refine ⟨⟨_, hr.next⟩, ?_⟩
      rw [hr.stepSize_eq]
      exact hnext a k.shrinks ha)
  refine ⟨hy, fun k hk => ?_⟩
  obtain ⟨x, a, hf, ⟨u, hu⟩, ha⟩ := hmem k hk
  obtain rfl := hf.firstSize_eq
  exact ⟨x, u, hf, hu, ha⟩

/-- With factors that are not negative, the steps of a descent are vector algebra, and their first trial
sizes are not negative either. -/
theorem Completed.realizes {guess y : Tensor ℝ} {ks : List (Step ℝ)} {reason : StopReason}
    {r r' : Run ℝ} (hc : Completed s guess r ks y reason r') (hs : s.Realizes shape F dF)
    (hstart : 0 ≤ s.settings.initialStep) (hshrink : 0 ≤ s.settings.shrinkFactor)
    (hgrowth : 0 ≤ s.settings.growthFactor) {v : Point n} (hg : guess.Represents shape v) :
    (∃ w : Point n, y.Represents shape w) ∧
      ∀ k ∈ ks, ∃ u, k.Realizes s shape F dF u (s.settings.shrunk k.firstSize k.shrinks) ∧
        0 ≤ k.firstSize := by
  obtain ⟨hy, hmem⟩ := hc.follows hs hg (P := (0 ≤ ·)) hstart fun a i ha =>
    mul_nonneg (Settings.shrunk_nonneg hshrink ha i) hgrowth
  refine ⟨hy, fun k hk => ?_⟩
  obtain ⟨x, u, hf, hu, ha⟩ := hmem k hk
  exact ⟨u, Step.Follows.realizes (h := s.settings) (a := k.firstSize) hf hs rfl hu, ha⟩

/-- Without exhausted searches no loss that a descent records is above an earlier one. -/
theorem Completed.pairwise_losses {guess y : Tensor ℝ} {ks : List (Step ℝ)} {reason : StopReason}
    {r r' : Run ℝ} (hc : Completed s guess r ks y reason r') (hs : s.Realizes shape F dF)
    {w : Point n} (hy : y.Represents shape w) (hloss : ∀ k ∈ ks, k.loss = F (k.point.toPoint n))
    (hk : ∀ k ∈ ks, k.Decreases s F dF) (hx : ∀ k ∈ ks, k.trial.exhausted = false) :
    ((ks.map fun k => k.loss) ++ [r'.report.loss]).Pairwise (· ≥ ·) ∧
      r'.report.loss ≤ F (guess.toPoint n) := by
  have hend : r'.report.loss = F (y.toPoint n) := by
    rw [hy.toPoint_eq]
    exact Evaluation.pure_inj.mp (hc.loss.symm.trans (hs.number hy))
  obtain ⟨hpair, hle⟩ := hc.path.antitone (L := fun x => F (x.toPoint n)) fun k hmem =>
    ((hk k hmem).decrease (hx k hmem)).trans (hk k hmem).promise_le
  rw [Tensor.toPoint_convert] at hle
  rw [List.map_congr_left hloss, hend]
  exact ⟨hpair, hle _ (List.mem_append_right _ (List.mem_singleton_self _))⟩

/-- A descent on real numbers, along any loss and any field, succeeds. In every iteration the slope
is not positive and the direction not longer than one, and unless the line search is exhausted the
loss decreases by the share of what the slope promises for the step that is taken. In a descent
without exhausted searches no recorded loss is above an earlier one, and the last loss is not above
that of the initial guess. -/
theorem run_decreases (hs : s.Realizes shape F dF) (hstart : 0 ≤ s.settings.initialStep)
    (hshrink : 0 ≤ s.settings.shrinkFactor) (hgrowth : 0 ≤ s.settings.growthFactor)
    (hshare : 0 ≤ s.settings.sufficientShare) {guess : Tensor ℝ} {v : Point n}
    (hg : guess.Represents shape v) (r : Run ℝ) :
    ∃ y ks reason r', perform (run s guess) r = (.ok y, r') ∧ Completed s guess r ks y reason r' ∧
      (∀ k ∈ ks, k.Decreases s F dF) ∧
      ((∀ k ∈ ks, k.trial.exhausted = false) →
        r'.report.loss ≤ F v ∧
        (r.history = some .empty →
          ∃ h, r'.history = some h ∧ h.losses.Pairwise (· ≥ ·))) := by
  obtain ⟨y, r', hrun⟩ := run_total (h := s.settings) hs rfl hg r
  obtain ⟨ks, reason, hc⟩ := run_ok hrun
  obtain ⟨⟨w, hw⟩, hreal⟩ := hc.realizes hs hstart hshrink hgrowth hg
  have hdec : ∀ k ∈ ks, k.Decreases s F dF := by
    intro k hk
    obtain ⟨u, hr, ha⟩ := hreal k hk
    exact hr.decreases hshare (Settings.shrunk_nonneg hshrink ha _)
  have hloss : ∀ k ∈ ks, k.loss = F (k.point.toPoint n) := by
    intro k hk
    obtain ⟨u, hr, -⟩ := hreal k hk
    rw [hr.loss_eq, hr.point.toPoint_eq]
  refine ⟨y, ks, reason, r', hrun, hc, hdec, fun hx => ?_⟩
  obtain ⟨hpair, hle⟩ := hc.pairwise_losses hs hw hloss hdec hx
  rw [hg.toPoint_eq] at hle
  refine ⟨hle, fun hr => ⟨_, by rw [hc.history, hr]; rfl, hpair⟩⟩

/-- A descent from the point (3, 4) along the square of the norm, with half its gradient. -/
theorem run_decreases_norm_sq :
    let settings : Settings ℝ := ⟨1, 1 / 2, 6 / 5, 1 / 10 ^ 8, 1 / 100, 100, 20⟩
    let s := Setup.euclidean settings (fun v : Point 2 => ‖v‖ ^ 2) id
    let v : Point 2 := WithLp.toLp 2 ![3, 4]
    let r : Run ℝ := ⟨⟨0, 0, 0⟩, some .empty, []⟩
    ((0 : ℝ) ≤ 1 ∧ (0 : ℝ) ≤ 1 / 2 ∧ (0 : ℝ) ≤ 6 / 5 ∧ (0 : ℝ) ≤ 1 / 100) ∧
    ∃ y ks reason r', perform (run s (.ofPoint .double v)) r = (.ok y, r') ∧
      Completed s (.ofPoint .double v) r ks y reason r' ∧
      (∀ k ∈ ks, k.Decreases s (fun v : Point 2 => ‖v‖ ^ 2) id) ∧
      ((∀ k ∈ ks, k.trial.exhausted = false) →
        r'.report.loss ≤ ‖v‖ ^ 2 ∧
        (r.history = some .empty → ∃ h, r'.history = some h ∧ h.losses.Pairwise (· ≥ ·))) := by
  intro settings s v r
  refine ⟨by norm_num, ?_⟩
  exact run_decreases (Setup.realizes_euclidean settings _ _)
    (by norm_num [s, settings, Setup.euclidean])
    (by norm_num [s, settings, Setup.euclidean]) (by norm_num [s, settings, Setup.euclidean])
    (by norm_num [s, settings, Setup.euclidean]) (Tensor.represents_ofPoint .double v) r

end Minimization.GradientDescent
