import Minimization.Proofs.Descent.Decrease

/-!
# Descents along a rescaled loss

A loss that is multiplied by a positive number and shifted by another one, with its field multiplied by the
same number, has the same directions of steepest descent, as these are brought to norm one. The slopes and the
losses that a line search compares are rescaled alike, and how a descent ends does not depend on losses at
all. So along the rescaled loss a descent takes the same steps (`Path.rescaled`) and leaves the same run,
except that the losses in it are rescaled (`run_rescaled`).

Only a gradient that is negligible is not brought to norm one. No gradient of the descent may become
negligible by the factor, or cease to be, unless it is zero.
-/

namespace Minimization

open ExactScalar
open scoped RealInnerProductSpace

variable {n : Nat} {shape : List Nat} {c : ℝ}

/-- The gradient is zero, or neither it nor its multiple by a factor is negligible. -/
def Discernible (c : ℝ) (g : Point n) : Prop := g = 0 ∨ negligible ≤ ‖g‖ ∧ negligible ≤ c * ‖g‖

/-- A positive factor does not change the direction. -/
theorem steepest_smul (hc : 0 < c) {g : Point n} (hg : Discernible c g) :
    steepest (c • g) = steepest g := by
  rcases hg with rfl | ⟨hg, hcg⟩
  · rw [smul_zero]
  · rw [← norm_neg] at hg hcg
    rw [steepest, steepest, ← smul_neg, unit_smul hc hg hcg]

/-! ## What is rescaled -/

section Rescaled

variable {α : Type} [Scalar α]

/-- An answer multiplied by a number and shifted by another one. -/
def Answer.rescaled (c b : α) (r : Answer α) : Answer α :=
  ⟨r.converted.map fun a => c * a + b, r.operand.map fun a => c * a + b⟩

/-- The recorded losses rescaled. -/
def History.rescaled (c b : α) (h : History α) : History α :=
  { h with losses := h.losses.map fun l => c * l + b }

/-- What is told at the end of a descent, with its loss rescaled. -/
def Notice.rescaled (c b : α) : Notice α → Notice α
  | .descentEnded solver reason iterations loss => .descentEnded solver reason iterations (c * loss + b)
  | notice => notice

/-- A run with all losses of descents in it rescaled. -/
def Run.rescaled (c b : α) (r : Run α) : Run α :=
  ⟨{ r.report with loss := c * r.report.loss + b }, r.history.map (History.rescaled c b),
    r.notices.map (Notice.rescaled c b)⟩

namespace GradientDescent

/-- The descent along a rescaled loss: its values are multiplied by a number and shifted by another one, its
gradients are multiplied by the number. -/
def Setup.rescaled (c b : α) (s : Setup Id α) : Setup Id α :=
  { s with
    loss := fun x => do return (← s.loss x).rescaled c b
    gradient := fun x => do return (← s.gradient x).scale c }

/-- A step along a rescaled loss: positions, directions, sizes and trials are the same. -/
def Step.rescaled (c b : α) (k : Step α) : Step α :=
  { k with loss := c * k.loss + b, gradient := k.gradient.scale c, slope := c * k.slope }

end GradientDescent

end Rescaled

namespace GradientDescent

variable {s : Setup Id ℝ} {F : Point n → ℝ} {dF : Point n → Point n} {b : ℝ}

/-- A loss and its gradient are rescaled together. -/
theorem Setup.Realizes.rescaled (hs : s.Realizes shape F dF) (c b : ℝ) :
    (s.rescaled c b).Realizes shape (fun v => c * F v + b) (fun v => c • dF v) where
  before := hs.before
  loss hx := by
    show (s.loss _ >>= fun r => pure (r.rescaled c b)) = _
    rw [hs.loss hx]
    rfl
  gradient hx := by
    obtain ⟨g, hg, hgr⟩ := hs.gradient hx
    refine ⟨g.scale c, ?_, hgr.scale c⟩
    show (s.gradient _ >>= fun g => pure (g.scale c)) = _
    rw [hg]
    rfl

/-- The numbers that the loss answers are rescaled. -/
theorem Setup.number_rescaled {x : Tensor ℝ} {l : ℝ} (h : s.loss.number x = pure l) :
    (s.rescaled c b).loss.number x = pure (c * l + b) := by
  obtain ⟨answer, hanswer, hl⟩ := Evaluation.bind_eq_pure.mp h
  obtain ⟨converted, operand⟩ := answer
  obtain rfl : converted = .ok l := hl
  show ((s.loss x >>= fun r => pure (r.rescaled c b)) >>= fun r => Evaluation.of r.converted) = _
  rw [hanswer]
  rfl

/-! ## Line searches -/

/-- A positive factor and a shift keep the order of losses. -/
theorem Tries.rescaled (hc : 0 < c) {x d : Tensor ℝ} {bound bound' : ℝ → ℝ} {a : ℝ} {rejected : Bool}
    (h : Tries s x d bound a rejected) (hbound : bound' a = c * bound a + b) :
    Tries (s.rescaled c b) x d bound' a rejected := by
  obtain ⟨there, answer, value, hthere, hanswer, hvalue, rfl⟩ := h
  refine ⟨there, answer.rescaled c b, c * value + b, hthere, ?_, ?_, ?_⟩
  · show (s.loss there >>= fun r => pure (r.rescaled c b)) = _
    rw [hanswer]
    rfl
  · rw [Answer.rescaled, hvalue]
    rfl
  · rw [hbound]
    refine decide_eq_decide.mpr ?_
    rw [add_lt_add_iff_right, mul_lt_mul_iff_right₀ hc]

/-- A line search makes the same comparisons, because both sides of each are rescaled alike. -/
theorem Searched.rescaled (hc : 0 < c) {x d : Tensor ℝ} {bound bound' : ℝ → ℝ} {left shrinks : Nat}
    {a : ℝ} {t : Trial ℝ} (h : Searched s x d bound left a shrinks t)
    (hbound : ∀ a, bound' a = c * bound a + b) :
    Searched (s.rescaled c b) x d bound' left a shrinks t where
  shrinks_le := h.shrinks_le
  stepSize_eq := h.stepSize_eq
  step_eq := h.step_eq
  rejected i hi := (h.rejected i hi).rescaled hc (hbound _)
  settled := h.settled.rescaled hc (hbound _)
  exhausted := h.exhausted

/-! ## Steps and paths -/

/-- The direction does not change as an array either. -/
theorem direction_rescaled (hc : 0 < c) {x d : Tensor ℝ} {g : Point n} (hx : x.Represents shape g)
    (hg : Discernible c g)
    (hd : (x.scale (-Scalar.one)).normalizeAbove Tensor.negligible = .ok d) :
    ((x.scale c).scale (-Scalar.one)).normalizeAbove Tensor.negligible = .ok d := by
  obtain ⟨d₁, hd₁, hr₁⟩ := Tensor.Represents.direction hx
  obtain rfl : d₁ = d := Except.ok.inj (hd₁.symm.trans hd)
  obtain ⟨d₂, hd₂, hr₂⟩ := Tensor.Represents.direction (hx.scale c)
  rw [steepest_smul hc hg] at hr₂
  have hprecision : d₂.precision = d₁.precision := by
    rw [Tensor.precision_of_normalizeAbove_ok hd₂, Tensor.precision_of_normalizeAbove_ok hd₁]
    rfl
  have heq : d₂ = d₁ := hr₂.eq hr₁ hprecision
  rw [← heq]
  exact hd₂

/-- The step from an array along a rescaled loss. -/
theorem Step.Follows.rescaled {k : Step ℝ} {x : Tensor ℝ} {a : ℝ} (hk : k.Follows s x a) (hc : 0 < c)
    (b : ℝ) {g : Point n} (hg : k.gradient.Represents shape g) (hdiscernible : Discernible c g) :
    (k.rescaled c b).Follows (s.rescaled c b) x a where
  point_eq := hk.point_eq
  firstSize_eq := hk.firstSize_eq
  loss_eq := Setup.number_rescaled hk.loss_eq
  gradient_eq := by
    show (s.gradient x >>= fun g => pure (g.scale c)) = _
    rw [hk.gradient_eq]
    rfl
  size_eq := (List.length_map _).trans hk.size_eq
  direction_eq := direction_rescaled hc hg hdiscernible hk.direction_eq
  slope_eq := by
    obtain ⟨d, hd, hdr⟩ := Tensor.Represents.direction hg
    obtain rfl : d = k.direction := Except.ok.inj (hd.symm.trans hk.direction_eq)
    have hslope : k.slope = ⟪g, steepest g⟫ := Except.ok.inj (hk.slope_eq.symm.trans (hg.inner hdr))
    show (k.gradient.scale c).inner k.direction = .ok (c * k.slope)
    rw [hslope, ← real_inner_smul_left]
    exact (hg.scale c).inner hdr
  -- Loss and slope grow by the same factor, so the bound of the search is rescaled as the loss is.
  searched := hk.searched.rescaled hc fun a => by
    show c * k.loss + b + s.settings.sufficientShare * a * (c * k.slope)
      = c * (k.loss + s.settings.sufficientShare * a * k.slope) + b
    ring
  next_eq := hk.next_eq

/-- A path along the rescaled loss, in which the first steps are the rescaled ones. -/
theorem Path.rescaled {left : Nat} {x y : Tensor ℝ} {a : ℝ} {ks : List (Step ℝ)} {reason : StopReason}
    (hp : Path s left x a ks y reason) (hc : 0 < c) (b : ℝ)
    (hgradient : ∀ k ∈ ks, ∃ g : Point n, k.gradient.Represents shape g ∧ Discernible c g) :
    Path (s.rescaled c b) left x a (ks.map (Step.rescaled c b)) y reason := by
  induction hp with
  | full hk =>
    obtain ⟨g, hg, hdiscernible⟩ := hgradient _ (List.mem_singleton_self _)
    exact .full (hk.rescaled hc b hg hdiscernible)
  | small hk hle =>
    obtain ⟨g, hg, hdiscernible⟩ := hgradient _ (List.mem_singleton_self _)
    exact .small (hk.rescaled hc b hg hdiscernible) hle
  | step hk hle _ ih =>
    obtain ⟨g, hg, hdiscernible⟩ := hgradient _ (List.mem_cons_self ..)
    exact .step (hk.rescaled hc b hg hdiscernible) hle
      (ih fun k hmem => hgradient k (List.mem_cons_of_mem _ hmem))

/-! ## Runs -/

theorem exhaustedCount_rescaled (c b : ℝ) (ks : List (Step ℝ)) :
    exhaustedCount (ks.map (Step.rescaled c b)) = exhaustedCount ks :=
  List.countP_map

/-- The iterations record the same, with their losses rescaled. -/
theorem recordAll_rescaled (s : Setup Id ℝ) (c b : ℝ) (ks : List (Step ℝ)) (h : History ℝ) :
    recordAll (s.rescaled c b) (ks.map (Step.rescaled c b)) (h.rescaled c b)
      = (recordAll s ks h).rescaled c b := by
  simp only [recordAll, History.rescaled, List.map_append, List.map_map, List.flatMap_map]
  rfl

theorem endNotices_rescaled (s : Setup Id ℝ) (c b : ℝ) (ks : List (Step ℝ)) (reason : StopReason)
    (loss : ℝ) :
    endNotices (s.rescaled c b) (ks.map (Step.rescaled c b)) reason (c * loss + b)
      = (endNotices s ks reason loss).map (Notice.rescaled c b) := by
  rw [endNotices, endNotices, exhaustedCount_rescaled, List.length_map, List.map_append]
  split <;> rfl

/-- What a descent leaves behind along the rescaled loss, whatever an earlier run has reported. -/
theorem Completed.rescaled {guess y : Tensor ℝ} {r r' : Run ℝ} {ks : List (Step ℝ)}
    {reason : StopReason} (h : Completed s guess r ks y reason r') (hc : 0 < c) (b : ℝ)
    (hgradient : ∀ k ∈ ks, ∃ g : Point n, k.gradient.Represents shape g ∧ Discernible c g)
    (report : Report ℝ) :
    Completed (s.rescaled c b) guess { r.rescaled c b with report := report }
      (ks.map (Step.rescaled c b)) y reason (r'.rescaled c b) where
  path := h.path.rescaled hc b hgradient
  loss := Setup.number_rescaled h.loss
  stepSize := by
    obtain ⟨k, hk, -⟩ := h.path.exists_first
    have hne : ks.map (fun k => k.trial.stepSize) ≠ [] := List.ne_nil_of_mem (List.mem_map_of_mem hk)
    have hsize : r'.report.stepSize = _ := h.stepSize
    rw [List.getLastD_eq_getLast?, List.getLast?_eq_some_getLast hne] at hsize
    rw [List.map_map, List.getLastD_eq_getLast?]
    show r'.report.stepSize = ((ks.map fun k => k.trial.stepSize).getLast?).getD _
    rw [List.getLast?_eq_some_getLast hne]
    exact hsize
  iterations := by
    rw [List.length_map]
    exact h.iterations
  history := by
    show r'.history.map (History.rescaled c b) = (r.history.map (History.rescaled c b)).map _
    rw [h.history, Option.map_map, Option.map_map]
    congr 1
    funext h
    rw [Function.comp_apply, Function.comp_apply, recordAll_rescaled]
    simp only [History.rescaled, History.addPosition, History.addLoss, List.map_append]
    rfl
  notices := by
    show r'.notices.map (Notice.rescaled c b) = r.notices.map (Notice.rescaled c b) ++ _
    rw [h.notices, List.map_append, ← endNotices_rescaled]
    rfl

/-- A descent along any loss and any field succeeds, and along the rescaled loss with the field multiplied by
the same positive number it ends at the same point. It takes the same steps there, of the same sizes and after
the same shrinks, and leaves the same behind, with its losses rescaled, provided that in no step the gradient
becomes or ceases to be negligible by the factor, unless it is zero. -/
theorem run_rescaled (hs : s.Realizes shape F dF) (hc : 0 < c) (b : ℝ) {guess : Tensor ℝ} {v : Point n}
    (hg : guess.Represents shape v) (r : Run ℝ) (report : Report ℝ) :
    (s.rescaled c b).Realizes shape (fun v => c * F v + b) (fun v => c • dF v) ∧
    ∃ y ks reason r', perform (run s guess) r = (.ok y, r') ∧ Completed s guess r ks y reason r' ∧
      ((∀ k ∈ ks, Discernible c (dF (k.point.toPoint n))) →
        perform (run (s.rescaled c b) guess) { r.rescaled c b with report := report }
          = (.ok y, r'.rescaled c b) ∧
        Completed (s.rescaled c b) guess { r.rescaled c b with report := report }
          (ks.map (Step.rescaled c b)) y reason (r'.rescaled c b)) := by
  refine ⟨hs.rescaled c b, ?_⟩
  obtain ⟨y, r', hrun⟩ := run_total (h := s.settings) hs rfl hg r
  obtain ⟨ks, reason, hcompleted⟩ := run_ok hrun
  refine ⟨y, ks, reason, r', hrun, hcompleted, fun hdiscernible => ?_⟩
  obtain ⟨-, hsteps⟩ := hcompleted.follows hs hg (P := fun _ => True) trivial fun _ _ h => h
  have hgradient : ∀ k ∈ ks, ∃ g : Point n, k.gradient.Represents shape g ∧ Discernible c g := by
    intro k hk
    obtain ⟨x, u, hf, hu, -⟩ := hsteps k hk
    have hr := Step.Follows.realizes (h := s.settings) (a := k.firstSize) hf hs rfl hu
    refine ⟨_, hr.gradient, ?_⟩
    rw [← hr.point.toPoint_eq]
    exact hdiscernible k hk
  have hrescaled := hcompleted.rescaled hc b hgradient report
  exact ⟨hrescaled.perform_eq hs.before, hrescaled⟩

/-- A descent from the point (3, 4) along a slope, whose gradient is never negligible, and along three times
the slope plus seven. -/
theorem run_rescaled_inner :
    let settings : Settings ℝ := ⟨1, 1 / 2, 6 / 5, 1 / 10 ^ 8, 1 / 100, 100, 20⟩
    let g : Point 2 := WithLp.toLp 2 ![0, 1]
    let s := Setup.euclidean settings (fun v : Point 2 => ⟪g, v⟫) fun _ => g
    let guess := Tensor.ofPoint .double (WithLp.toLp 2 ![3, 4] : Point 2)
    let r : Run ℝ := ⟨⟨0, 0, 0⟩, some .empty, []⟩
    (0 : ℝ) < 3 ∧ Discernible 3 g ∧
    ∃ y ks reason r', perform (run s guess) r = (.ok y, r') ∧ Completed s guess r ks y reason r' ∧
      perform (run (s.rescaled 3 7) guess) r = (.ok y, r'.rescaled 3 7) ∧
      Completed (s.rescaled 3 7) guess r (ks.map (Step.rescaled 3 7)) y reason (r'.rescaled 3 7) := by
  intro settings g s guess r
  have hnorm : ‖g‖ = 1 := by
    simp [g, EuclideanSpace.norm_eq]
  have hg : Discernible 3 g := by
    refine .inr ?_
    rw [hnorm]
    exact ⟨negligible_le_one, negligible_le_one.trans (by norm_num)⟩
  refine ⟨by norm_num, hg, ?_⟩
  obtain ⟨-, y, ks, reason, r', hrun, hc, h⟩ := run_rescaled (Setup.realizes_euclidean settings _ _)
    (by norm_num : (0 : ℝ) < 3) 7 (Tensor.represents_ofPoint .double _) r ⟨0, 0, 0⟩
  exact ⟨y, ks, reason, r', hrun, hc, h fun _ _ => hg⟩

end GradientDescent

end Minimization
