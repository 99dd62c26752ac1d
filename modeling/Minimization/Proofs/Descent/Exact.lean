import Minimization.Proofs.Descent.Path
import Minimization.Proofs.Exact.Vector

/-!
# Gradient descent on exact numbers

A setup realizes a loss and a field if it evaluates them at the points that the arrays of one shape
represent. The loss may have values outside the real numbers, as that of a barrier does, but
positions, directions and step sizes then never leave them: `Step.Follows.realizes` reads a step as
vector algebra, `v + size • steepest (field v)`. As every operation of an iteration is defined at
such arrays, a descent always succeeds (`run_total`).
-/

namespace Minimization

open ExactScalar
open scoped RealInnerProductSpace

variable {n : Nat}

/-- The direction of steepest descent for a gradient. -/
noncomputable def steepest (g : Point n) : Point n := unit negligible (-g)

/-- No direction of steepest descent is longer than one, that of a negligible gradient included. -/
theorem norm_steepest_le_one (g : Point n) : ‖steepest g‖ ≤ 1 :=
  norm_unit_le_one negligible_pos negligible_le_one _

/-- Unless the gradient is negligible, the direction of steepest descent has norm one. -/
theorem norm_steepest {g : Point n} (hg : negligible ≤ ‖g‖) : ‖steepest g‖ = 1 :=
  norm_unit negligible_pos (by rwa [norm_neg])

/-- The slope along it is then the norm of the gradient, downwards. -/
theorem inner_steepest {g : Point n} (hg : negligible ≤ ‖g‖) : ⟪g, steepest g⟫ = -‖g‖ := by
  have hne : ‖g‖ ≠ 0 := (negligible_pos.trans_le hg).ne'
  rw [steepest, unit, norm_neg, if_neg (not_lt.mpr hg), inner_smul_right, inner_neg_right,
    real_inner_self_eq_norm_sq]
  field_simp

/-- The slope along the direction of steepest descent is not positive. -/
theorem inner_steepest_nonpos (g : Point n) : ⟪g, steepest g⟫ ≤ 0 := by
  have h := inner_unit_nonneg negligible (-g)
  rw [inner_neg_left] at h
  exact neg_nonneg.mp h

namespace GradientDescent

variable {α : Type} [ExactScalar α] {shape : List Nat} {loss : Point n → α}
  {field : Point n → Point n}

/-- Real settings as settings of a descent. -/
def Settings.lift (h : Settings ℝ) : Settings α :=
  ⟨ofReal h.initialStep, ofReal h.shrinkFactor, ofReal h.growthFactor, ofReal h.terminationStep,
    ofReal h.sufficientShare, h.maxSteps, h.maxShrinks⟩

/-- Shrinking real sizes gives what shrinking their images gives. -/
theorem Settings.shrunk_lift (h : Settings ℝ) (a : ℝ) (i : Nat) :
    (h.lift : Settings α).shrunk (ofReal a) i = ofReal (h.shrunk a i) := by
  induction i generalizing a with
  | zero => rfl
  | succ i ih =>
    show (h.lift : Settings α).shrunk (ofReal a * ofReal h.shrinkFactor) i = _
    rw [← ofReal_mul]
    exact ih _

/-- At arrays of a shape the setup evaluates a loss and a field of the points that they represent.
-/
structure Setup.Realizes (s : Setup Id α) (shape : List Nat) (loss : Point n → α)
    (field : Point n → Point n) : Prop where
  before : s.before = pure ()
  loss : ∀ {x v}, x.Represents shape v → s.loss x = pure (.ofNumber (loss v))
  gradient : ∀ {x v}, x.Represents shape v →
    ∃ g, s.gradient x = pure g ∧ g.Represents shape (field v)

/-- The descent along a loss and a field of Euclidean space. -/
noncomputable def Setup.euclidean (settings : Settings ℝ) (loss : Point n → ℝ)
    (field : Point n → Point n) : Setup Id ℝ where
  name := "GradientDescent"
  precision := .double
  settings := settings
  loss x := pure (.ofNumber (loss (x.toPoint n)))
  gradient x := pure (.ofPoint .double (field (x.toPoint n)))
  before := pure ()

theorem Setup.realizes_euclidean (settings : Settings ℝ) (loss : Point n → ℝ)
    (field : Point n → Point n) : (Setup.euclidean settings loss field).Realizes [n] loss field where
  before := rfl
  loss hx := by rw [← hx.toPoint_eq]; rfl
  gradient hx := ⟨_, rfl, by rw [hx.toPoint_eq]; exact Tensor.represents_ofPoint _ _⟩

variable {s : Setup Id α} {h : Settings ℝ}

/-- The loss of a point that is represented is a number. -/
theorem Setup.Realizes.number (hs : s.Realizes shape loss field) {x : Tensor α} {v : Point n}
    (hx : x.Represents shape v) : s.loss.number x = pure (loss v) := by
  rw [Rule.number, hs.loss hx, pure_bind]
  rfl

/-- A step of real size from one point to another along the direction of steepest descent. -/
structure Step.Realizes (k : Step α) (s : Setup Id α) (shape : List Nat) (loss : Point n → α)
    (field : Point n → Point n) (v : Point n) (size : ℝ) : Prop where
  point : k.point.Represents shape v
  loss_eq : k.loss = loss v
  gradient : k.gradient.Represents shape (field v)
  direction : k.direction.Represents shape (steepest (field v))
  slope_eq : k.slope = ofReal ⟪field v, steepest (field v)⟫
  stepSize_eq : k.trial.stepSize = ofReal size
  next : k.next.Represents shape (v + size • steepest (field v))
  settled : Scalar.lt (k.bound s (ofReal size)) (loss (v + size • steepest (field v)))
    = k.trial.exhausted

/-- The direction that is computed represents that of steepest descent. -/
theorem Tensor.Represents.direction {g : Tensor α} {w : Point n} (hg : g.Represents shape w) :
    ∃ d, (g.scale (-Scalar.one)).normalizeAbove Tensor.negligible = .ok d ∧
      d.Represents shape (steepest w) := by
  have h := (hg.scale (-1)).normalizeAbove negligible_pos
  rwa [neg_one_smul, ofReal_neg, ← one_eq, ← Tensor.Represents.negligible_eq] at h

/-- A step from an array that represents a point, with a real first trial size. -/
theorem Step.Follows.realizes {k : Step α} {x : Tensor α} {v : Point n} {a : ℝ}
    (hk : k.Follows s x (ofReal a)) (hs : s.Realizes shape loss field) (hh : s.settings = h.lift)
    (hx : x.Represents shape v) : k.Realizes s shape loss field v (h.shrunk a k.shrinks) := by
  -- The point determines the gradient, and with it the direction.
  obtain ⟨g, hg, hgr⟩ := hs.gradient hx
  obtain rfl : g = k.gradient := Evaluation.pure_inj.mp (hg.symm.trans hk.gradient_eq)
  obtain ⟨d, hd, hdr⟩ := Tensor.Represents.direction hgr
  obtain rfl : d = k.direction := Except.ok.inj (hd.symm.trans hk.direction_eq)
  have hsize : k.trial.stepSize = ofReal (h.shrunk a k.shrinks) := by
    rw [hk.searched.stepSize_eq, hh, Settings.shrunk_lift]
  -- The trial that the search settles on is evaluated at the point that the step leads to.
  obtain ⟨z, hz, hzr⟩ := hx.moveBy (hdr.scale (h.shrunk a k.shrinks))
  have hnext := hk.next_eq
  rw [hk.searched.step_eq, hsize, hz] at hnext
  obtain rfl : z = k.next := Except.ok.inj hnext
  refine ⟨hk.point_eq ▸ hx, ?_, hgr, hdr, ?_, hsize, hzr, ?_⟩
  · exact Evaluation.pure_inj.mp (hk.loss_eq.symm.trans (hs.number hx))
  · exact Except.ok.inj (hk.slope_eq.symm.trans (hgr.inner hdr))
  · obtain ⟨there, answer, value, hthere, hanswer, hvalue, hlt⟩ := hk.searched.settled
    rw [hsize, hz] at hthere
    obtain rfl := Except.ok.inj hthere
    rw [hs.loss hzr] at hanswer
    obtain rfl := Evaluation.pure_inj.mp hanswer
    obtain rfl := Except.ok.inj hvalue
    rw [← hlt, hsize]

/-- The invariant of a path on exact numbers: a point of the shape, and a real trial size. -/
def AtPoint (n : Nat) (shape : List Nat) (x : Tensor α) (a : α) : Prop :=
  (∃ v : Point n, x.Represents shape v) ∧ ∃ b : ℝ, a = ofReal b

/-- An iteration goes on from a point to a point. -/
theorem Step.Follows.atPoint {k : Step α} {x : Tensor α} {a : α} (hk : k.Follows s x a)
    (hs : s.Realizes shape loss field) (hh : s.settings = h.lift) (hx : AtPoint n shape x a) :
    AtPoint n shape k.next (k.trial.stepSize * s.settings.growthFactor) := by
  obtain ⟨⟨v, hv⟩, b, rfl⟩ := hx
  have hr := hk.realizes hs hh hv
  refine ⟨⟨_, hr.next⟩, h.shrunk b k.shrinks * h.growthFactor, ?_⟩
  rw [hr.stepSize_eq, hh, ofReal_mul]
  rfl

/-- So a path that starts at a point ends at one. -/
theorem Path.represents {left : Nat} {x y : Tensor α} {a : α} {ks : List (Step α)}
    {reason : StopReason} (hp : Path s left x a ks y reason) (hs : s.Realizes shape loss field)
    (hh : s.settings = h.lift) (hx : AtPoint n shape x a) :
    ∃ w : Point n, y.Represents shape w := by
  obtain ⟨⟨_, hy, -⟩, -⟩ := hp.invariant hx fun _ _ _ _ hk => hk.atPoint hs hh
  exact hy

theorem atPoint_start (hh : s.settings = h.lift) {guess : Tensor α} {v : Point n}
    (hg : guess.Represents shape v) :
    AtPoint n shape (guess.convert s.precision) s.settings.initialStep :=
  ⟨⟨v, hg.convert s.precision⟩, h.initialStep, by rw [hh]; rfl⟩

/-! ## Descents never fail -/

/-- A line search on points always comes to an end: every size can be tried. -/
theorem exists_shrinks (hs : s.Realizes shape loss field) (hh : s.settings = h.lift) {x d : Tensor α}
    {v u : Point n} (hx : x.Represents shape v) (hd : d.Represents shape u) (bound : α → α) :
    ∀ (left : Nat) (a : ℝ), ∃ shrinks exhausted,
      Shrinks s x d bound left (ofReal a) () shrinks exhausted () := by
  -- Every real size can be tried, so the search never stops without an answer.
  have tries (a : ℝ) : ∃ rejected, Tried s x d bound (ofReal a) () rejected () := by
    obtain ⟨z, hz, hzr⟩ := hx.moveBy (hd.scale a)
    exact ⟨_, tries_iff_tried.mp ⟨z, _, _, hz, hs.loss hzr, rfl, rfl⟩⟩
  intro left
  induction left with
  | zero =>
    intro a
    obtain ⟨_ | _, ht⟩ := tries a
    · exact ⟨_, _, .accepted ht⟩
    · exact ⟨_, _, .exhausted ht⟩
  | succ left ih =>
    intro a
    obtain ⟨_ | _, ht⟩ := tries a
    · exact ⟨_, _, .accepted ht⟩
    · have hmul : (ofReal a : α) * s.settings.shrinkFactor = ofReal (a * h.shrinkFactor) := by
        rw [hh, ofReal_mul]
        rfl
      obtain ⟨shrinks, exhausted, hrest⟩ := ih (a * h.shrinkFactor)
      exact ⟨_, _, .shrunk ht (hmul ▸ hrest)⟩

/-- So it never fails. -/
theorem search_total (hs : s.Realizes shape loss field) (hh : s.settings = h.lift) {x d : Tensor α}
    {v u : Point n} (hx : x.Represents shape v) (hd : d.Represents shape u) (bound : α → α) (left : Nat)
    (a : ℝ) (r : Run α) :
    ∃ t r', perform (search s x d bound left (ofReal a) (d.scale (ofReal a))) r = (.ok t, r') := by
  obtain ⟨_, _, hshrinks⟩ := exists_shrinks hs hh hx hd bound left a
  exact ⟨_, _, perform_of_attempt (hshrinks.attempt_eq r)⟩

/-- Nor does an iteration, because the trial that its search ends with can be gone along. -/
theorem iteration_total (hs : s.Realizes shape loss field) (hh : s.settings = h.lift) {x : Tensor α}
    {a : α} (hx : AtPoint n shape x a) (r : Run α) :
    ∃ t y r', perform (iteration s x a) r = (.ok (t, y), r') := by
  obtain ⟨⟨v, hv⟩, b, rfl⟩ := hx
  obtain ⟨g, hg, hgr⟩ := hs.gradient hv
  obtain ⟨d, hd, hdr⟩ := Tensor.Represents.direction hgr
  unfold iteration
  rw [perform_bind_of_ok (perform_evaluate_eq_ok.mpr ⟨hs.before, rfl⟩),
    perform_bind_of_ok (perform_evaluate_eq_ok.mpr ⟨hs.number hv, rfl⟩),
    perform_bind_of_ok (perform_evaluate_eq_ok.mpr ⟨hg, rfl⟩),
    perform_bind_of_ok (perform_lift_eq_ok.mpr
      ⟨(checkGradient_eq_ok (u := ())).mpr (hgr.size_eq.trans hv.size_eq.symm), rfl⟩),
    perform_bind_of_ok (perform_lift_eq_ok.mpr ⟨hd, rfl⟩),
    perform_bind_of_ok (perform_record _ _),
    perform_bind_of_ok (perform_lift_eq_ok.mpr ⟨hgr.inner hdr, rfl⟩)]
  obtain ⟨t, r₁, ht⟩ := search_total hs hh hv hdr
    (fun a => loss v + s.settings.sufficientShare * a * ofReal ⟪field v, steepest (field v)⟫)
    s.settings.maxShrinks.toNat b
    (r.record fun h =>
      (((h.addPosition x.flatten).addLoss (loss v)).addDirection d.flatten).addStepSize (ofReal b))
  rw [perform_bind_of_ok ht]
  -- The trial it ends with is a real multiple of the direction, which can be gone along.
  obtain ⟨shrinks, searched, -⟩ := search_ok ht
  obtain ⟨z, hz, -⟩ := hv.moveBy (hdr.scale (h.shrunk b shrinks))
  rw [← Settings.shrunk_lift, ← hh, ← searched.stepSize_eq, ← searched.step_eq] at hz
  rw [perform_bind_of_ok (perform_lift_eq_ok.mpr ⟨hz, rfl⟩),
    perform_bind_of_ok (perform_reporting _ _)]
  exact ⟨_, _, _, rfl⟩

/-- Nor does the loop, by induction on the iterations that may follow. -/
theorem iterate_total (hs : s.Realizes shape loss field) (hh : s.settings = h.lift) :
    ∀ (left : Nat) {x : Tensor α} {a : α} (i j : Nat) (r : Run α), AtPoint n shape x a →
      ∃ e r', perform (iterate s left x a i j) r = (.ok e, r') := by
  intro left
  induction left with
  | zero =>
    intro x a i j r hx
    obtain ⟨t, y, r₁, ht⟩ := iteration_total hs hh hx r
    unfold iterate
    rw [perform_bind_of_ok ht]
    exact ⟨_, _, rfl⟩
  | succ left ih =>
    intro x a i j r hx
    obtain ⟨t, y, r₁, ht⟩ := iteration_total hs hh hx r
    unfold iterate
    rw [perform_bind_of_ok ht]
    obtain ⟨k, hk, rfl, rfl, rfl⟩ := iteration_ok ht
    dsimp only
    split
    next => exact ⟨_, _, rfl⟩
    next => exact ih _ _ _ (hk.atPoint hs hh hx)

/-- A descent on exact numbers succeeds from every point. -/
theorem run_total (hs : s.Realizes shape loss field) (hh : s.settings = h.lift) {guess : Tensor α}
    {v : Point n} (hg : guess.Represents shape v) (r : Run α) :
    ∃ y r', perform (run s guess) r = (.ok y, r') := by
  have hstart := atPoint_start hh hg
  obtain ⟨e, r₁, he⟩ := iterate_total hs hh (s.settings.maxSteps - 1).toNat 0 0 r hstart
  obtain ⟨ks, hp, -⟩ := iterate_ok he
  obtain ⟨w, hw⟩ := hp.represents hs hh hstart
  unfold run
  dsimp only
  rw [perform_bind_of_ok he, perform_bind_of_ok (perform_reporting _ _),
    perform_bind_of_ok (perform_evaluate_eq_ok.mpr ⟨hs.number hw, rfl⟩),
    perform_bind_of_ok (perform_reporting _ _), perform_bind_of_ok (perform_record _ _)]
  split
  next => exact ⟨_, _, rfl⟩
  next => exact ⟨_, _, rfl⟩

end GradientDescent

end Minimization
