import Mathlib.Algebra.Field.GeomSum
import Mathlib.Analysis.SpecialFunctions.Sqrt
import Minimization.Proofs.Descent.Moments
import Minimization.Proofs.Exact.Coordinate

/-!
# How far a moment descent moves

No coordinate moves far in a moment descent on exact numbers, whatever the gradients are. The reason is
an inequality between the two moments: the square of the first one is bounded by the second one, times a
geometric sum of the first decay (`Moments.Tracks`). It holds at the start, where both are zero, and an
iteration keeps it (`Moments.Tracks.update`) by a weighted Cauchy–Schwarz inequality. The corrected step
size then turns it into a bound of the step by the ratio of the geometric sums of the two decays; it is
the step size itself in the first iteration.
-/

namespace Minimization.Adam

open ExactScalar

/-! ## Settings -/

/-- The decays are those of means, the first one not larger than the second one. -/
structure Settings.IsDecaying (h : Settings ℝ) : Prop where
  firstDecay_nonneg : 0 ≤ h.firstDecay
  firstDecay_le : h.firstDecay ≤ h.secondDecay
  secondDecay_lt_one : h.secondDecay < 1
  guardTerm_pos : 0 < h.guardTerm
  stepSize_nonneg : 0 ≤ h.stepSize

/-- The sum of the powers of the first decay. -/
def Settings.firstSum (h : Settings ℝ) (t : Nat) : ℝ := ∑ j ∈ Finset.range t, h.firstDecay ^ j

/-- The sum of the powers of the second decay. -/
def Settings.secondSum (h : Settings ℝ) (t : Nat) : ℝ := ∑ j ∈ Finset.range t, h.secondDecay ^ j

/-- The corrected step size, where it is defined. -/
theorem correctedStep_eq_ok {h : Settings ℝ} {t : Nat} (hroot : 0 ≤ 1 - h.secondDecay ^ t)
    (hne : 1 - h.firstDecay ^ t ≠ 0) :
    correctedStep h t
      = .ok (h.stepSize * √(1 - h.secondDecay ^ t) / (1 - h.firstDecay ^ t)) := by
  have hpower₁ := power_ofReal (α := ℝ) h.firstDecay t
  have hpower₂ := power_ofReal (α := ℝ) h.secondDecay t
  have hsqrt := squareRoot_ofReal (α := ℝ) hroot
  have hdivide := divide_ofReal (α := ℝ) (h.stepSize * √(1 - h.secondDecay ^ t)) hne
  simp only [ofReal_real] at hpower₁ hpower₂ hsqrt hdivide
  rw [correctedStep, hpower₂, one_eq, ofReal_real]
  show (Scalar.squareRoot _ >>= _) = _
  rw [hsqrt, hpower₁]
  exact hdivide

namespace Settings.IsDecaying

variable {h : Settings ℝ} (hd : h.IsDecaying)
include hd

theorem secondDecay_nonneg : 0 ≤ h.secondDecay := hd.firstDecay_nonneg.trans hd.firstDecay_le

theorem one_sub_firstDecay_pos : 0 < 1 - h.firstDecay :=
  sub_pos.mpr (hd.firstDecay_le.trans_lt hd.secondDecay_lt_one)

theorem one_sub_secondDecay_pos : 0 < 1 - h.secondDecay := sub_pos.mpr hd.secondDecay_lt_one

theorem firstSum_nonneg (t : Nat) : 0 ≤ h.firstSum t :=
  Finset.sum_nonneg fun _ _ => pow_nonneg hd.firstDecay_nonneg _

/-- The weights of the gradients so far sum up to something positive, so they can be divided by. -/
theorem firstSum_pos (t : Nat) : 0 < h.firstSum (t + 1) := by
  have hsum := hd.firstSum_nonneg t
  have := hd.firstDecay_nonneg
  rw [firstSum, geom_sum_succ]
  rw [firstSum] at hsum
  positivity

theorem secondSum_nonneg (t : Nat) : 0 ≤ h.secondSum t :=
  Finset.sum_nonneg fun _ _ => pow_nonneg hd.secondDecay_nonneg _

/-- The corrected step size in terms of the two sums. -/
theorem correctedStep_eq (t : Nat) :
    correctedStep h (t + 1) = .ok (h.stepSize * √((1 - h.secondDecay) * h.secondSum (t + 1))
      / ((1 - h.firstDecay) * h.firstSum (t + 1))) := by
  -- The bias corrections are geometric sums, up to the factor that the moments carry as well.
  have hfirst : (1 - h.firstDecay) * h.firstSum (t + 1) = 1 - h.firstDecay ^ (t + 1) :=
    mul_neg_geom_sum _ _
  have hsecond : (1 - h.secondDecay) * h.secondSum (t + 1) = 1 - h.secondDecay ^ (t + 1) :=
    mul_neg_geom_sum _ _
  have hroot : 0 ≤ 1 - h.secondDecay ^ (t + 1) := by
    rw [← hsecond]
    exact mul_nonneg hd.one_sub_secondDecay_pos.le (hd.secondSum_nonneg _)
  have hne : 1 - h.firstDecay ^ (t + 1) ≠ 0 := by
    rw [← hfirst]
    exact (mul_pos hd.one_sub_firstDecay_pos (hd.firstSum_pos t)).ne'
  rw [hfirst, hsecond, correctedStep_eq_ok hroot hne]

end Settings.IsDecaying

/-! ## Moments -/

/-- What a moment of a gradient is after another one: the weighted Cauchy–Schwarz inequality that bounds
the square of the first one by the second one. -/
theorem mean_sq_le {a b c d S M V g : ℝ} (ha : 0 ≤ a) (hab : a ≤ b) (hd : 0 ≤ d) (hS : 0 ≤ S)
    (hV : 0 ≤ V) (h : M ^ 2 * d ≤ c ^ 2 * S * V) :
    (M * a + g * c) ^ 2 * d ≤ c ^ 2 * (a * S + 1) * (V * b + g * g * d) := by
  have hb : 0 ≤ b := ha.trans hab
  -- The mixed term is bounded by the arithmetic mean of the two others.
  have hmixed : 2 * (c * d * M * g) ≤ c ^ 2 * (S * d * g ^ 2 + V) := by
    refine le_of_abs_le (abs_le_of_sq_le_sq ?_ (by positivity))
    calc (2 * (c * d * M * g)) ^ 2 = 4 * c ^ 2 * d * g ^ 2 * (M ^ 2 * d) := by ring
      _ ≤ 4 * c ^ 2 * d * g ^ 2 * (c ^ 2 * S * V) := by gcongr
      _ = 4 * (c ^ 2 * (S * d * g ^ 2)) * (c ^ 2 * V) := by ring
      _ ≤ (c ^ 2 * (S * d * g ^ 2) + c ^ 2 * V) ^ 2 := four_mul_le_sq_add _ _
      _ = (c ^ 2 * (S * d * g ^ 2 + V)) ^ 2 := by ring
  calc (M * a + g * c) ^ 2 * d
      = a * a * (M ^ 2 * d) + a * (2 * (c * d * M * g)) + c ^ 2 * d * g ^ 2 := by ring
    _ ≤ a * b * (c ^ 2 * S * V) + a * (c ^ 2 * (S * d * g ^ 2)) + b * (c ^ 2 * V)
        + c ^ 2 * d * g ^ 2 := by
      have hfirst : a * a * (M ^ 2 * d) ≤ a * b * (c ^ 2 * S * V) := by gcongr
      have hsecond : a * (2 * (c * d * M * g)) ≤ a * (c ^ 2 * (S * d * g ^ 2)) + b * (c ^ 2 * V) :=
        calc a * (2 * (c * d * M * g)) ≤ a * (c ^ 2 * (S * d * g ^ 2 + V)) := by gcongr
          _ = a * (c ^ 2 * (S * d * g ^ 2)) + a * (c ^ 2 * V) := by ring
          _ ≤ _ := by gcongr
      linarith
    _ = c ^ 2 * (a * S + 1) * (V * b + g * g * d) := by ring

/-- The moments after some iterations: no second moment is negative, and it bounds the square of the
first one, coordinate by coordinate. -/
structure Moments.Tracks (ms : Moments ℝ) (h : Settings ℝ) (size t : Nat) : Prop where
  size_first : ms.first.size = size
  size_second : ms.second.size = size
  second_nonneg : ∀ i, 0 ≤ ms.second.coordinate i
  first_sq_le : ∀ i, ms.first.coordinate i ^ 2 * (1 - h.secondDecay)
    ≤ (1 - h.firstDecay) ^ 2 * h.firstSum t * ms.second.coordinate i

/-- Before the first gradient the moments are zero. -/
theorem Moments.tracks_start (x : Tensor ℝ) (h : Settings ℝ) :
    (Moments.start x).Tracks h x.size 0 := by
  refine ⟨Tensor.size_scale x _, Tensor.size_scale x _, fun i => (x.coordinate_scale_zero i).ge,
    fun i => ?_⟩
  show (x.scale Scalar.zero).coordinate i ^ 2 * _ ≤ _ * (x.scale Scalar.zero).coordinate i
  rw [Tensor.coordinate_scale_zero]
  simp

/-- Another gradient moves both moments towards it and its square. -/
theorem Moments.update_ok {ms ms' : Moments ℝ} {h : Settings ℝ} {gradient : Tensor ℝ} {size : Nat}
    (hms₁ : ms.first.size = size) (hms₂ : ms.second.size = size) (hg : gradient.size = size)
    (hu : ms.update h gradient = .ok ms') :
    ms'.first.size = size ∧ ms'.second.size = size ∧ ∀ i,
      ms'.first.coordinate i
        = ms.first.coordinate i * h.firstDecay + gradient.coordinate i * (1 - h.firstDecay) ∧
      ms'.second.coordinate i = ms.second.coordinate i * h.secondDecay
        + gradient.coordinate i * gradient.coordinate i * (1 - h.secondDecay) := by
  unfold Moments.update at hu
  simp only [bind_eq_ok] at hu
  obtain ⟨first, hfirst, square, hsquare, second, hsecond, hms'⟩ := hu
  obtain rfl := Except.ok.inj hms'
  obtain ⟨-, hsize, hcoordinate⟩ := Tensor.multiply_ok hsquare
  obtain ⟨hsize₁, hfirst⟩ := Tensor.moveBy_ok hfirst <| by
    rw [Tensor.size_scale, Tensor.size_scale, hg, hms₁]
  obtain ⟨hsize₂, hsecond⟩ := Tensor.moveBy_ok hsecond <| by
    rw [Tensor.size_scale, Tensor.size_scale, hsize, hg, hms₂]
  rw [Tensor.size_scale] at hsize₁ hsize₂
  refine ⟨hsize₁.trans hms₁, hsize₂.trans hms₂, fun i => ?_⟩
  rw [hfirst, hsecond]
  simp only [Tensor.coordinate_scale, hcoordinate, one_eq, ofReal_real, and_self]

/-- An iteration keeps the bound, for one more power of the decay. -/
theorem Moments.Tracks.update {ms ms' : Moments ℝ} {h : Settings ℝ} (hd : h.IsDecaying)
    {gradient : Tensor ℝ} {size t : Nat} (hms : ms.Tracks h size t) (hg : gradient.size = size)
    (hu : ms.update h gradient = .ok ms') : ms'.Tracks h size (t + 1) := by
  obtain ⟨hfirst, hsecond, hcoordinates⟩ :=
    Moments.update_ok hms.size_first hms.size_second hg hu
  have hb := hd.one_sub_secondDecay_pos.le
  refine ⟨hfirst, hsecond, fun i => ?_, fun i => ?_⟩
  · -- The second moment stays a sum of squares.
    rw [(hcoordinates i).2]
    have h₁ := mul_nonneg (hms.second_nonneg i) hd.secondDecay_nonneg
    have h₂ := mul_nonneg (mul_self_nonneg (gradient.coordinate i)) hb
    linarith
  · rw [(hcoordinates i).1, (hcoordinates i).2, Settings.firstSum, geom_sum_succ]
    exact mean_sq_le hd.firstDecay_nonneg hd.firstDecay_le hb (hd.firstSum_nonneg t)
      (hms.second_nonneg i) (hms.first_sq_le i)

/-! ## Steps -/

/-- The step that bounded moments give is bounded by the ratio of the two sums. -/
theorem guarded_sq_mul_le {a b S₁ S₂ M V size guard : ℝ} (ha : 0 < a) (hS₁ : 0 < S₁)
    (hb : 0 ≤ b) (hS₂ : 0 ≤ S₂) (hV : 0 ≤ V) (hguard : 0 < guard)
    (h : M ^ 2 * b ≤ a ^ 2 * S₁ * V) :
    (M * (1 / (√V + guard)) * -(size * √(b * S₂) / (a * S₁))) ^ 2 * S₁ ≤ size ^ 2 * S₂ := by
  have hroot : 0 < √V + guard := add_pos_of_nonneg_of_pos (Real.sqrt_nonneg V) hguard
  -- The guard only makes the root in the denominator larger.
  have hweight : V * (1 / (√V + guard)) ^ 2 ≤ 1 := by
    rw [div_pow, one_pow, mul_one_div, div_le_one (by positivity)]
    calc V = √V ^ 2 := (Real.sq_sqrt hV).symm
      _ ≤ (√V + guard) ^ 2 := by gcongr; linarith
  calc (M * (1 / (√V + guard)) * -(size * √(b * S₂) / (a * S₁))) ^ 2 * S₁
      = M ^ 2 * b * ((1 / (√V + guard)) ^ 2 * (size ^ 2 * S₂) / (a ^ 2 * S₁)) := by
        rw [mul_pow, mul_pow, neg_sq, div_pow (size * _), mul_pow size, Real.sq_sqrt (by positivity)]
        field_simp
    _ ≤ a ^ 2 * S₁ * V * ((1 / (√V + guard)) ^ 2 * (size ^ 2 * S₂) / (a ^ 2 * S₁)) := by gcongr
    _ = V * (1 / (√V + guard)) ^ 2 * (size ^ 2 * S₂) := by field_simp
    _ ≤ 1 * (size ^ 2 * S₂) := by gcongr
    _ = size ^ 2 * S₂ := one_mul _

/-- The guard keeps the quotient defined where a second moment is zero. -/
theorem inverseRoot_eq {h : Settings ℝ} (hguard : 0 < h.guardTerm) {v : ℝ} (hv : 0 ≤ v) :
    inverseRoot h v = .ok (1 / (√v + h.guardTerm)) := by
  have hroot : √v + h.guardTerm ≠ 0 := (add_pos_of_nonneg_of_pos (Real.sqrt_nonneg v) hguard).ne'
  have hsqrt := squareRoot_ofReal (α := ℝ) hv
  have hdivide := divide_ofReal (α := ℝ) 1 hroot
  simp only [ofReal_real] at hsqrt hdivide
  rw [inverseRoot, hsqrt, one_eq, ofReal_real]
  exact hdivide

/-- The step that the moments give. Beyond the entries the first moment is zero, and so is the step. -/
theorem stepOf_ok {p : Precision} {h : Settings ℝ} (hguard : 0 < h.guardTerm) {ms : Moments ℝ} {n : Nat}
    (hms₁ : ms.first.size = n) (hms₂ : ms.second.size = n) (hms : ∀ i, 0 ≤ ms.second.coordinate i)
    {size : ℝ} {step : Tensor ℝ} (hs : stepOf p h ms size = .ok step) :
    step.size = n ∧ ∀ i, step.coordinate i
      = ms.first.coordinate i * (1 / (√(ms.second.coordinate i) + h.guardTerm)) * -size := by
  unfold stepOf at hs
  simp only [bind_eq_ok] at hs
  obtain ⟨weights, hweights, direction, hdirection, hstep⟩ := hs
  obtain rfl := Except.ok.inj hstep
  obtain ⟨hsize, hweights⟩ := Tensor.mapM_ok hweights
  obtain ⟨-, hsize', hcoordinate⟩ := Tensor.multiply_ok hdirection
  refine ⟨by rw [Tensor.size_scale, hsize', hms₁], fun i => ?_⟩
  rw [Tensor.coordinate_scale, hcoordinate]
  rcases lt_or_ge i n with hi | hi
  · have hweight := hweights i (by rwa [Tensor.size_convert, hms₂])
    rw [Tensor.coordinate_convert, inverseRoot_eq hguard (hms i)] at hweight
    rw [← Except.ok.inj hweight]
    rfl
  · simp only [Tensor.coordinate_of_size_le (hms₁.trans_le hi), zero_mul]

/-- How far a step moves a coordinate. -/
def Step.moved (k : Step ℝ) (i : Nat) : ℝ := k.next.coordinate i - k.point.coordinate i

section Path

variable {m : Type → Type} [Monad m] {ω : Type} [Stateful m ω] {s : Setup m ℝ}

/-- A step from tracked moments is bounded. -/
theorem Step.Follows.moved_sq_mul_le {k : Step ℝ} {t : Nat} {w w' : Run ℝ × ω}
    (hk : k.Follows s (t + 1) w w') (hd : s.settings.IsDecaying)
    (htracks : k.before.Tracks s.settings k.point.size t) :
    k.after.Tracks s.settings k.point.size (t + 1) ∧ k.next.size = k.point.size ∧
      ∀ i, k.moved i ^ 2 * s.settings.firstSum (t + 1)
        ≤ s.settings.stepSize ^ 2 * s.settings.secondSum (t + 1) := by
  have hafter := htracks.update hd hk.size_eq hk.after_eq
  obtain ⟨hsize, hstep⟩ := stepOf_ok hd.guardTerm_pos hafter.size_first hafter.size_second
    hafter.second_nonneg hk.step_eq
  obtain ⟨hnext, hmoved⟩ := Tensor.moveBy_ok hk.next_eq hsize
  refine ⟨hafter, hnext, fun i => ?_⟩
  have hcorrected := Except.ok.inj (hk.corrected.symm.trans (hd.correctedStep_eq t))
  rw [Step.moved, hmoved, add_sub_cancel_left, hstep, hcorrected]
  exact guarded_sq_mul_le hd.one_sub_firstDecay_pos (hd.firstSum_pos t)
    hd.one_sub_secondDecay_pos.le (hd.secondSum_nonneg _) (hafter.second_nonneg i) hd.guardTerm_pos
    (hafter.first_sq_le i)

/-- The moments of a path are tracked. -/
theorem Path.tracks {x y : Tensor ℝ} {ms : Moments ℝ} {w u : Run ℝ × ω} {ks : List (Step ℝ)}
    (hp : Path s x w ks y ms u) (hd : s.settings.IsDecaying) :
    ms.Tracks s.settings y.size ks.length := by
  induction hp with
  | none => exact Moments.tracks_start x s.settings
  | snoc _ hk ih =>
    obtain ⟨hafter, hnext, -⟩ := hk.moved_sq_mul_le hd ih
    rw [List.length_append, List.length_singleton, hnext]
    exact hafter

/-- In every run of a moment descent on exact numbers, whether it succeeds or not and whatever gradients
are evaluated, the square of what an iteration moves a coordinate by, times the sum of the powers of the
first decay so far, is not larger than the square of the step size, times the sum of the powers of the
second decay. So no coordinate moves by more than the step size, times the root of the ratio of the two
sums; and by no more than the step size in the first iteration. -/
theorem run_moves (s : Setup m ℝ) (hd : s.settings.IsDecaying) (guess : Tensor ℝ)
    (w : Run ℝ × ω) :
    ∃ ks x ms u, Path s (guess.convert s.precision) w ks x ms u ∧
      Ends s ks x ms u (attempt (run s guess) w) ∧
      ∀ t k, ks[t]? = some k → ∀ i,
        k.moved i ^ 2 * ∑ j ∈ Finset.range (t + 1), s.settings.firstDecay ^ j
          ≤ s.settings.stepSize ^ 2 * ∑ j ∈ Finset.range (t + 1), s.settings.secondDecay ^ j ∧
        |k.moved i| ≤ s.settings.stepSize * √((∑ j ∈ Finset.range (t + 1), s.settings.secondDecay ^ j)
          / ∑ j ∈ Finset.range (t + 1), s.settings.firstDecay ^ j) ∧
        (t = 0 → |k.moved i| ≤ s.settings.stepSize) := by
  obtain ⟨ks, x, ms, u, hp, hends⟩ := run_path s guess w
  refine ⟨ks, x, ms, u, hp, hends, fun t k hk i => ?_⟩
  obtain ⟨ks', v, v', rfl, hp', hk'⟩ := hp.follows hk
  obtain ⟨-, -, hmoved⟩ := hk'.moved_sq_mul_le hd (hp'.tracks hd)
  have hsquare := hmoved i
  -- The bound of the length is the root of the bound of its square.
  have hratio : |k.moved i| ≤ s.settings.stepSize
      * √(s.settings.secondSum (ks'.length + 1) / s.settings.firstSum (ks'.length + 1)) := by
    have hpos := hd.firstSum_pos ks'.length
    have hle : k.moved i ^ 2 ≤ s.settings.stepSize ^ 2
        * (s.settings.secondSum (ks'.length + 1) / s.settings.firstSum (ks'.length + 1)) := by
      rw [← mul_div_assoc, le_div_iff₀ hpos]
      exact hsquare
    refine (Real.abs_le_sqrt hle).trans_eq ?_
    rw [Real.sqrt_mul (sq_nonneg _), Real.sqrt_sq hd.stepSize_nonneg]
  refine ⟨hsquare, hratio, fun ht => hratio.trans_eq ?_⟩
  rw [ht, Settings.secondSum, Settings.firstSum]
  simp

/-- Three iterations for a gradient that is a million times the point. -/
theorem run_moves_steep :
    let settings : Settings ℝ := ⟨1 / 10, 9 / 10, 999 / 1000, 1 / 10 ^ 8, 0, 3⟩
    let s : Setup Id ℝ := ⟨.double, settings, fun x => pure (.ofNumber (x.coordinate 0)),
      fun x => pure (x.scale (10 ^ 6)), pure ()⟩
    let guess : Tensor ℝ := .vector .double [1, -2]
    let w : Run ℝ × Unit := (⟨⟨0, 0, 0⟩, none, []⟩, ())
    settings.IsDecaying ∧
    ∃ ks x ms u, Path s (guess.convert .double) w ks x ms u ∧
      Ends s ks x ms u (attempt (run s guess) w) ∧
      ∀ k, ks[0]? = some k → ∀ i, |k.moved i| ≤ 1 / 10 := by
  intro settings s guess w
  have hd : settings.IsDecaying := by
    constructor <;> norm_num [settings]
  obtain ⟨ks, x, ms, u, hp, hends, hmoved⟩ := run_moves s hd guess w
  exact ⟨hd, ks, x, ms, u, hp, hends, fun k hk i => (hmoved 0 k hk i).2.2 rfl⟩

end Path

end Minimization.Adam
