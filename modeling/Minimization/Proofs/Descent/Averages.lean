import Minimization.Proofs.Descent.StepBound
import Minimization.Proofs.Outcome
import Minimization.Proofs.Tensor.Defined

/-!
# What the moments of a descent are

In a moment descent on exact numbers, the moments after some iterations are decayed means of the gradients
so far and of their squares (`Moments.Averages`), whatever the gradients are. So no second moment is negative,
and with decays from zero on and below one every root is taken of a number that is not negative and every
quotient by a positive one. A run can then only fail where an evaluation does, or where the shapes of its arrays do
not agree (`Setup.Raises`).
-/

namespace Minimization.Adam

open ExactScalar

/-! ## Decayed means -/

/-- The mean of the first numbers of a sequence in which every number counts less, by a factor, than the one
after it. -/
def decayedMean (decay : ℝ) (g : Nat → ℝ) (t : Nat) : ℝ :=
  (1 - decay) * ∑ j ∈ Finset.range t, decay ^ (t - 1 - j) * g j

theorem decayedMean_zero (decay : ℝ) (g : Nat → ℝ) : decayedMean decay g 0 = 0 := by
  rw [decayedMean, Finset.sum_range_zero, mul_zero]

/-- A decaying mean is carried on by its last value alone. -/
theorem decayedMean_succ (decay : ℝ) (g : Nat → ℝ) (t : Nat) :
    decayedMean decay g (t + 1) = decayedMean decay g t * decay + g t * (1 - decay) := by
  have hsum : ∑ j ∈ Finset.range t, decay ^ (t - j) * g j
      = (∑ j ∈ Finset.range t, decay ^ (t - 1 - j) * g j) * decay := by
    rw [Finset.sum_mul]
    refine Finset.sum_congr rfl fun j hj => ?_
    have hexponent : t - j = t - 1 - j + 1 := by
      have := Finset.mem_range.mp hj
      omega
    rw [hexponent, pow_succ]
    ring
  rw [decayedMean, decayedMean, Finset.sum_range_succ, Nat.add_sub_cancel, hsum, Nat.sub_self, pow_zero]
  ring

/-- It depends on the gradients so far only. -/
theorem decayedMean_congr {decay : ℝ} {g g' : Nat → ℝ} {t : Nat} (h : ∀ j < t, g j = g' j) :
    decayedMean decay g t = decayedMean decay g' t := by
  rw [decayedMean, decayedMean]
  congr 1
  exact Finset.sum_congr rfl fun j hj => by rw [h j (Finset.mem_range.mp hj)]

theorem decayedMean_nonneg {decay : ℝ} (h₀ : 0 ≤ decay) (h₁ : decay ≤ 1) {g : Nat → ℝ}
    (hg : ∀ j, 0 ≤ g j) (t : Nat) : 0 ≤ decayedMean decay g t :=
  mul_nonneg (sub_nonneg.mpr h₁) (Finset.sum_nonneg fun j _ => mul_nonneg (pow_nonneg h₀ _) (hg j))

/-! ## Moments and steps -/

/-- A coordinate of one of some gradients. -/
def gradientAt (gs : List (Tensor ℝ)) (i j : Nat) : ℝ := (gs.map fun g => g.coordinate i).getD j 0

/-- Later gradients do not change earlier ones. -/
theorem gradientAt_append_left {gs : List (Tensor ℝ)} {j : Nat} (hj : j < gs.length)
    (gs' : List (Tensor ℝ)) (i : Nat) : gradientAt (gs ++ gs') i j = gradientAt gs i j := by
  rw [gradientAt, gradientAt, List.map_append, List.getD_eq_getElem?_getD, List.getD_eq_getElem?_getD,
    List.getElem?_append_left (by rwa [List.length_map])]

theorem gradientAt_concat_length (gs : List (Tensor ℝ)) (g : Tensor ℝ) (i : Nat) :
    gradientAt (gs ++ [g]) i gs.length = g.coordinate i := by
  rw [gradientAt, List.getD_eq_getElem?_getD, List.getElem?_map, List.getElem?_concat_length]
  rfl

/-- The moments are the decayed means of some gradients and of their squares. -/
structure Moments.Averages (ms : Moments ℝ) (h : Settings ℝ) (size : Nat) (gs : List (Tensor ℝ)) :
    Prop where
  size_first : ms.first.size = size
  size_second : ms.second.size = size
  first_eq : ∀ i, ms.first.coordinate i = decayedMean h.firstDecay (gradientAt gs i) gs.length
  second_eq : ∀ i, ms.second.coordinate i
    = decayedMean h.secondDecay (fun j => gradientAt gs i j ^ 2) gs.length

/-- Before the first gradient the moments are the empty means. -/
theorem Moments.averages_start (x : Tensor ℝ) (h : Settings ℝ) :
    (Moments.start x).Averages h x.size [] where
  size_first := Tensor.size_scale x _
  size_second := Tensor.size_scale x _
  first_eq i := (x.coordinate_scale_zero i).trans (decayedMean_zero _ _).symm
  second_eq i := (x.coordinate_scale_zero i).trans (decayedMean_zero _ _).symm

/-- Another gradient is averaged as well. -/
theorem Moments.Averages.update {ms ms' : Moments ℝ} {h : Settings ℝ} {size : Nat}
    {gs : List (Tensor ℝ)} (hms : ms.Averages h size gs) {g : Tensor ℝ} (hg : g.size = size)
    (hu : ms.update h g = .ok ms') : ms'.Averages h size (gs ++ [g]) := by
  obtain ⟨hfirst, hsecond, hcoordinates⟩ := Moments.update_ok hms.size_first hms.size_second hg hu
  have hbefore : ∀ i, ∀ j < gs.length, gradientAt gs i j = gradientAt (gs ++ [g]) i j :=
    fun i j hj => (gradientAt_append_left hj [g] i).symm
  refine ⟨hfirst, hsecond, fun i => ?_, fun i => ?_⟩
  · rw [(hcoordinates i).1, hms.first_eq, List.length_append, List.length_singleton, decayedMean_succ,
      decayedMean_congr (hbefore i), gradientAt_concat_length]
  · rw [(hcoordinates i).2, hms.second_eq, List.length_append, List.length_singleton, decayedMean_succ,
      decayedMean_congr fun j hj => by rw [hbefore i j hj], gradientAt_concat_length, sq]

/-- What the iteration after `t` others does to a coordinate, when these are the gradients of the run. -/
structure Step.Averages (k : Step ℝ) (h : Settings ℝ) (gs : List (Tensor ℝ)) (t i : Nat) : Prop where
  first_eq : k.after.first.coordinate i = (1 - h.firstDecay) *
    ∑ j ∈ Finset.range (t + 1), h.firstDecay ^ (t - j) * gradientAt gs i j
  second_eq : k.after.second.coordinate i = (1 - h.secondDecay) *
    ∑ j ∈ Finset.range (t + 1), h.secondDecay ^ (t - j) * gradientAt gs i j ^ 2
  step_eq : k.step.coordinate i
    = -(h.stepSize * √(1 - h.secondDecay ^ (t + 1)) / (1 - h.firstDecay ^ (t + 1))) *
      (k.after.first.coordinate i / (√(k.after.second.coordinate i) + h.guardTerm))
  next_eq : k.next.coordinate i = k.point.coordinate i + k.step.coordinate i
  correction_nonneg : 0 ≤ 1 - h.secondDecay ^ (t + 1)
  correction_pos : 0 < 1 - h.firstDecay ^ (t + 1)
  second_nonneg : 0 ≤ k.after.second.coordinate i
  guarded_pos : 0 < √(k.after.second.coordinate i) + h.guardTerm

/-- Later gradients make no difference. -/
theorem Step.Averages.append {k : Step ℝ} {h : Settings ℝ} {gs : List (Tensor ℝ)} {t i : Nat}
    (hk : k.Averages h gs t i) (ht : t < gs.length) (gs' : List (Tensor ℝ)) :
    k.Averages h (gs ++ gs') t i := by
  have hsame : ∀ j < t + 1, gradientAt gs i j = gradientAt (gs ++ gs') i j :=
    fun j hj => (gradientAt_append_left (Nat.lt_of_lt_of_le hj ht) gs' i).symm
  have hmean : ∀ (decay : ℝ) (f : ℝ → ℝ),
      ∑ j ∈ Finset.range (t + 1), decay ^ (t - j) * f (gradientAt gs i j)
        = ∑ j ∈ Finset.range (t + 1), decay ^ (t - j) * f (gradientAt (gs ++ gs') i j) :=
    fun decay f => Finset.sum_congr rfl fun j hj => by rw [hsame j (Finset.mem_range.mp hj)]
  exact { hk with
    first_eq := hk.first_eq.trans (congrArg ((1 - h.firstDecay) * ·) (hmean h.firstDecay id))
    second_eq := hk.second_eq.trans (congrArg ((1 - h.secondDecay) * ·) (hmean h.secondDecay (· ^ 2))) }

section Proper

variable {h : Settings ℝ} (hfirst : 0 ≤ h.firstDecay ∧ h.firstDecay < 1)
  (hsecond : 0 ≤ h.secondDecay ∧ h.secondDecay < 1) (hguard : 0 < h.guardTerm)

include hsecond in
/-- Means of squares are never negative, which is what their roots need. -/
theorem Moments.Averages.second_nonneg {ms : Moments ℝ} {size : Nat} {gs : List (Tensor ℝ)}
    (hms : ms.Averages h size gs) (i : Nat) : 0 ≤ ms.second.coordinate i := by
  rw [hms.second_eq]
  exact decayedMean_nonneg hsecond.1 hsecond.2.le (fun j => sq_nonneg _) _

include hguard in
/-- The step that averages give has no other reason to fail than shapes. -/
theorem stepOf_eq_error {ms : Moments ℝ} (hms : ∀ i, 0 ≤ ms.second.coordinate i) {p : Precision}
    {size : ℝ} {e : Failure} (he : stepOf p h ms size = .error e) : ∃ cause, e = .size cause := by
  have hdefined : ∀ v ∈ (ms.second.convert p).entries, ∃ b,
      (do return Scalar.round (ms.second.convert p).precision (← inverseRoot h v)) = Except.ok b := by
    intro v hv
    obtain ⟨i, hi⟩ := List.mem_iff_getElem?.mp hv
    have hcoordinate : (ms.second.convert p).coordinate i = v := by
      rw [Tensor.coordinate, List.getD_eq_getElem?_getD, hi, Option.getD_some]
    rw [Tensor.coordinate_convert] at hcoordinate
    rw [inverseRoot_eq hguard (hcoordinate ▸ hms i)]
    exact ⟨_, rfl⟩
  obtain ⟨weights, hweights, -⟩ := Tensor.mapM_of_forall hdefined
  unfold stepOf at he
  rcases bind_eq_error.mp he with he | ⟨weights', -, he⟩
  · cases hweights.symm.trans he
  rcases bind_eq_error.mp he with he | ⟨direction, -, he⟩
  · exact Tensor.combine_eq_error he
  · cases he

include hfirst hsecond

/-- Decays below one leave something of one to divide by, and to take the root of. -/
theorem corrections_pos (t : Nat) :
    0 < 1 - h.firstDecay ^ (t + 1) ∧ 0 < 1 - h.secondDecay ^ (t + 1) :=
  ⟨sub_pos.mpr (pow_lt_one₀ hfirst.1 hfirst.2 t.succ_ne_zero),
    sub_pos.mpr (pow_lt_one₀ hsecond.1 hsecond.2 t.succ_ne_zero)⟩

/-- The correction is defined because a decay below one leaves its powers below one. -/
theorem correctedStep_eq_of_lt_one (t : Nat) :
    correctedStep h (t + 1)
      = .ok (h.stepSize * √(1 - h.secondDecay ^ (t + 1)) / (1 - h.firstDecay ^ (t + 1))) := by
  obtain ⟨hpos₁, hpos₂⟩ := corrections_pos hfirst hsecond t
  exact correctedStep_eq_ok hpos₂.le hpos₁.ne'

end Proper

/-! ## Runs -/

section Path

variable {m : Type → Type} [Monad m] {ω : Type} [Stateful m ω]

/-- What a run can fail with: what its evaluations fail with, and shapes that do not agree. -/
inductive Setup.Raises (s : Setup m ℝ) : Failure → Prop
  | size (cause) : Raises s (.size cause)
  | before {e w w'} : attempt s.before w = (.error e, w') → Raises s e
  | loss {e x w w'} : attempt (s.loss.number x) w = (.error e, w') → Raises s e
  | gradient {e x w w'} : attempt (s.gradient x) w = (.error e, w') → Raises s e

variable {s : Setup m ℝ} (hfirst : 0 ≤ s.settings.firstDecay ∧ s.settings.firstDecay < 1)
  (hsecond : 0 ≤ s.settings.secondDecay ∧ s.settings.secondDecay < 1)
  (hguard : 0 < s.settings.guardTerm)

/-- Sizes that do not agree are a failure that a descent may have. -/
theorem Setup.Raises.of_size {e : Failure} (h : ∃ cause, e = .size cause) : s.Raises e := by
  obtain ⟨cause, rfl⟩ := h
  exact .size cause

/-- Updating the moments fails for no other reason than sizes. -/
theorem Moments.update_eq_error {ms : Moments ℝ} {h : Settings ℝ} {g : Tensor ℝ} {e : Failure}
    (he : ms.update h g = .error e) : ∃ cause, e = .size cause := by
  unfold Moments.update at he
  rcases bind_eq_error.mp he with he | ⟨first, -, he⟩
  · exact Tensor.moveBy_eq_error he
  rcases bind_eq_error.mp he with he | ⟨square, -, he⟩
  · exact Tensor.combine_eq_error he
  rcases bind_eq_error.mp he with he | ⟨second, -, he⟩
  · exact Tensor.moveBy_eq_error he
  · cases he

theorem failsWith_finish (steps : Nat) (x : Tensor ℝ) : FailsWith s.Raises (finish s steps x) :=
  .bind (.of_ok fun w => ⟨_, _, attempt_reporting _ w⟩) fun _ =>
    .bind (.evaluate fun _ _ _ => .loss) fun _ =>
      .bind (.of_ok fun w => ⟨_, _, attempt_reporting _ w⟩) fun _ =>
        .bind (.of_ok fun w => ⟨_, _, attempt_record _ w⟩) fun _ =>
          .bind (.of_ok fun w => ⟨_, _, attempt_report w⟩) fun _ =>
            .bind (.of_ok fun w => ⟨_, _, attempt_notify _ w⟩) fun _ => .pure _

include hfirst hsecond hguard

/-- An iteration from averages neither divides by zero nor takes the root of a negative number. -/
theorem failsWith_iteration {x : Tensor ℝ} {ms : Moments ℝ} {gs : List (Tensor ℝ)}
    (hms : ms.Averages s.settings x.size gs) (t : Nat) :
    FailsWith s.Raises (iteration s (t + 1) x ms) := by
  unfold iteration
  refine .bind (.evaluate fun _ _ _ => .before) fun _ => .bind (.evaluate fun _ _ _ => .loss) fun _ =>
    .bind (.evaluate fun _ _ _ => .gradient) fun g => .bind_lift (fun e he => ?_) fun _ hsize =>
      .bind_lift (fun e he => .of_size (Moments.update_eq_error he)) fun after hafter =>
        .bind_lift (fun e he => ?_) fun size _ => .bind_lift (fun e he => ?_) fun step _ =>
          .bind (.of_ok fun w => ⟨_, _, attempt_record _ w⟩) fun _ =>
            .bind_lift (fun e he => .of_size (Tensor.moveBy_eq_error he)) fun _ _ =>
              .bind (.of_ok fun w => ⟨_, _, attempt_reporting _ w⟩) fun _ => .pure _
  · unfold checkGradient at he
    split at he
    next => exact .of_size ⟨_, (Except.error.inj he).symm⟩
    next => cases he
  · cases (correctedStep_eq_of_lt_one hfirst hsecond t).symm.trans he
  · have hsize := GradientDescent.checkGradient_eq_ok.mp hsize
    exact .of_size (stepOf_eq_error hguard ((hms.update hsize hafter).second_nonneg hsecond) he)

/-- A step from averages goes to averages. -/
theorem Step.Follows.averages {k : Step ℝ} {w w' : Run ℝ × ω} {gs : List (Tensor ℝ)}
    (hk : k.Follows s (gs.length + 1) w w') (hms : k.before.Averages s.settings k.point.size gs) :
    k.after.Averages s.settings k.next.size (gs ++ [k.gradient]) ∧
      k.next.size = k.point.size ∧
      ∀ i, k.Averages s.settings (gs ++ [k.gradient]) gs.length i := by
  have hafter := hms.update hk.size_eq hk.after_eq
  have hnonneg := hafter.second_nonneg hsecond
  obtain ⟨hsize, hstep⟩ :=
    stepOf_ok hguard hafter.size_first hafter.size_second hnonneg hk.step_eq
  obtain ⟨hnext, hmoved⟩ := Tensor.moveBy_ok hk.next_eq hsize
  have hcorrected := Except.ok.inj
    (hk.corrected.symm.trans (correctedStep_eq_of_lt_one hfirst hsecond gs.length))
  obtain ⟨hpos₁, hpos₂⟩ := corrections_pos hfirst hsecond gs.length
  have hlength : (gs ++ [k.gradient]).length = gs.length + 1 := by
    rw [List.length_append, List.length_singleton]
  refine ⟨hnext ▸ hafter, hnext, fun i => ⟨?_, ?_, ?_, hmoved i, hpos₂.le, hpos₁, hnonneg i, ?_⟩⟩
  · rw [hafter.first_eq, hlength, decayedMean, Nat.add_sub_cancel]
  · rw [hafter.second_eq, hlength, decayedMean, Nat.add_sub_cancel]
  · rw [hstep, hcorrected, mul_one_div, mul_comm]
  · exact add_pos_of_nonneg_of_pos (Real.sqrt_nonneg _) hguard

/-- The moments of a path are averages. -/
theorem Path.averages {x y : Tensor ℝ} {ms : Moments ℝ} {w u : Run ℝ × ω} {ks : List (Step ℝ)}
    (hp : Path s x w ks y ms u) : ms.Averages s.settings y.size (ks.map Step.gradient) := by
  induction hp with
  | none => exact Moments.averages_start x _
  | snoc _ hk ih =>
    rw [← List.length_map (f := Step.gradient)] at hk
    rw [List.map_append, List.map_singleton]
    exact (hk.averages hfirst hsecond hguard ih).1

/-- In every run of a moment descent on exact numbers with decays from zero on and below one and a positive
guard, whatever gradients are evaluated, the moments after an iteration are the decayed means of the
gradients so far and of their squares, and they give the step that is applied. Every root is taken of a
number that is not negative, every quotient is one by a positive number, and a run only fails where an
evaluation does or where shapes do not agree. -/
theorem run_averages (guess : Tensor ℝ) (w : Run ℝ × ω) :
    ∃ ks x ms u, Path s (guess.convert s.precision) w ks x ms u ∧
      Ends s ks x ms u (attempt (run s guess) w) ∧
      (∀ e w', attempt (run s guess) w = (.error e, w') → s.Raises e) ∧
      ∀ (t : Nat) (k : Step ℝ), ks[t]? = some k → k.next.size = k.point.size ∧
        ∀ i, k.Averages s.settings (ks.map Step.gradient) t i := by
  obtain ⟨ks, x, ms, u, hp, hends⟩ := run_path s guess w
  refine ⟨ks, x, ms, u, hp, hends, fun e w' he => ?_, fun t k hk => ?_⟩
  · rw [he] at hends
    generalize hout : ((.error e, w') : Except Failure (Tensor ℝ) × Run ℝ × ω) = out at hends
    cases hends with
    | finished => exact failsWith_finish ks.length x u e w' hout.symm
    | failed hfailed =>
      obtain ⟨he, rfl⟩ := Prod.mk.inj hout
      obtain rfl := Except.error.inj he
      have hms := hp.averages hfirst hsecond hguard
      exact failsWith_iteration hfirst hsecond hguard hms ks.length u e _ hfailed
  · obtain ⟨before, later, v, v', rfl, rfl, hbefore, hfollows⟩ := hp.follows_prefix hk
    rw [← List.length_map (f := Step.gradient)] at hfollows
    obtain ⟨-, hnext, hstep⟩ :=
      hfollows.averages hfirst hsecond hguard (hbefore.averages hfirst hsecond hguard)
    refine ⟨hnext, fun i => ?_⟩
    -- The means at an iteration only read the gradients up to it, so those that follow may be appended.
    have happend := (hstep i).append (by simp) (later.map Step.gradient)
    rw [List.length_map] at happend
    rwa [List.map_append, List.map_append]

omit hfirst hsecond hguard in
/-- Three iterations from a point with a coordinate where the gradient is zero: the root of its second moment is
zero there, and only the guard keeps the quotient. -/
theorem run_averages_from_zero :
    let settings : Settings ℝ := ⟨1 / 10, 9 / 10, 1 / 2, 1 / 10 ^ 8, 0, 3⟩
    let s : Setup Id ℝ := ⟨.double, settings, fun x => pure (.ofNumber (x.coordinate 0)),
      fun x => pure (x.scale 3), pure ()⟩
    let guess : Tensor ℝ := .vector .double [0, -2]
    let w : Run ℝ × Unit := (⟨⟨0, 0, 0⟩, none, []⟩, ())
    ((0 ≤ settings.firstDecay ∧ settings.firstDecay < 1) ∧
      (0 ≤ settings.secondDecay ∧ settings.secondDecay < 1) ∧ 0 < settings.guardTerm) ∧
    ∃ ks x ms u, Path s (guess.convert .double) w ks x ms u ∧
      Ends s ks x ms u (attempt (run s guess) w) ∧
      (∀ e w', attempt (run s guess) w = (.error e, w') → s.Raises e) ∧
      ∀ (t : Nat) (k : Step ℝ), ks[t]? = some k → k.next.size = k.point.size ∧
        ∀ i, k.Averages settings (ks.map Step.gradient) t i := by
  intro settings s guess w
  have hfirst : 0 ≤ settings.firstDecay ∧ settings.firstDecay < 1 := by norm_num [settings]
  have hsecond : 0 ≤ settings.secondDecay ∧ settings.secondDecay < 1 := by norm_num [settings]
  have hguard : 0 < settings.guardTerm := by norm_num [settings]
  exact ⟨⟨hfirst, hsecond, hguard⟩, run_averages (s := s) hfirst hsecond hguard guess w⟩

end Path

end Minimization.Adam
