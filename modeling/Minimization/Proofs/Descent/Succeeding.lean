import Minimization.Descent.LineSearch
import Minimization.Descent.Moments
import Minimization.Proofs.Outcome
import Minimization.Proofs.Tensor.Signs

/-!
# Descents that succeed

A descent that is handed functions with an answer everywhere (`Answering`) can only fail in its own
arithmetic. All arrays of a run have the shape of the guess, so a gradient descent has nothing to fail at
but the norm of the gradient, which it divides by (`GradientDescent.succeeds_run`); whatever else comes up,
infinities and what is not a number included, is only compared. A moment descent also takes square roots
and divides by them. It stays clear of negative roots and of zero because the second moments are never
negative (`Adam.Moments.Fits`) and the decays are below one (`Adam.succeeds_run`).
-/

namespace Minimization

variable {m : Type → Type} [Monad m] {ω : Type} [Stateful m ω] {α : Type} {I : ω → Prop}

/-- In every world that `I` holds of, and without leaving such worlds, the functions of a descent have an
answer at every array of a shape: the loss is a number there, and the gradient an array of that shape. -/
structure Answering (I : ω → Prop) (before : Evaluation m Unit) (loss : Rule m α)
    (gradient : Field m α) (shape : List Nat) : Prop where
  before : Succeeds I before fun _ => True
  loss : ∀ x : Tensor α, x.shape = shape → Succeeds I (loss x) fun a => ∃ v, a = .ofNumber v
  gradient : ∀ x : Tensor α, x.shape = shape → Succeeds I (gradient x) fun g => g.shape = shape

/-- An answer that is a number is converted to it. -/
theorem Rule.succeeds_number {loss : Rule m α} {x : Tensor α}
    (h : Succeeds I (loss x) fun a => ∃ v, a = .ofNumber v) : Succeeds I (loss.number x) fun _ => True := by
  refine .bind h fun a ha => ?_
  obtain ⟨v, rfl⟩ := ha
  exact .lift rfl trivial

/-- The functions of an iteration have such answers as well if evaluating the gradient leads from worlds
that `I` holds of to worlds that `J` holds of: before that the loss is a number in the former, after that in
the latter. -/
structure AnsweringOnce (I J : ω → Prop) (before : Evaluation m Unit) (loss : Rule m α)
    (gradient : Field m α) (shape : List Nat) : Prop where
  before : Succeeds I before fun _ => True
  trial : ∀ x : Tensor α, x.shape = shape → Succeeds J (loss x) fun a => ∃ v, a = .ofNumber v
  loss : ∀ x : Tensor α, x.shape = shape → Succeeds I (loss x) fun a => ∃ v, a = .ofNumber v
  gradient : ∀ (x : Tensor α) (w : ω), x.shape = shape → I w →
    Leaves (gradient x) w (fun g w' => g.shape = shape ∧ J w') fun _ => False

/-- Functions that have an answer in every world of a kind have one in an iteration. -/
theorem Answering.once {before : Evaluation m Unit} {loss : Rule m α} {gradient : Field m α}
    {shape : List Nat} (h : Answering I before loss gradient shape) :
    AnsweringOnce I I before loss gradient shape :=
  ⟨h.before, h.loss, h.loss, fun x w hx hw => h.gradient x hx w hw⟩

/-- An evaluation as a part of a descent leaves what it leaves on its own. -/
theorem Leaves.evaluate {β : Type} {e : Evaluation m β} {w : Run α × ω} {Q : β → ω → Prop} {E : ω → Prop}
    (h : Leaves e w.2 Q E) :
    Leaves (Descent.evaluate e : Descent m α β) w (fun b w' => Q b w'.2) fun w' => E w'.2 := by
  rcases hattempt : attempt e w.2 with ⟨e' | b, v⟩
  · have hfails : attempt (Descent.evaluate e : Descent m α β) w = (.error e', w.1, v) := by
      rw [attempt_evaluate, hattempt]
    exact .of_error hfails (h.error hattempt)
  · have hanswers : attempt (Descent.evaluate e : Descent m α β) w = (.ok b, w.1, v) := by
      rw [attempt_evaluate, hattempt]
    exact .of_ok hanswers (h.ok hattempt)

theorem checkGradient_of_shape_eq {g x : Tensor α} (h : g.shape = x.shape) : checkGradient g x = .ok () :=
  if_neg (not_not_intro (Tensor.size_eq_of_shape_eq h))

variable [Scalar α]

/-! ## Gradient descent -/

namespace GradientDescent

variable {s : Setup m α} {shape : List Nat}

/-- A line search succeeds whatever its comparisons say, because all of its trials have the shape of the
point. -/
theorem succeeds_search (hloss : ∀ x : Tensor α, x.shape = shape → Succeeds I (s.loss x) fun a =>
      ∃ v, a = .ofNumber v) {x d : Tensor α} (hx : x.shape = shape) (hd : d.shape = shape) (bound : α → α)
    (left : Nat) : ∀ a, Succeeds (Beneath I) (search s x d bound left a (d.scale a)) fun t =>
      t.step.shape = shape := by
  -- A trial succeeds if what follows its rejection does.
  have htrial (left : Nat) (a : α) (hlater : ∀ k, left = k + 1 → ∀ a,
      Succeeds (Beneath I) (search s x d bound k a (d.scale a)) fun t => t.step.shape = shape) :
      Succeeds (Beneath I) (search s x d bound left a (d.scale a)) fun t => t.step.shape = shape := by
    obtain ⟨there, hthere, hshape⟩ := Tensor.moveBy_of_shape_eq (x := x) (y := d.scale a) (hx.trans hd.symm)
    rw [search.eq_def]
    refine .bind_lift hthere (.bind (.evaluate (hloss there (hshape.trans hx))) fun answer hanswer => ?_)
    obtain ⟨v, rfl⟩ := hanswer
    refine .bind_lift (b := v) rfl ?_
    split
    · exact .pure hd
    · cases left with
      | zero => exact .pure hd
      | succ left => exact .bind (.record _) fun _ _ => hlater left rfl _
  -- By induction on the shrinks that are left.
  induction left with
  | zero => exact fun a => htrial 0 a nofun
  | succ left ih => exact fun a => htrial (left + 1) a fun k hk => Nat.succ.inj hk ▸ ih

/-- An iteration goes on to a point of the same shape, in the worlds that the gradient leads to. -/
theorem leaves_iteration {J : ω → Prop} (hf : AnsweringOnce I J s.before s.loss s.gradient shape)
    (hz : Scalar.DiscernsZero α) {x : Tensor α} (hx : x.shape = shape) (a : α) {w : Run α × ω}
    (hw : Beneath I w) :
    Leaves (iteration s x a) w (fun r w' => r.2.shape = shape ∧ Beneath J w') fun _ => False := by
  unfold iteration
  refine .bind (Succeeds.evaluate hf.before w hw) fun _ w ⟨_, hw⟩ => ?_
  refine .bind (Succeeds.evaluate (Rule.succeeds_number (hf.loss x hx)) w hw) fun l w ⟨_, hw⟩ => ?_
  refine .bind (.evaluate (hf.gradient x w.2 hx hw)) fun g w ⟨hg, hw⟩ => ?_
  refine .bind_of_ok (attempt_lift_eq_ok.mpr ⟨checkGradient_of_shape_eq (hg.trans hx.symm), rfl⟩) ?_
  obtain ⟨d, hdirection, hdshape⟩ :=
    Tensor.normalizeAbove_of_discernsZero hz (g.scale (-Scalar.one))
  have hd : d.shape = shape := hdshape.trans hg
  obtain ⟨slope, hslope⟩ := Tensor.inner_of_size_eq (Tensor.size_eq_of_shape_eq (hg.trans hd.symm))
  -- From here on only losses are evaluated, so one condition on the worlds is kept.
  refine (Succeeds.bind_lift hdirection (.bind (.record _) fun _ _ => .bind_lift hslope
    (.bind (succeeds_search hf.trial hx hd _ _ _) fun t ht => ?_))) w hw
  obtain ⟨y, hy, hyshape⟩ := Tensor.moveBy_of_shape_eq (hx.trans ht.symm)
  exact .bind_lift hy (.bind (.reporting _) fun _ _ => .pure (hyshape.trans hx))

/-- A gradient descent succeeds if its loop does: behind that only the loss is evaluated once more. -/
theorem leaves_run {J : ω → Prop} (hloss : ∀ x : Tensor α, x.shape = shape → Succeeds J (s.loss x) fun a =>
      ∃ v, a = .ofNumber v) {guess : Tensor α} {w : Run α × ω}
    (hloop : Leaves (iterate s (s.settings.maxSteps - 1).toNat (guess.convert s.precision)
      s.settings.initialStep 0 0) w (fun ending w' => ending.point.shape = shape ∧ Beneath J w')
      fun _ => False) :
    Leaves (run s guess) w (fun y w' => y.shape = shape ∧ Beneath J w') fun _ => False := by
  unfold run
  refine hloop.bind fun ending w ⟨hending, hw⟩ => ?_
  refine (Succeeds.bind (.reporting _) fun _ _ =>
    .bind (.evaluate (Rule.succeeds_number (hloss _ hending))) fun loss _ =>
      .bind (.reporting _) fun _ _ => .bind (.record _) fun _ _ => ?_) w hw
  split
  · exact .bind (.notify _) fun _ _ => .bind (.notify _) fun _ _ => .pure hending
  · exact .bind (.notify _) fun _ _ => .pure hending

/-- A gradient descent of one step succeeds with functions whose gradient answers once. -/
theorem run_once {J : ω → Prop} {guess : Tensor α} (hz : Scalar.DiscernsZero α)
    (hf : AnsweringOnce I J s.before s.loss s.gradient guess.shape) (hmax : s.settings.maxSteps = 1)
    {w : Run α × ω} (hw : I w.2) :
    ∃ y r v, attempt (run s guess) w = (.ok y, r, v) ∧ J v := by
  have hrun : Leaves (run s guess) w (fun y w' => y.shape = guess.shape ∧ Beneath J w') fun _ => False := by
    refine leaves_run hf.trial ?_
    rw [hmax]
    show Leaves (iterate s 0 _ _ 0 0) _ _ _
    unfold iterate
    exact .bind (leaves_iteration hf hz (x := guess.convert s.precision) rfl _ hw) fun _ _ h => .pure h
  obtain ⟨y, ⟨r, v⟩, h, -, hv⟩ := hrun.exists_ok
  exact ⟨y, r, v, h, hv⟩

variable (hf : Answering I s.before s.loss s.gradient shape) (hz : Scalar.DiscernsZero α)
include hf hz

theorem succeeds_iteration {x : Tensor α} (hx : x.shape = shape) (a : α) :
    Succeeds (Beneath I) (iteration s x a) fun r => r.2.shape = shape :=
  fun _ hw => leaves_iteration hf.once hz hx a hw

/-- So does the loop, by induction on the iterations that may follow. -/
theorem succeeds_iterate (left : Nat) : ∀ {x : Tensor α}, x.shape = shape → ∀ (a : α) (i j : Nat),
    Succeeds (Beneath I) (iterate s left x a i j) fun ending => ending.point.shape = shape := by
  induction left with
  | zero =>
    intro x hx a i j
    unfold iterate
    exact .bind (succeeds_iteration hf hz hx a) fun r hr => .pure hr
  | succ left ih =>
    intro x hx a i j
    unfold iterate
    refine .bind (succeeds_iteration hf hz hx a) fun r hr => ?_
    dsimp only
    split
    · exact .pure hr
    · exact ih hr _ _ _

/-- A gradient descent succeeds if its functions do. -/
theorem succeeds_run {guess : Tensor α} (hguess : guess.shape = shape) :
    Succeeds (Beneath I) (run s guess) fun y => y.shape = shape :=
  fun w hw => leaves_run hf.loss (succeeds_iterate hf hz _ (x := guess.convert s.precision) hguess _ _ _ w hw)

end GradientDescent

/-! ## Moment descent -/

namespace Adam

/-- Moments of a shape; no entry of the second one is below zero. -/
structure Moments.Fits (ms : Moments α) (shape : List Nat) : Prop where
  first : ms.first.shape = shape
  second : ms.second.shape = shape
  notNegative : ms.second.NotNegative

/-- Decays from zero on and below one, and a positive guard. -/
structure Settings.IsProper (h : Settings α) : Prop where
  firstDecay : Scalar.le Scalar.zero h.firstDecay = true ∧ Scalar.lt h.firstDecay Scalar.one = true
  secondDecay : Scalar.le Scalar.zero h.secondDecay = true ∧ Scalar.lt h.secondDecay Scalar.one = true
  guardTerm : Scalar.lt Scalar.zero h.guardTerm = true

section Moments

variable (hs : Scalar.KeepsSigns α) {h : Settings α} (hh : h.IsProper) {shape : List Nat}
include hs

/-- The moments before the first gradient have the shape of the point, and no entry below zero. -/
theorem Moments.fits_start {x : Tensor α} (hx : x.shape = shape) : (Moments.start x).Fits shape :=
  ⟨hx, hx, Tensor.notNegative_scale_zero hs x⟩

include hh

/-- A gradient of that shape leads to moments that fit again: squares are never negative. -/
theorem Moments.Fits.update {ms : Moments α} (hms : ms.Fits shape) {g : Tensor α} (hg : g.shape = shape) :
    ∃ after, ms.update h g = .ok after ∧ after.Fits shape := by
  obtain ⟨first, hfirst, hfirstShape⟩ := Tensor.moveBy_of_shape_eq (x := ms.first.scale h.firstDecay)
    (y := g.scale (Scalar.one - h.firstDecay)) (hms.first.trans hg.symm)
  obtain ⟨square, hsquare, hsquareShape⟩ := Tensor.combine_of_shape_eq "elmmul" (· * ·) (Eq.refl g.shape)
  obtain ⟨second, hsecond, hsecondShape⟩ := Tensor.moveBy_of_shape_eq (x := ms.second.scale h.secondDecay)
    (y := square.scale (Scalar.one - h.secondDecay)) (hms.second.trans (hsquareShape.trans hg).symm)
  have hdecayed : (ms.second.scale h.secondDecay).NotNegative :=
    hms.notNegative.scale hs (hs.of_le hh.secondDecay.1)
  have hadded : (square.scale (Scalar.one - h.secondDecay)).NotNegative :=
    (Tensor.notNegative_of_multiply_self_ok hs hsquare).scale hs (hs.complement hh.secondDecay.2).1
  refine ⟨⟨first, second⟩, ?_, hfirstShape.trans hms.first, hsecondShape.trans hms.second,
    hdecayed.of_moveBy_ok hs hadded hsecond⟩
  unfold Moments.update
  rw [hfirst]
  show (g.multiply g >>= fun square => _) = _
  rw [show g.multiply g = .ok square from hsquare]
  show ((ms.second.scale h.secondDecay).moveBy (square.scale (Scalar.one - h.secondDecay)) >>= _) = _
  rw [hsecond]
  rfl

/-- The corrections are square roots of and quotients by what the powers of the decays leave of one. -/
theorem exists_correctedStep {t : Nat} (ht : 1 ≤ t) : ∃ size, correctedStep h t = .ok size := by
  obtain ⟨second, hsecond, hsecondLt⟩ := hs.power ht hh.secondDecay.1 hh.secondDecay.2
  obtain ⟨first, hfirst, hfirstLt⟩ := hs.power ht hh.firstDecay.1 hh.firstDecay.2
  refine ⟨h.stepSize * Scalar.sqrt (Scalar.one - second) / (Scalar.one - first), ?_⟩
  unfold correctedStep
  rw [hsecond]
  show (Scalar.squareRoot (Scalar.one - second) >>= fun root => _) = _
  rw [Scalar.squareRoot_of_notNegative (hs.complement hsecondLt).1]
  show (Scalar.power h.firstDecay t >>= fun first => _) = _
  rw [hfirst]
  exact Scalar.divide_of_same_eq_false (hs.complement hfirstLt).2 _

/-- The guard keeps the quotient from having zero below. -/
theorem exists_inverseRoot {v : α} (hv : Scalar.NotNegative v) : ∃ w, inverseRoot h v = .ok w := by
  unfold inverseRoot
  rw [Scalar.squareRoot_of_notNegative hv]
  exact ⟨_, Scalar.divide_of_same_eq_false (hs.add_pos (hs.sqrt hv) hh.guardTerm) _⟩

/-- Moments that fit have a step. -/
theorem Moments.Fits.exists_stepOf {ms : Moments α} (hms : ms.Fits shape) (p : Precision) (size : α) :
    ∃ step, stepOf p h ms size = .ok step ∧ step.shape = shape := by
  have hsecond : (ms.second.convert p).NotNegative := hms.notNegative.convert hs p
  obtain ⟨weights, hweights, hshape⟩ := Tensor.mapM_of_forall (t := ms.second.convert p)
    (f := fun v => do return Scalar.round (ms.second.convert p).precision (← inverseRoot h v)) fun v hv => by
      obtain ⟨w, hw⟩ := exists_inverseRoot hs hh (hsecond v hv)
      exact ⟨Scalar.round (ms.second.convert p).precision w, by rw [hw]; rfl⟩
  obtain ⟨direction, hdirection, hdshape⟩ := Tensor.combine_of_shape_eq "elmmul" (· * ·)
    (hms.first.trans (hshape.trans hms.second).symm)
  refine ⟨direction.scale (-size), ?_, hdshape.trans hms.first⟩
  unfold stepOf
  dsimp only
  rw [hweights]
  show (ms.first.multiply weights >>= fun direction => _) = _
  rw [show ms.first.multiply weights = .ok direction from hdirection]
  rfl

end Moments

variable {s : Setup m α} {shape : List Nat}

/-- An iteration goes on to moments and to a point of the same shape, in the worlds that the gradient leads
to. -/
theorem leaves_iteration {J : ω → Prop} (hf : AnsweringOnce I J s.before s.loss s.gradient shape)
    (hs : Scalar.KeepsSigns α) (hh : s.settings.IsProper) {t : Nat} (ht : 1 ≤ t) {x : Tensor α}
    (hx : x.shape = shape) {ms : Moments α} (hms : ms.Fits shape) {w : Run α × ω} (hw : Beneath I w) :
    Leaves (iteration s t x ms) w
      (fun r w' => (r.1.Fits shape ∧ r.2.2.shape = shape) ∧ Beneath J w') fun _ => False := by
  unfold iteration
  refine .bind (Succeeds.evaluate hf.before w hw) fun _ w ⟨_, hw⟩ => ?_
  refine .bind (Succeeds.evaluate (Rule.succeeds_number (hf.loss x hx)) w hw) fun l w ⟨_, hw⟩ => ?_
  refine .bind (.evaluate (hf.gradient x w.2 hx hw)) fun g w ⟨hg, hw⟩ => ?_
  refine .bind_of_ok (attempt_lift_eq_ok.mpr ⟨checkGradient_of_shape_eq (hg.trans hx.symm), rfl⟩) ?_
  obtain ⟨after, hafter, hfits⟩ := hms.update hs hh hg
  obtain ⟨size, hsize⟩ := exists_correctedStep hs hh ht
  obtain ⟨step, hstep, hshape⟩ := hfits.exists_stepOf hs hh s.precision size
  obtain ⟨y, hy, hyshape⟩ := Tensor.moveBy_of_shape_eq (hx.trans hshape.symm)
  exact (Succeeds.bind_lift hafter (.bind_lift hsize (.bind_lift hstep (.bind (.record _) fun _ _ =>
    .bind_lift hy (.bind (.reporting _) fun _ _ => .pure ⟨hfits, hyshape.trans hx⟩))))) w hw

variable (hf : Answering I s.before s.loss s.gradient shape)
  (hs : Scalar.KeepsSigns α) (hh : s.settings.IsProper)
include hf hs hh

theorem succeeds_iteration {t : Nat} (ht : 1 ≤ t) {x : Tensor α} (hx : x.shape = shape) {ms : Moments α}
    (hms : ms.Fits shape) :
    Succeeds (Beneath I) (iteration s t x ms) fun r => r.1.Fits shape ∧ r.2.2.shape = shape :=
  fun _ hw => leaves_iteration hf.once hs hh ht hx hms hw

/-- So does the loop, by induction on the iterations that may follow. -/
theorem succeeds_iterate (left : Nat) : ∀ {t : Nat}, 1 ≤ t → ∀ {x : Tensor α}, x.shape = shape →
    ∀ {ms : Moments α}, ms.Fits shape → Succeeds (Beneath I) (iterate s left t x ms) fun r =>
      r.2.shape = shape := by
  induction left with
  | zero =>
    intro t ht x hx ms hms
    unfold iterate
    exact .bind (succeeds_iteration hf hs hh ht hx hms) fun r hr => .pure hr.2
  | succ left ih =>
    intro t ht x hx ms hms
    unfold iterate
    refine .bind (succeeds_iteration hf hs hh ht hx hms) fun r hr => ?_
    dsimp only
    split
    · exact .pure hr.2
    · exact ih (Nat.le_add_left 1 t) hr.2 hr.1

/-- A moment descent with proper settings succeeds if its functions do. -/
theorem succeeds_run {guess : Tensor α} (hguess : guess.shape = shape) :
    Succeeds (Beneath I) (run s guess) fun y => y.shape = shape := by
  have hstart : (guess.convert s.precision).shape = shape := hguess
  unfold run
  exact .bind (succeeds_iterate hf hs hh _ (Nat.le_refl 1) hstart (Moments.fits_start hs hstart))
    fun r hr => .bind (.reporting _) fun _ _ =>
      .bind (.evaluate (Rule.succeeds_number (hf.loss _ hr))) fun loss _ =>
        .bind (.reporting _) fun _ _ => .bind (.record _) fun _ _ => .bind .report fun _ _ =>
          .bind (.notify _) fun _ _ => .pure hr

end Adam

end Minimization
