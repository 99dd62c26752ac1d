import Minimization.Constrained.Multipliers
import Minimization.Proofs.Constrained.Barrier
import Minimization.Proofs.Descent.Layout

/-!
# Inner descents

The inner descents of the constrained solvers are gradient descents along the augmented objective and
along the barrier. Their gradients have the precision of the solver, so the points that they lead to are
kept with it, and an inner descent starts exactly where the solver stands. Its history, if it is kept,
`Spans` the way from there: it begins with that point and its loss, and ends with the point that the
descent returns and the loss there.
-/

namespace Minimization

/-! ## The gradients -/

namespace Problem

variable {m : Type → Type} [Monad m] {ω : Type} [Stateful m ω] {α : Type} [Scalar α] {p : Problem m α}
  {q : Precision} {weight : α} {x g : Tensor α} {u u' : ω}

/-- Adding gradients of penalties leaves the precision of the sum, whatever that of the gradients is. -/
theorem precision_of_addPenaltyGradients_ok
    {cs : List (α × ScalarFunction m α × VectorFunction m α)} {acc : Tensor α}
    (h : attempt (addPenaltyGradients weight x acc cs) u = (.ok g, u')) : g.precision = acc.precision := by
  induction cs generalizing acc u with
  | nil =>
    obtain ⟨rfl, -⟩ := attempt_pure_eq_ok.mp h
    rfl
  | cons c cs ih =>
    unfold addPenaltyGradients at h
    obtain ⟨gx, _, -, h⟩ := attempt_bind_eq_ok.mp h
    dsimp only at h
    split at h
    next => exact ih h
    next =>
      obtain ⟨dgx, _, -, h⟩ := attempt_bind_eq_ok.mp h
      obtain ⟨next, _, hnext, h⟩ := attempt_bind_eq_ok.mp h
      rw [ih h]
      exact Tensor.precision_of_combineInto_ok (attempt_lift_eq_ok.mp hnext).1

/-- Gradients of the augmented objective have the precision of the solver. -/
theorem precision_of_augmentedGradient_ok {multipliers : List α}
    (h : attempt (p.augmentedGradient q multipliers weight x) u = (.ok g, u')) : g.precision = q := by
  unfold augmentedGradient at h
  obtain ⟨dfx, _, -, h⟩ := attempt_bind_eq_ok.mp h
  rw [precision_of_addPenaltyGradients_ok h]
  rfl

theorem precision_of_addBarrierGradients_ok {cs : List (ScalarFunction m α × VectorFunction m α)}
    {acc : Tensor α} (h : attempt (addBarrierGradients q weight x acc cs) u = (.ok g, u')) :
    g.precision = acc.precision := by
  induction cs generalizing acc u with
  | nil =>
    obtain ⟨rfl, -⟩ := attempt_pure_eq_ok.mp h
    rfl
  | cons c cs ih =>
    unfold addBarrierGradients at h
    obtain ⟨gx, _, -, h⟩ := attempt_bind_eq_ok.mp h
    obtain ⟨dgx, _, -, h⟩ := attempt_bind_eq_ok.mp h
    obtain ⟨direction, _, -, h⟩ := attempt_bind_eq_ok.mp h
    split at h
    next =>
      obtain ⟨w, _, -, h⟩ := attempt_bind_eq_ok.mp h
      obtain ⟨next, _, hnext, h⟩ := attempt_bind_eq_ok.mp h
      rw [ih h]
      exact Tensor.precision_of_combineInto_ok (attempt_lift_eq_ok.mp hnext).1
    next =>
      obtain ⟨next, _, hnext, h⟩ := attempt_bind_eq_ok.mp h
      rw [ih h]
      exact Tensor.precision_of_combineInto_ok (attempt_lift_eq_ok.mp hnext).1

/-- Gradients of the barrier have the precision of the solver. -/
theorem precision_of_barrierGradient_ok
    (h : attempt (p.barrierGradient q weight x) u = (.ok g, u')) : g.precision = q := by
  unfold barrierGradient at h
  obtain ⟨dfx, _, -, h⟩ := attempt_bind_eq_ok.mp h
  obtain ⟨direction, _, hdirection, h⟩ := attempt_bind_eq_ok.mp h
  rw [precision_of_addBarrierGradients_ok h,
    Tensor.precision_of_normalizeAbove_ok (attempt_lift_eq_ok.mp hdirection).1]
  rfl

end Problem

/-! ## The ends of a history -/

/-- A function as a rule answers with its value. -/
theorem ScalarFunction.number_asRule {α : Type} (f : ScalarFunction Id α) (x : Tensor α) :
    f.asRule.number x = f.evaluate x := by
  show ((f.evaluate x >>= fun a => pure (Answer.ofNumber a)) >>= fun r =>
    (liftM r.converted : Evaluation Id α)) = f.evaluate x
  rw [bind_assoc]
  exact bind_pure _

variable {α : Type} [Scalar α] {x y : Tensor α}

/-- The history begins with a point and the value of a function there, and ends with another one. -/
structure History.Spans (h : History α) (f : ScalarFunction Id α) (x y : Tensor α) : Prop where
  first_position : h.positions.head? = some x.toVector
  last_position : h.positions.getLast? = some y.toVector
  first_loss : ∃ a, f.evaluate x = pure a ∧ h.losses.head? = some a
  last_loss : ∃ a, f.evaluate y = pure a ∧ h.losses.getLast? = some a

theorem History.Spans.first_loss_eq {h : History α} {f : ScalarFunction Id α} (hf : h.Spans f x y) {a : α}
    (ha : f.evaluate x = pure a) : h.losses.head? = some a := by
  obtain ⟨b, hb, hfirst⟩ := hf.first_loss
  rw [hfirst, Evaluation.pure_inj.mp (ha.symm.trans hb)]

theorem History.Spans.last_loss_eq {h : History α} {f : ScalarFunction Id α} (hf : h.Spans f x y) {a : α}
    (ha : f.evaluate y = pure a) : h.losses.getLast? = some a := by
  obtain ⟨b, hb, hlast⟩ := hf.last_loss
  rw [hlast, Evaluation.pure_inj.mp (ha.symm.trans hb)]

/-- A gradient descent along a function, for given settings. -/
def GradientDescent.Setup.along (q : Precision) (f : ScalarFunction Id α) (g : Field Id α)
    (settings : Settings α) : Setup Id α :=
  ⟨"GradientDescent", q, settings, f.asRule, g, pure ()⟩

/-- A descent along a function, from a point that is kept, records the way from there. -/
theorem GradientDescent.spans_of_run_ok {q : Precision} (hround : Scalar.RoundsOnce α q)
    {f : ScalarFunction Id α} {g : Field Id α} {settings : Settings α} (hx : x.IsKept q)
    {report : Report α} {notices : List (Notice α)} {r : Run α}
    (h : perform (run (.along q f g settings) x) ⟨report, some .empty, notices⟩ = (.ok y, r)) :
    ∃ h, r.history = some h ∧ h.Spans f x y := by
  obtain ⟨es, h, w, hhistory, hlayout⟩ := layout_of_run_ok hround.double (attempt_of_perform h)
  have hshown := hlayout.shown
  obtain ⟨e, he⟩ : ∃ e, es[0]? = some e :=
    ⟨_, List.getElem?_eq_getElem (List.length_pos_iff.mpr hlayout.nonempty)⟩
  obtain ⟨hpoint, -, hloss, -⟩ := hshown.shown 0 e he
  have hstart : e.point = x := (hshown.first_entry e he).1.trans hx.convert_eq
  refine ⟨h, hhistory, ?_, ?_, ⟨e.loss, ?_, ?_⟩, ⟨r.report.loss, ?_, ?_⟩⟩
  · rw [List.head?_eq_getElem?, hpoint, hstart]
  · rw [List.getLast?_eq_getElem?, hshown.length_positions, Nat.add_sub_cancel, hshown.last_position]
  · obtain ⟨u', hfirst⟩ := hlayout.loss e (List.mem_of_getElem? he)
    rw [← hstart, ← f.number_asRule]
    exact congrArg Prod.fst hfirst
  · rw [List.head?_eq_getElem?, hloss]
  · rw [← f.number_asRule]
    exact congrArg Prod.fst hlayout.final_loss
  · rw [List.getLast?_eq_getElem?, hshown.length_losses, Nat.add_sub_cancel, hshown.last_loss]

/-! ## Inner descents -/

/-- The run of an inner descent whose history is kept, at its start. -/
def Run.inner : Run α := ⟨⟨Scalar.zero / Scalar.zero, Scalar.zero / Scalar.zero, 0⟩, some .empty, []⟩

/-- An inner descent that leads to a point and records a history. -/
def Descent.Records (d : Descent Id α (Tensor α)) (y : Tensor α) (h : History α) : Prop :=
  ∃ r, perform d .inner = (.ok y, r) ∧ r.history = some h

/-- A point that is kept with a precision, beside a course that keeps all records. -/
structure Course.IsRecording (c : Course α) (q : Precision) (x : Tensor α) : Prop where
  kept : x.IsKept q
  trace : c.trace.isSome
  histories : c.histories.isSome

/-- A course goes on recording, from the point that its last round has led to. -/
theorem Course.IsRecording.extend {c : Course α} {q : Precision} (h : c.IsRecording q x)
    (hy : y.IsKept q) (d : Segment α) : (c.extend d).IsRecording q y :=
  ⟨hy, isSome_trace_extend h.trace d, isSome_histories_extend h.histories d⟩

/-- The descent is a gradient descent from a point along a function, for some settings. -/
def Descent.IsAlong (d : Descent Id α (Tensor α)) (q : Precision) (f : ScalarFunction Id α)
    (g : Field Id α) (x : Tensor α) : Prop :=
  ∀ r₀ y r, perform d r₀ = (.ok y, r) →
    ∃ settings, perform (GradientDescent.run (.along q f g settings) x) r₀ = (.ok y, r)

section Descend

variable {d : Descent Id α (Tensor α)} {q : Precision} {f : ScalarFunction Id α} {g : Field Id α}
  (hd : d.IsAlong q f g x) {c c' : Course α}
include hd

/-- An inner descent leads to a point of the shape that it starts with. -/
theorem Descent.IsAlong.shape_eq (h : perform (Constrained.descend d) c = (.ok y, c')) :
    y.shape = x.shape := by
  obtain ⟨r, hr, -⟩ := perform_descend_eq_ok h
  obtain ⟨settings, hrun⟩ := hd _ _ _ hr
  exact GradientDescent.shape_of_run_ok (attempt_of_perform hrun)

/-- From a point that is kept, an inner descent leads to another one, and its history is added. -/
theorem Descent.IsAlong.records (hround : Scalar.RoundsOnce α q)
    (hg : ∀ x g' u u', attempt (g x) u = (.ok g', u') → g'.precision = q) (hc : c.IsRecording q x)
    (h : perform (Constrained.descend d) c = (.ok y, c')) :
    y.IsKept q ∧ ∃ k notices, d.Records y k ∧ k.Spans f x y ∧ c' = c.extend ⟨[], [k], notices⟩ := by
  obtain ⟨r, hr, hc'⟩ := perform_descend_eq_ok h
  have hinner : c.innerRun = Run.inner := by
    unfold Course.innerRun
    rw [if_pos hc.histories]
    rfl
  rw [hinner] at hr
  obtain ⟨settings, hrun⟩ := hd _ _ _ hr
  obtain ⟨k, hk, hspans⟩ := GradientDescent.spans_of_run_ok hround hc.kept hrun
  rw [hk] at hc'
  refine ⟨?_, k, r.notices, ⟨r, hr, hk⟩, hspans, hc'⟩
  exact GradientDescent.isKept_of_run_ok (s := .along q f g settings) hround.again hg
    (attempt_of_perform hrun)

end Descend

namespace AugmentedLagrangian

variable {s : Setup Id α} {st : State α} {objective : ScalarFunction Id α}

/-- The inner descents of the method of multipliers go along the augmented objective. -/
theorem descent_isAlong (hobjective : s.objective st = .ok objective) (x : Tensor α) :
    (s.descent objective x).IsAlong s.precision objective
      (s.problem.augmentedGradient s.precision st.multiplierVector.entries st.weight) x := by
  intro r₀ y r h
  unfold Setup.objective Problem.augmented at hobjective
  split at hobjective
  next => cases hobjective
  next =>
    obtain rfl := Except.ok.inj hobjective
    unfold Setup.descent at h
    obtain ⟨gradient, _, hgradient, h⟩ := perform_bind_eq_ok.mp h
    obtain ⟨heq, rfl⟩ := perform_lift_eq_ok.mp hgradient
    obtain rfl := Except.ok.inj heq
    obtain ⟨settings, _, hsettings, h⟩ := perform_bind_eq_ok.mp h
    obtain ⟨-, rfl⟩ := perform_lift_eq_ok.mp hsettings
    exact ⟨settings, h⟩

end AugmentedLagrangian

/-- The inner descents of the barrier method go along the barrier. -/
theorem LogBarrier.descent_isAlong (s : Setup Id α) (weight : α) (x : Tensor α) :
    (s.descent weight x).IsAlong s.precision (s.problem.barrier s.precision weight)
      (s.problem.barrierGradient s.precision weight) x := by
  intro r₀ y r h
  unfold Setup.descent at h
  obtain ⟨settings, _, hsettings, h⟩ := perform_bind_eq_ok.mp h
  obtain ⟨-, rfl⟩ := perform_lift_eq_ok.mp hsettings
  exact ⟨settings, h⟩

end Minimization
