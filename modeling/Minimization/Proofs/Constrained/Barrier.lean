import Minimization.Constrained.Barrier
import Minimization.Proofs.Constrained.Landscape
import Minimization.Proofs.Descent.Exact

/-!
# The barrier as a loss of a descent

The barrier objective of a problem is real at strictly feasible points and infinite everywhere else,
and its gradient is a field that is real everywhere. An inner descent of the barrier method
therefore realizes a loss and a field (`LogBarrier.Setup.Realizes.inner`).

Infinity is above every bound that a line search compares with. A step whose search is not exhausted
has a finite loss at its end, so that it does not leave the strictly feasible set, and neither does
a path of such steps (`GradientDescent.Completed.isInterior`).
-/

namespace Minimization

open ExactScalar
open scoped RealInnerProductSpace

variable {n : Nat} {shape : List Nat}

/-- Every constraint holds with strict inequality. -/
def StrictlyFeasible (gs : List (Landscape n)) (v : Point n) : Prop := ∀ g ∈ gs, g.value v < 0

theorem strictlyFeasible_cons {g : Landscape n} {gs : List (Landscape n)} {v : Point n} :
    StrictlyFeasible (g :: gs) v ↔ g.value v < 0 ∧ StrictlyFeasible gs v :=
  List.forall_mem_cons

/-- The factor of a constraint's direction in the gradient of the barrier. -/
noncomputable def barrierPush (weight t : ℝ) : ℝ := if t < 0 then -(weight / t) else 1 + t

namespace Landscape

/-- What the slacks take from the objective at a strictly feasible point. -/
noncomputable def barrierTerms (gs : List (Landscape n)) (weight : ℝ) (v : Point n) : ℝ :=
  (gs.map fun g => weight * Real.log (-g.value v)).sum

open Classical in
/-- The barrier objective: infinite outside the strictly feasible set. -/
noncomputable def barrierLoss {α : Type} [ExactScalar α] (f : Landscape n) (gs : List (Landscape n))
    (weight : ℝ) (v : Point n) : α :=
  if StrictlyFeasible gs v then ofReal (f.value v - barrierTerms gs weight v) else Scalar.infinity

/-- The gradient of the barrier objective, of directions of norm one. -/
noncomputable def barrierField (f : Landscape n) (gs : List (Landscape n)) (weight : ℝ)
    (v : Point n) : Point n :=
  unit negligible (f.field v)
    + (gs.map fun g => barrierPush weight (g.value v) • unit negligible (g.field v)).sum

end Landscape

/-! ## The loops -/

namespace Problem

variable {α : Type} [ExactScalar α] {p : Problem Id α} {f : Landscape n} {gs : List (Landscape n)}
  {cs : List (ScalarFunction Id α × VectorFunction Id α)} {x : Tensor α} {v : Point n}

open Classical in
/-- The loop of the value takes the terms of all slacks, or stops at the first slack that is not
positive. -/
theorem subtractBarriers_eq (weight : ℝ)
    (h : List.Forall₂ (fun c g => Landscape.RealizedBy g shape c.1 c.2) cs gs)
    (hx : x.Represents shape v) (acc : ℝ) :
    subtractBarriers (ofReal weight) x (ofReal acc) (cs.map Prod.fst) =
      pure (if StrictlyFeasible gs v then ofReal (acc - Landscape.barrierTerms gs weight v)
        else Scalar.infinity) := by
  induction h generalizing acc with
  | nil =>
    have hnil : StrictlyFeasible [] v := List.forall_mem_nil _
    rw [if_pos hnil, Landscape.barrierTerms, List.map_nil, List.map_nil, List.sum_nil, sub_zero]
    rfl
  | @cons c g cs gs hc _ ih =>
    rw [List.map_cons, subtractBarriers, hc.value hx, pure_bind]
    dsimp only
    rw [← ofReal_neg, zero_eq, le_ofReal]
    -- The loop goes on only past a constraint that is strictly satisfied.
    by_cases hg : g.value v < 0
    · have hslack : 0 < -g.value v := neg_pos.mpr hg
      rw [if_neg (by simpa using hg), logarithm_ofReal hslack, Evaluation.lift_ok, pure_bind,
        ← ofReal_mul, ← ofReal_sub, ih]
      congr 1
      rw [Landscape.barrierTerms, Landscape.barrierTerms, List.map_cons, List.sum_cons, sub_sub]
      simp only [strictlyFeasible_cons, hg, true_and]
    · rw [if_pos (by simpa using hg), if_neg fun h => hg (strictlyFeasible_cons.mp h).1]

/-- The loop of the gradient adds the pushes of the constraints. -/
theorem addBarrierGradients_eq (q : Precision) (weight : ℝ)
    (h : List.Forall₂ (fun c g => Landscape.RealizedBy g shape c.1 c.2) cs gs)
    (hx : x.Represents shape v) {acc : Tensor α} {u : Point n} (hacc : acc.Represents shape u) :
    ∃ z, addBarrierGradients q (ofReal weight) x acc cs = pure z ∧ z.Represents shape
      (u + (gs.map fun g => barrierPush weight (g.value v) • unit negligible (g.field v)).sum) := by
  induction h generalizing acc u with
  | nil => exact ⟨acc, by simp [addBarrierGradients], by simpa using hacc⟩
  | @cons c g cs gs hc _ ih =>
    obtain ⟨c, dc⟩ := c
    obtain ⟨dg, hdg, hdgr⟩ := hc.field hx
    obtain ⟨d, hd, hdr⟩ := hdgr.normalize q
    rw [List.map_cons, List.sum_cons, ← add_assoc, addBarrierGradients, hc.value hx, pure_bind, hdg,
      pure_bind, hd, Evaluation.lift_ok, pure_bind, zero_eq, lt_ofReal, barrierPush]
    by_cases hg : g.value v < 0
    · obtain ⟨z, hz, hzr⟩ := hacc.subInto (hdr.scale (weight / g.value v))
      rw [if_pos (decide_eq_true hg), if_pos hg, divide_ofReal _ hg.ne, Evaluation.lift_ok,
        pure_bind, hz, Evaluation.lift_ok, pure_bind, neg_smul, ← sub_eq_add_neg]
      exact ih hzr
    · obtain ⟨z, hz, hzr⟩ := hacc.addInto (hdr.scale (1 + g.value v))
      rw [if_neg (by simpa using hg), if_neg hg, one_eq, ← ofReal_add, hz, Evaluation.lift_ok,
        pure_bind]
      exact ih hzr

/-- What is computed on arrays is the loss with its barrier, the infinity outside of the interior
included. -/
theorem Realizes.barrier (hp : p.Realizes shape f gs) (hx : x.Represents shape v) (q : Precision)
    (weight : ℝ) :
    (p.barrier q (ofReal weight)).evaluate x = pure (f.barrierLoss gs weight v) := by
  rw [Problem.barrier, ScalarFunction.evaluate_ofNumber, barrierValue, hp.objective.value hx,
    pure_bind, ← constraintPairs_fst]
  exact subtractBarriers_eq weight hp.constraints hx _

/-- So is what is computed as its gradient, in whichever branch the constraints put it. -/
theorem Realizes.barrierGradient (hp : p.Realizes shape f gs) (hx : x.Represents shape v)
    (q : Precision) (weight : ℝ) :
    ∃ g, p.barrierGradient q (ofReal weight) x = pure g ∧
      g.Represents shape (f.barrierField gs weight v) := by
  obtain ⟨df, hdf, hdfr⟩ := hp.objective.field hx
  obtain ⟨d, hd, hdr⟩ := hdfr.normalize q
  rw [Problem.barrierGradient, hdf, pure_bind, hd, Evaluation.lift_ok, pure_bind]
  exact addBarrierGradients_eq q weight hp.constraints hx hdr

end Problem

namespace LogBarrier

/-- The inner descent of a setup for usable settings. -/
def Setup.inner {α : Type} [Scalar α] (s : Setup Id α) (settings : GradientDescent.Settings α)
    (weight : α) : GradientDescent.Setup Id α :=
  ⟨"GradientDescent", s.precision, settings, (s.problem.barrier s.precision weight).asRule,
    s.problem.barrierGradient s.precision weight, pure ()⟩

/-- An inner descent realizes the barrier objective and its gradient. -/
theorem Setup.realizes_inner {α : Type} [ExactScalar α] {s : Setup Id α} {f : Landscape n}
    {gs : List (Landscape n)} (hp : s.problem.Realizes shape f gs)
    (settings : GradientDescent.Settings α) (weight : ℝ) :
    (s.inner settings (ofReal weight)).Realizes shape (f.barrierLoss gs weight)
      (f.barrierField gs weight) where
  before := rfl
  loss hx := by
    show ((s.problem.barrier s.precision (ofReal weight)).evaluate _ >>= fun a =>
      pure (Answer.ofNumber a)) = _
    rw [hp.barrier hx, pure_bind]
  gradient hx := hp.barrierGradient hx s.precision weight

/-- At strictly feasible points the implied multipliers are real. -/
theorem impliedMultipliers_eq {α : Type} [ExactScalar α] {gs : List (Landscape n)} {v : Point n}
    (hv : StrictlyFeasible gs v) (weight : ℝ) :
    impliedMultipliers (ofReal weight : α) (gs.map fun g => ofReal (g.value v))
      = gs.map fun g => ofReal (-weight / g.value v) := by
  rw [impliedMultipliers, List.map_map]
  refine List.map_congr_left fun g hg => ?_
  rw [Function.comp_apply, ofReal_div _ (hv g hg).ne, ofReal_neg]

end LogBarrier

/-! ## Descents along the barrier -/

variable {α : Type} [ExtendedScalar α] {gs : List (Landscape n)}

/-- An array of a shape that represents a strictly feasible point. -/
def Tensor.IsInterior (x : Tensor α) (shape : List Nat) (gs : List (Landscape n)) : Prop :=
  ∃ v : Point n, x.Represents shape v ∧ StrictlyFeasible gs v

/-- Whether an array is strictly feasible is a matter of the point that it represents. -/
theorem Tensor.Represents.isInterior_iff {x : Tensor α} {v : Point n} (hx : x.Represents shape v) :
    x.IsInterior shape gs ↔ StrictlyFeasible gs v := by
  constructor
  · rintro ⟨w, hw, hfeasible⟩
    rwa [hx.unique hw]
  · intro hv
    exact ⟨v, hx, hv⟩

theorem Tensor.IsInterior.flatten {x : Tensor α} (hx : x.IsInterior shape gs) :
    x.flatten.IsInterior [n] gs := by
  obtain ⟨v, hv, hfeasible⟩ := hx
  exact ⟨v, hv.flatten, hfeasible⟩

theorem Tensor.IsInterior.convert {x : Tensor α} (hx : x.IsInterior shape gs) (q : Precision) :
    (x.convert q).IsInterior shape gs := by
  obtain ⟨v, hv, hfeasible⟩ := hx
  exact ⟨v, hv.convert q, hfeasible⟩

/-- Recorded positions are flat, and in double precision. -/
theorem Tensor.IsInterior.toVector {x : Tensor α} (hx : x.IsInterior shape gs) :
    x.toVector.IsInterior [n] gs :=
  hx.flatten.convert .double

namespace GradientDescent

variable {s : Setup Id α} {h : Settings ℝ} {f : Landscape n} {weight : ℝ}
  {field : Point n → Point n}

/-- A step from a strictly feasible point whose search is not exhausted ends at one: the bound that
its loss has been compared with is real, and infinity is above it. -/
theorem Step.Realizes.strictlyFeasible {k : Step α} {v : Point n} {size : ℝ}
    (hk : k.Realizes s shape (f.barrierLoss gs weight) field v size) (hh : s.settings = h.lift)
    (hv : StrictlyFeasible gs v) (hx : k.trial.exhausted = false) :
    StrictlyFeasible gs (v + size • steepest (field v)) := by
  by_contra hnext
  have hloss : k.loss = ofReal (f.value v - Landscape.barrierTerms gs weight v) := by
    rw [hk.loss_eq, Landscape.barrierLoss, if_pos hv]
  have hbound : ∃ b : ℝ, k.bound s (ofReal size) = ofReal b := by
    refine ⟨f.value v - Landscape.barrierTerms gs weight v
      + h.sufficientShare * size * ⟪field v, steepest (field v)⟫, ?_⟩
    rw [Step.bound, hloss, hk.slope_eq, hh, ofReal_add, ofReal_mul, ofReal_mul]
    rfl
  obtain ⟨b, hb⟩ := hbound
  -- The loss of the next point would be infinite, and the search exhausted.
  have hsettled := hk.settled
  rw [Landscape.barrierLoss, if_neg hnext, hb, ExtendedScalar.lt_infinity, hx] at hsettled
  cases hsettled

/-- A descent along the barrier without exhausted searches that starts at a strictly feasible point
only visits such points. -/
theorem Completed.isInterior {guess y : Tensor α} {ks : List (Step α)} {reason : StopReason}
    {r r' : Run α} (hc : Completed s guess r ks y reason r')
    (hs : s.Realizes shape (f.barrierLoss gs weight) field) (hh : s.settings = h.lift)
    (hguess : guess.IsInterior shape gs) (hx : ∀ k ∈ ks, k.trial.exhausted = false) :
    y.IsInterior shape gs ∧ ∀ k ∈ ks, k.point.IsInterior shape gs := by
  have hstart : (guess.convert s.precision).IsInterior shape gs ∧
      ∃ b : ℝ, s.settings.initialStep = ofReal b :=
    ⟨hguess.convert _, h.initialStep, by rw [hh]; rfl⟩
  obtain ⟨⟨_, hy, -⟩, hmem⟩ := hc.path.invariant
    (I := fun x a => x.IsInterior shape gs ∧ ∃ b : ℝ, a = ofReal b) hstart (by
      rintro k hk x a hf ⟨⟨v, hv, hfeasible⟩, b, rfl⟩
      have hr := hf.realizes hs hh hv
      refine ⟨⟨_, hr.next, hr.strictlyFeasible hh hfeasible (hx k hk)⟩, ?_⟩
      exact (hf.atPoint hs hh ⟨⟨v, hv⟩, b, rfl⟩).2)
  refine ⟨hy, fun k hk => ?_⟩
  obtain ⟨x, a, hf, hx, -⟩ := hmem k hk
  rw [hf.point_eq]
  exact hx

/-- All positions that such a descent records are strictly feasible. -/
theorem Completed.isInterior_positions {guess y : Tensor α} {ks : List (Step α)}
    {reason : StopReason} {r r' : Run α} (hc : Completed s guess r ks y reason r')
    (hy : y.IsInterior shape gs)
    (hks : ∀ k ∈ ks, k.point.IsInterior shape gs)
    (hr : ∀ t ∈ r.history, ∀ z ∈ t.positions, z.IsInterior [n] gs) :
    ∀ t ∈ r'.history, ∀ z ∈ t.positions, z.IsInterior [n] gs := by
  intro t ht z hz
  rw [hc.history] at ht
  obtain ⟨t₀, ht₀, rfl⟩ := Option.mem_map.mp ht
  rcases List.mem_append.mp hz with hz | hz
  · rcases List.mem_append.mp hz with hz | hz
    · exact hr t₀ ht₀ z hz
    · obtain ⟨k, hk, rfl⟩ := List.mem_map.mp hz
      exact (hks k hk).toVector
  · obtain rfl := List.mem_singleton.mp hz
    exact hy.toVector

end GradientDescent

end Minimization
