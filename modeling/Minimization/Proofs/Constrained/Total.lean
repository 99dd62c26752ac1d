import Minimization.Proofs.Constrained.Augmented
import Minimization.Proofs.Constrained.Inner
import Minimization.Proofs.Constrained.Outer

/-!
# Runs on real numbers succeed

Every part of a round of the method of multipliers is defined at the arrays that represent points, so a
run on real numbers succeeds, if its inner settings are usable and its tolerance is a number.

The state of a round represents a point, and has one multiplier for every constraint: without that the
augmented objective would be refused. A round keeps both (`advance_total`), so the run is completed by
induction over its rounds.
-/

namespace Minimization.AugmentedLagrangian

variable {n : Nat} {shape : List Nat} {s : Setup Id ℝ} {f : Landscape n} {gs : List (Landscape n)}

/-- A state with a point of the shape and with one multiplier per constraint. -/
structure State.IsAt (st : State ℝ) (n : Nat) (shape : List Nat) (constraints : Nat) : Prop where
  point : ∃ v : Point n, st.point.Represents shape v
  multipliers : st.multipliers.length = constraints

section Parts

variable (hp : s.problem.Realizes shape f gs) {L : ScalarFunction Id ℝ}
  {dL : VectorFunction Id ℝ} {F : Landscape n} (hr : F.RealizedBy shape L dL)
include hp hr

/-- Snapshots on the reals never fail. -/
theorem snapshot_total (st : State ℝ) {x : Tensor ℝ} {v : Point n} (hx : x.Represents shape v) :
    ∃ t, s.snapshot st L x = pure t := by
  unfold Setup.snapshot
  rw [hp.objective.value hx, pure_bind, hp.constraintValues hx, pure_bind, hr.value hx, pure_bind]
  exact ⟨_, rfl⟩

omit hp in
/-- Nor do inner descents. -/
theorem descend_total {inner : GradientDescent.Settings ℝ} (hinner : s.settings.inner = .ok inner)
    (hdL : L.gradient = .ok (some dL)) {x : Tensor ℝ} {v : Point n} (hx : x.Represents shape v)
    (c : Course ℝ) :
    ∃ y c', perform (Constrained.descend (s.descent L x)) c = (.ok y, c') ∧
      ∃ w : Point n, y.Represents shape w := by
  have hrealizes : (GradientDescent.Setup.along s.precision L dL.evaluate inner).Realizes shape F.value
      F.field := by
    refine ⟨rfl, fun hx => ?_, hr.field⟩
    show (L.evaluate _ >>= fun a => pure (Answer.ofNumber a)) = _
    rw [hr.value hx]
    rfl
  have hdescent : perform (s.descent L x) c.innerRun
      = perform (GradientDescent.run (.along s.precision L dL.evaluate inner) x) c.innerRun := by
    unfold Setup.descent
    rw [hdL, hinner, lift_ok_bind, lift_ok_bind]
    rfl
  obtain ⟨y, r, hrun⟩ := GradientDescent.run_total (h := inner) hrealizes rfl hx c.innerRun
  obtain ⟨ks, reason, hcompleted⟩ := GradientDescent.run_ok hrun
  have hstart := GradientDescent.atPoint_start (s := .along s.precision L dL.evaluate inner)
    (h := inner) rfl hx
  exact ⟨y, _, perform_descend (hdescent.trans hrun), hcompleted.path.represents hrealizes rfl hstart⟩

end Parts

/-- So a round does not either, and its state goes on representing a point. -/
theorem advance_total (hp : s.problem.Realizes shape f gs) {inner : GradientDescent.Settings ℝ}
    (hinner : s.settings.inner = .ok inner) {st : State ℝ} (hst : st.IsAt n shape gs.length)
    (number : Nat) (c : Course ℝ) :
    ∃ r c', perform (s.advance number st) c = (.ok r, c') ∧ r.1.IsAt n shape gs.length ∧
      r.1.point.shape = st.point.shape := by
  obtain ⟨v, hv⟩ := hst.point
  have hshape : st.multiplierVector.shape = [gs.length] := by
    rw [← hst.multipliers]
    rfl
  obtain ⟨L, dL, hL, hdL, hr⟩ := hp.augmented s.precision hshape st.weight
  obtain ⟨before, hbefore⟩ := snapshot_total hp hr st hv
  obtain ⟨y, c₁, hdescend, w, hw⟩ := descend_total hr hinner hdL hv (c.extend ⟨[before], [], []⟩)
  obtain ⟨after, hafter⟩ := snapshot_total hp hr st hw
  have hlength : (raised st.multipliers st.weight (gs.map fun g => g.value w)).length = gs.length := by
    rw [raised, List.length_zipWith, hst.multipliers, List.length_map, Nat.min_self]
  unfold Setup.advance
  rw [show s.objective st = .ok L from hL, lift_ok_bind, perform_bind_of_ok (perform_snapshot hbefore c),
    perform_bind_of_ok hdescend, perform_bind_of_ok (perform_snapshot hafter _),
    perform_bind_of_ok (perform_constrained_evaluate (hp.constraintValues hw) _),
    perform_bind_of_ok (perform_constrained_evaluate (hp.objective.value hw) _),
    perform_bind_of_ok (perform_constrained_notify _ _)]
  exact ⟨_, _, rfl, ⟨⟨w, hw⟩, hlength⟩, hw.shape_eq.trans hv.shape_eq.symm⟩

/-- The method of multipliers on real numbers succeeds from every guess of the right size. -/
theorem minimize_total (hp : s.problem.Realizes shape f gs)
    (hdim : (Value.int n).agrees s.problem.dimension = true) {inner : GradientDescent.Settings ℝ}
    (hinner : s.settings.inner = .ok inner) (ht : s.settings.tolerance ≠ .incomparable)
    {guess : Tensor ℝ} {v : Point n} (hg : guess.Represents shape v) (c : Course ℝ) :
    ∃ x w, perform (minimize s.precision s.problem (.ok s.settings) guess) c = (.ok x, w) := by
  have hstart : checkStart s.problem guess = .ok () := by
    rw [checkStart, hg.size_eq, if_pos hdim]
  have hopening : perform (s.scheme guess).opening c = (.ok (s.start guess), c) := by
    unfold Setup.scheme
    rw [hstart, lift_ok_bind, perform_pure]
  have hcount : (s.start guess).multipliers.length = gs.length := by
    rw [← hp.constraintCount_eq]
    exact List.length_map _
  rw [minimize_eq_run]
  refine Scheme.run_total (I := fun st => st.IsAt n shape gs.length) (fun {number st u} hst => ?_) hopening
    ⟨⟨v, hg.convert s.precision⟩, hcount⟩
  obtain ⟨r, c₁, hadvance, hnext, hshape⟩ := advance_total hp hinner hst number u
  obtain ⟨done, c₂, hsettle⟩ := Constrained.settle_total ht hshape (fun _ => Problem.violationOf r.2)
    (fun moved => .multipliersSettled number moved (Problem.violationOf r.2)) r.1 c₁
  refine ⟨r.1, done, c₂, ?_, hnext⟩
  change perform (round s number st) u = _
  rw [round_eq, perform_bind_of_ok hadvance]
  exact hsettle

end Minimization.AugmentedLagrangian
