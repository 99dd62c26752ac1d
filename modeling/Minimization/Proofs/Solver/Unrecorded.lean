import Minimization.Proofs.Constrained.Outer
import Minimization.Proofs.Descent.Projection
import Minimization.Proofs.Descent.Visits
import Minimization.Proofs.Problem.Evaluations

/-!
# Recording changes nothing

A solver does the same whether what it does is recorded or not. A solver of functions evaluates them at
the same points then, as functions show that note where they are evaluated, and it leaves the same world
and the same run apart from the history, wherever it fails.

A constrained solver evaluates more functions if it keeps a trace, since a snapshot evaluates the problem
again. So it does the same only for functions that a snapshot does not disturb: those that have a value
everywhere and leave no trace (`IsQuiet`). Neither of its records then depends on the other one.
-/

namespace Minimization

variable {m : Type → Type} [Monad m] {ω : Type} [Stateful m ω] {α β : Type}

/-! ## Courses -/

/-- A course with its trace and its histories, or without them. -/
def Course.keeping (traced logged : Bool) (c : Course α) : Course α :=
  { c with
    trace := if traced then c.trace else none
    histories := if logged then c.histories else none }

section Parts

variable {traced logged : Bool}

theorem refines_constrained_evaluate (e : Evaluation m β) :
    Refines (Prod.map (Course.keeping traced logged) id) (Constrained.evaluate e : Constrained m α β)
      (Constrained.evaluate e) := by
  intro w
  rw [attempt_constrained_evaluate, attempt_constrained_evaluate]
  rfl

theorem refines_constrained_notify (n : Notice α) :
    Refines (Prod.map (Course.keeping traced logged) id) (Constrained.notify (m := m) n)
      (Constrained.notify (m := m) n) := by
  intro w
  rw [attempt_constrained_notify, attempt_constrained_notify]
  rfl

theorem refines_conclude (report : ConstrainedReport α) :
    Refines (Prod.map (Course.keeping traced logged) id) (Constrained.conclude (m := m) report)
      (Constrained.conclude (m := m) report) := by
  intro w
  rw [attempt_conclude, attempt_conclude]
  rfl

/-- It makes no difference whether a snapshot is taken that has an answer and leaves no trace. -/
theorem refines_snapshot {take : Evaluation m (Snapshot α)} (h : IsQuiet take) :
    Refines (Prod.map (Course.keeping traced logged) id) (Constrained.snapshot take)
      (Constrained.snapshot take) := by
  intro w
  obtain ⟨t, ht⟩ := h w.2
  have htaken {c : Course α} (hc : c.trace.isSome) :
      attempt (Constrained.snapshot take) (c, w.2) = (.ok (), c.addSnapshot t, w.2) := by
    rw [attempt_snapshot (w := (c, w.2)) hc, ht]
  have hskipped {c : Course α} (hc : c.trace = none) :
      attempt (Constrained.snapshot take) (c, w.2) = (.ok (), c, w.2) :=
    attempt_snapshot_none hc
  show Prod.map id _ (attempt (Constrained.snapshot take) (w.1, w.2)) =
    attempt (Constrained.snapshot take) (w.1.keeping traced logged, w.2)
  cases hw : w.1.trace with
  | none =>
    have hnone : (w.1.keeping traced logged).trace = none := by
      rw [Course.keeping, hw]
      exact ite_self none
    rw [hskipped hw, hskipped hnone]
    rfl
  | some ts =>
    have hsome : w.1.trace.isSome := Option.isSome_of_eq_some hw
    rw [htaken hsome]
    cases traced with
    | false =>
      rw [hskipped (c := w.1.keeping false logged) rfl]
      rfl
    | true =>
      rw [htaken (c := w.1.keeping true logged) hsome]
      rfl

/-- Without histories an inner descent starts without one. -/
theorem Course.innerRun_keeping [Scalar α] (c : Course α) :
    (c.keeping traced logged).innerRun = if logged then c.innerRun else c.innerRun.unrecorded := by
  cases logged
  · rfl
  · rfl

/-- It does the same then. -/
theorem refines_descend [Scalar α] {d : Descent m α β}
    (h : Refines (Prod.map Run.unrecorded id) d d) :
    Refines (Prod.map (Course.keeping traced logged) id) (Constrained.descend d)
      (Constrained.descend d) := by
  intro w
  obtain ⟨c, u⟩ := w
  show _ = attempt (Constrained.descend d) (c.keeping traced logged, u)
  rw [attempt_descend, attempt_descend]
  dsimp only
  rw [Course.innerRun_keeping]
  cases logged with
  | true =>
    rw [if_pos rfl]
    rcases attempt d (c.innerRun, u) with ⟨e | b, r, v⟩
    · rfl
    · rfl
  | false =>
    have hinner : _ = attempt d (c.innerRun.unrecorded, u) := h (c.innerRun, u)
    rw [if_neg (Bool.false_ne_true), ← hinner]
    rcases attempt d (c.innerRun, u) with ⟨e | b, r, v⟩
    · rfl
    · rfl

end Parts

/-! ## The constrained solvers -/

section Solvers

variable [Scalar α] {traced logged : Bool}

/-- A gradient descent does the same without a history. -/
theorem GradientDescent.run_unrecorded (s : GradientDescent.Setup m α) (guess : Tensor α) :
    Refines (Prod.map Run.unrecorded id) (GradientDescent.run s guess) (GradientDescent.run s guess) :=
  GradientDescent.run_refines Run.unnoticed_unrecorded (fun _ => .refl _) (fun _ => .refl _) (.refl _)
    s.name s.precision s.settings guess

/-- The end of a round tells the same, whatever records are kept. -/
theorem refines_settle {σ : Type} (tolerance : Tolerance α) (x y : Tensor α) (asked : α → α)
    (notice : α → α → Notice α) (next : σ) :
    Refines (Prod.map (Course.keeping traced logged) id)
      (Constrained.settle (m := m) tolerance x y asked notice next)
      (Constrained.settle (m := m) tolerance x y asked notice next) := by
  unfold Constrained.settle
  split
  · exact .pure _
  · refine .bind (.lift _) fun moved => .bind (.lift _) fun within => ?_
    rcases within with _ | t
    · exact .pure _
    · exact .bind (refines_constrained_notify _) fun _ => .pure _

/-! ### The method of multipliers -/

namespace AugmentedLagrangian

variable {s : Setup m α} (hf : ∀ x, IsQuiet (s.problem.objective.evaluate x))
  (hg : ∀ g ∈ s.problem.constraints, ∀ x, IsQuiet (g.evaluate x))
include hf hg

/-- A snapshot leaves no traces in the world, so it does not matter whether it is taken. -/
theorem isQuiet_snapshot {st : State α} {objective : ScalarFunction m α}
    (h : s.objective st = .ok objective) (x : Tensor α) : IsQuiet (s.snapshot st objective x) := by
  have hobjective : IsQuiet (objective.evaluate x) := by
    intro w
    rw [Problem.attempt_evaluate_augmented h]
    exact Problem.isQuiet_augmentedValue hf hg x w
  exact .bind (hf x) fun _ => .bind (Problem.isQuiet_constraintValues hg x) fun _ =>
    .bind hobjective fun _ => .pure _

/-- A round does the same with and without records, part by part. -/
theorem round_refines (number : Nat) (st : State α) :
    Refines (Prod.map (Course.keeping traced logged) id) (round s number st) (round s number st) := by
  unfold round
  refine .bind_lift fun objective hobjective =>
    .bind (refines_snapshot (isQuiet_snapshot hf hg hobjective _)) fun _ =>
      .bind (refines_descend ?_) fun x =>
        .bind (refines_snapshot (isQuiet_snapshot hf hg hobjective x)) fun _ =>
          .bind (refines_constrained_evaluate _) fun gx => .bind (refines_constrained_evaluate _) fun fx =>
            .bind (refines_constrained_notify _) fun _ => ?_
  · exact .bind (.lift _) fun _ => .bind (.lift _) fun _ => GradientDescent.run_unrecorded _ _
  · exact refines_settle _ st.point x (fun _ => Problem.violationOf gx)
      (fun moved => .multipliersSettled number moved (Problem.violationOf gx)) _

theorem run_refines (guess : Tensor α) :
    Refines (Prod.map (Course.keeping traced logged) id) (run s guess) (run s guess) :=
  .bind (.rounds (round_refines hf hg) _ _ _) fun _ => .bind (refines_conclude _) fun _ => .pure _

end AugmentedLagrangian

/-! ### The barrier method -/

namespace LogBarrier

theorem tellInfeasible_refines (s : Setup m α) (number : Option Nat) (told : Bool) (x : Tensor α) :
    Refines (Prod.map (Course.keeping traced logged) id) (s.tellInfeasible number told x)
      (s.tellInfeasible number told x) := by
  unfold Setup.tellInfeasible
  split
  · exact .pure _
  · refine .bind (refines_constrained_evaluate _) fun gx => ?_
    dsimp only
    split
    · exact .bind (refines_constrained_notify _) fun _ => .pure _
    · exact .pure _

variable {s : Setup m α} (hf : ∀ x, IsQuiet (s.problem.objective.evaluate x))
  (hg : ∀ g ∈ s.problem.constraints, ∀ x, IsQuiet (g.evaluate x))
include hf hg

theorem isQuiet_snapshot (weight : α) (x : Tensor α) : IsQuiet (s.snapshot weight x) := by
  have hbarrier : IsQuiet ((s.problem.barrier s.precision weight).evaluate x) := by
    intro w
    rw [Problem.attempt_evaluate_barrier]
    exact Problem.isQuiet_barrierValue hf hg x w
  exact .bind (Problem.isQuiet_constraintValues hg x) fun _ => .bind (hf x) fun _ =>
    .bind hbarrier fun _ => .pure _

/-- A round does the same with and without records, part by part. -/
theorem round_refines (number : Nat) (st : State α) :
    Refines (Prod.map (Course.keeping traced logged) id) (round s number st) (round s number st) := by
  unfold round
  refine .bind (refines_descend ?_) fun x =>
    .bind (refines_snapshot (isQuiet_snapshot hf hg _ x)) fun _ =>
      .bind (tellInfeasible_refines s _ _ x) fun _ => .bind (refines_constrained_evaluate _) fun fx =>
        .bind (refines_constrained_notify _) fun _ => ?_
  · exact .bind (.lift _) fun _ => GradientDescent.run_unrecorded _ _
  · exact refines_settle _ st.point x id (.barrierSettled number) _

theorem run_refines (guess : Tensor α) :
    Refines (Prod.map (Course.keeping traced logged) id) (run s guess) (run s guess) :=
  .bind (tellInfeasible_refines s _ _ _) fun _ =>
    .bind (refines_snapshot (isQuiet_snapshot hf hg _ _)) fun _ =>
      .bind (.rounds (round_refines hf hg) _ _ _) fun _ => .bind (refines_conclude _) fun _ => .pure _

end LogBarrier

end Solvers

/-! ## All solvers -/

namespace Solver

/-- A constrained solver does the same without records. -/
theorem solve_refines {traced logged : Bool} (s : Solver) (p : Precision) {problem : Problem m Float}
    (hf : ∀ x, IsQuiet (problem.objective.evaluate x))
    (hg : ∀ g ∈ problem.constraints, ∀ x, IsQuiet (g.evaluate x)) (guess : Tensor Float) :
    Refines (Prod.map (Course.keeping traced logged) id) (s.solve p problem guess)
      (s.solve p problem guess) := by
  unfold solve
  cases s.kind with
  | augmentedLagrangian =>
    exact .bind (.lift _) fun _ => .bind (.lift _) fun settings =>
      AugmentedLagrangian.run_refines (s := ⟨p, problem, settings⟩) hf hg guess
  | logBarrier =>
    exact .bind (.lift _) fun _ => .bind (.lift _) fun settings =>
      LogBarrier.run_refines (s := ⟨p, problem, settings⟩) hf hg guess
  | gradientDescent | stochasticDescent | momentDescent =>
    intro w
    rw [attempt_throw, attempt_throw]
    rfl

/-- Recording never influences a solver. A solver of functions, whatever they do, evaluates them at the
same points with a history and without one; it returns the same point or fails in the same way, and
leaves the same world and the same run apart from the history. A constrained solver, for an objective
and constraints that have a value everywhere and leave no trace, returns the same point or fails in the
same way with and without a trace and histories, and it leaves the same report, while what it leaves of
the one record does not depend on the other one. -/
theorem runs_unrecorded :
    (∀ (s : Solver) (p : Precision) (publish : Evaluation m Unit) (loss : Rule m Float)
        (gradient : Field m Float) (guess : Tensor Float) (r : Run Float) (u : ω),
      let o := attempt (s.descend p publish loss gradient guess) (r, u)
      attempt (s.descend p publish loss gradient guess) (r.unrecorded, u)
        = (o.1, o.2.1.unrecorded, o.2.2) ∧
      ∃ visits,
        let noted := s.descend p (publish.beside _) (visiting .loss loss) (visiting .gradient gradient) guess
        attempt noted (r, [], u) = (o.1, o.2.1, visits, o.2.2) ∧
        attempt noted (r.unrecorded, [], u) = (o.1, o.2.1.unrecorded, visits, o.2.2)) ∧
    ∀ (s : Solver) (p : Precision) (problem : Problem m Float) (guess : Tensor Float)
      (c : Course Float) (u : ω),
      (∀ x, IsQuiet (problem.objective.evaluate x)) →
      (∀ g ∈ problem.constraints, ∀ x, IsQuiet (g.evaluate x)) →
      let o := attempt (s.solve p problem guess) (c, u)
      ∀ traced logged, attempt (s.solve p problem guess) (c.keeping traced logged, u)
        = (o.1, o.2.1.keeping traced logged, o.2.2) := by
  refine ⟨fun s p publish loss gradient guess r u => ?_, fun s p problem guess c u hf hg traced logged =>
    (solve_refines s p hf hg guess (c, u)).symm⟩
  dsimp only
  have hunrecorded := descend_projects Run.unnoticed_unrecorded (fun x => Refines.refl (loss x))
    (fun x => Refines.refl (gradient x)) (Refines.refl publish) s p guess (r, u)
  refine ⟨hunrecorded.symm, ?_⟩
  -- With notes it is the same run, and it is not noticed either that the history is missing.
  have hnoted := descend_projects Run.unnoticed_id (visiting_refines .loss loss)
    (visiting_refines .gradient gradient) (beside_refines _ publish) s p guess (r, [], u)
  have hunnoticed := descend_projects Run.unnoticed_unrecorded
    (fun x => Refines.refl (visiting .loss loss x)) (fun x => Refines.refl (visiting .gradient gradient x))
    (Refines.refl (publish.beside (List (Visit Float)))) s p guess (r, [], u)
  change _ = attempt (s.descend p publish loss gradient guess) (r, u) at hnoted
  change _ = attempt _ (r.unrecorded, [], u) at hunnoticed
  rw [← hnoted, ← hunnoticed]
  rcases attempt (s.descend p (publish.beside _) (visiting .loss loss) (visiting .gradient gradient) guess)
    (r, [], u) with ⟨answer, run, visits, v⟩
  exact ⟨visits, rfl, rfl⟩

/-- Both constrained solvers for the square of the norm where the sum of the coordinates is at least one,
and a descent along that square. -/
theorem runs_unrecorded_normSquared :
    let f : Rule Id Float := fun x => pure (.ofNumber x.normSquared)
    let df : Field Id Float := fun x => pure (x.scale Scalar.two)
    let g : ScalarFunction Id Float := .plain (some fun x => pure (.ofNumber (Scalar.one - x.sum)))
    let dg : VectorFunction Id Float := .field (some fun x => pure (x.map fun _ => -Scalar.one))
    let problem : Problem Id Float := ⟨.int 2, .plain (some f), .field (some df), [g], [dg], rfl, rfl⟩
    let guess : Tensor Float := .vector .double [1.0, -2.0]
    let descent : Solver := .ofKind .gradientDescent none none
    let r : Run Float := ⟨⟨0.0, 0.0, 0⟩, some .empty, []⟩
    let c : Course Float := ⟨⟨[], 0.0, 0⟩, some [], some [], []⟩
    ((∀ x, IsQuiet (problem.objective.evaluate x)) ∧
      ∀ h ∈ problem.constraints, ∀ x, IsQuiet (h.evaluate x)) ∧
    (let o := attempt (descent.descend .double (pure ()) f df guess) (r, ())
     attempt (descent.descend .double (pure ()) f df guess) (r.unrecorded, ())
        = (o.1, o.2.1.unrecorded, o.2.2)) ∧
    ∀ kind ∈ [SolverKind.augmentedLagrangian, SolverKind.logBarrier],
      let s : Solver := .ofKind kind none none
      let o := attempt (s.solve .double problem guess) (c, ())
      attempt (s.solve .double problem guess) (c.keeping true false, ())
          = (o.1, o.2.1.keeping true false, o.2.2) ∧
        attempt (s.solve .double problem guess) (c.keeping false true, ())
          = (o.1, o.2.1.keeping false true, o.2.2) := by
  intro f df g dg problem guess descent r c
  have hf : ∀ x, IsQuiet (problem.objective.evaluate x) := fun _ _ => ⟨_, rfl⟩
  have hg : ∀ h ∈ problem.constraints, ∀ x, IsQuiet (h.evaluate x) := by
    intro h hmem x w
    obtain rfl := List.mem_singleton.mp hmem
    exact ⟨_, rfl⟩
  obtain ⟨hdescend, hsolve⟩ := runs_unrecorded (m := Id)
  refine ⟨⟨hf, hg⟩, (hdescend descent .double (pure ()) f df guess r ()).1, fun kind _ => ?_⟩
  have h := hsolve (.ofKind kind none none) .double problem guess c () hf hg
  exact ⟨h true false, h false true⟩

end Solver

end Minimization
