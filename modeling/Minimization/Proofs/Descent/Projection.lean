import Minimization.Proofs.Stateful
import Minimization.Solver.Basic

/-!
# Descents in a larger world

A descent knows the world only through the functions that it evaluates. If these do the same in a
projection of the world as others do, so does the whole descent (`GradientDescent.run_refines`,
`Adam.run_refines`), and so does every solver of functions (`Solver.descend_projects`): functions that
also note something lead to the same run.

Of its own run a descent only reads the report. So it does not notice either if the run is projected to
one with the same report (`Run.Unnoticed`), as long as that makes no difference to what is recorded,
reported and told later. Forgetting the history is such a projection.
-/

namespace Minimization

variable {m m' : Type → Type} [Monad m] [Monad m'] {ω ω' : Type} [Stateful m ω] [Stateful m' ω']
  {π : ω' → ω} {α β : Type}

/-! ## Projections of runs -/

/-- A projection of runs that keeps the report and goes along with every change of a run. -/
structure Run.Unnoticed (ρ : Run α → Run α) : Prop where
  report (r : Run α) : (ρ r).report = r.report
  record (r : Run α) (f : History α → History α) : ρ (r.record f) = (ρ r).record f
  reporting (r : Run α) (f : Report α → Report α) : ρ (r.reporting f) = (ρ r).reporting f
  notify (r : Run α) (n : Notice α) : ρ (r.notify n) = (ρ r).notify n

theorem Run.unnoticed_id : Run.Unnoticed (id : Run α → Run α) :=
  ⟨fun _ => rfl, fun _ _ => rfl, fun _ _ => rfl, fun _ _ => rfl⟩

/-- A run without its history. -/
def Run.unrecorded (r : Run α) : Run α := { r with history := none }

/-- Whether a history is kept is not noticed by a run. -/
theorem Run.unnoticed_unrecorded : Run.Unnoticed (Run.unrecorded : Run α → Run α) :=
  ⟨fun _ => rfl, fun _ _ => rfl, fun _ _ => rfl, fun _ _ => rfl⟩

/-! ## Parts of a descent -/

section Parts

variable {ρ : Run α → Run α}

/-- An evaluation does not look at the run, so it may be seen through any projection of it. -/
theorem refines_evaluate {e' : Evaluation m' β} {e : Evaluation m β} (h : Refines π e' e) :
    Refines (Prod.map ρ π) (Descent.evaluate e') (Descent.evaluate e) := by
  intro w
  rw [attempt_evaluate, attempt_evaluate]
  show _ = ((attempt e (π w.2)).1, _, (attempt e (π w.2)).2)
  rw [← h w.2]
  rfl

variable (hρ : Run.Unnoticed ρ)
include hρ

theorem refines_record (f : History α → History α) :
    Refines (Prod.map ρ π) (Descent.record (m := m') f) (Descent.record (m := m) f) := by
  intro w
  rw [attempt_record, attempt_record]
  show (_, ρ (w.1.record f), _) = (_, (ρ w.1).record f, _)
  rw [hρ.record]
  rfl

theorem refines_reporting (f : Report α → Report α) :
    Refines (Prod.map ρ π) (Descent.reporting (m := m') f) (Descent.reporting (m := m) f) := by
  intro w
  rw [attempt_reporting, attempt_reporting]
  show (_, ρ (w.1.reporting f), _) = (_, (ρ w.1).reporting f, _)
  rw [hρ.reporting]
  rfl

theorem refines_notify (n : Notice α) :
    Refines (Prod.map ρ π) (Descent.notify (m := m') n) (Descent.notify (m := m) n) := by
  intro w
  rw [attempt_notify, attempt_notify]
  show (_, ρ (w.1.notify n), _) = (_, (ρ w.1).notify n, _)
  rw [hρ.notify]
  rfl

/-- What is reported is the same on both sides. -/
theorem refines_report :
    Refines (Prod.map ρ π) (ExceptT.mk (do return .ok (← get).report) : Descent m' α (Report α))
      (ExceptT.mk (do return .ok (← get).report) : Descent m α (Report α)) := by
  intro w
  rw [attempt_report, attempt_report]
  show (Except.ok w.1.report, _) = (Except.ok (ρ w.1).report, _)
  rw [hρ.report]

end Parts

theorem refines_number {f' : Rule m' α} {f : Rule m α} (h : ∀ x, Refines π (f' x) (f x))
    (x : Tensor α) : Refines π (f'.number x) (f.number x) :=
  .bind (h x) fun _ => .lift _

variable [Scalar α] {loss' : Rule m' α} {loss : Rule m α} {gradient' : Field m' α}
  {gradient : Field m α} {before' : Evaluation m' Unit} {before : Evaluation m Unit}
  {ρ : Run α → Run α} (hρ : Run.Unnoticed ρ) (hl : ∀ x, Refines π (loss' x) (loss x))
  (hg : ∀ x, Refines π (gradient' x) (gradient x)) (hb : Refines π before' before)

/-! ## Gradient descent -/

namespace GradientDescent

variable (name : String) (p : Precision) (h : Settings α)

include hρ hl in
/-- A line search is refined trial by trial, by induction on the shrinks that are left. -/
theorem search_refines (x d : Tensor α) (bound : α → α) (left : Nat) : ∀ (a : α) (step : Tensor α),
    Refines (Prod.map ρ π) (search ⟨name, p, h, loss', gradient', before'⟩ x d bound left a step)
      (search ⟨name, p, h, loss, gradient, before⟩ x d bound left a step) := by
  -- By induction on the shrinks that are left.
  induction left with
  | zero =>
    intro a step
    unfold search
    refine .bind (.lift _) fun there => .bind (refines_evaluate (hl there)) fun answer =>
      .bind (.lift _) fun value => ?_
    split
    · exact .pure _
    · exact .pure _
  | succ left ih =>
    intro a step
    unfold search
    refine .bind (.lift _) fun there => .bind (refines_evaluate (hl there)) fun answer =>
      .bind (.lift _) fun value => ?_
    split
    · exact .pure _
    · exact .bind (refines_record hρ _) fun _ => ih _ _

include hρ hl hg hb

theorem iteration_refines (x : Tensor α) (a : α) :
    Refines (Prod.map ρ π) (iteration ⟨name, p, h, loss', gradient', before'⟩ x a)
      (iteration ⟨name, p, h, loss, gradient, before⟩ x a) :=
  .bind (refines_evaluate hb) fun _ => .bind (refines_evaluate (refines_number hl x)) fun _ =>
    .bind (refines_evaluate (hg x)) fun _ => .bind (.lift _) fun _ => .bind (.lift _) fun _ =>
      .bind (refines_record hρ _) fun _ => .bind (.lift _) fun _ =>
        .bind (search_refines hρ hl name p h x _ _ _ _ _) fun _ => .bind (.lift _) fun _ =>
          .bind (refines_reporting hρ _) fun _ => .pure _

/-- The loop of a gradient descent is, by induction on the iterations that may follow. -/
theorem iterate_refines (left : Nat) : ∀ (x : Tensor α) (a : α) (steps exhausted : Nat),
    Refines (Prod.map ρ π) (iterate ⟨name, p, h, loss', gradient', before'⟩ left x a steps exhausted)
      (iterate ⟨name, p, h, loss, gradient, before⟩ left x a steps exhausted) := by
  induction left with
  | zero =>
    intro x a steps exhausted
    unfold iterate
    exact .bind (iteration_refines hρ hl hg hb name p h x a) fun _ => .pure _
  | succ left ih =>
    intro x a steps exhausted
    unfold iterate
    refine .bind (iteration_refines hρ hl hg hb name p h x a) fun _ => ?_
    dsimp only
    split
    · exact .pure _
    · exact ih _ _ _ _

/-- A gradient descent with functions that do the same in a projection of the world. -/
theorem run_refines (guess : Tensor α) :
    Refines (Prod.map ρ π) (run ⟨name, p, h, loss', gradient', before'⟩ guess)
      (run ⟨name, p, h, loss, gradient, before⟩ guess) := by
  refine .bind (iterate_refines hρ hl hg hb name p h _ _ _ _ _) fun ending =>
    .bind (refines_reporting hρ _) fun _ => .bind (refines_evaluate (refines_number hl _)) fun loss =>
      .bind (refines_reporting hρ _) fun _ => .bind (refines_record hρ _) fun _ => ?_
  split
  · exact .bind (refines_notify hρ _) fun _ => .bind (refines_notify hρ _) fun _ => .pure _
  · exact .bind (refines_notify hρ _) fun _ => .pure _

end GradientDescent

/-! ## Moment descent -/

namespace Adam

variable (p : Precision) (h : Settings α)

include hρ hl hg hb

theorem iteration_refines (t : Nat) (x : Tensor α) (ms : Moments α) :
    Refines (Prod.map ρ π) (iteration ⟨p, h, loss', gradient', before'⟩ t x ms)
      (iteration ⟨p, h, loss, gradient, before⟩ t x ms) :=
  .bind (refines_evaluate hb) fun _ => .bind (refines_evaluate (refines_number hl x)) fun _ =>
    .bind (refines_evaluate (hg x)) fun _ => .bind (.lift _) fun _ => .bind (.lift _) fun _ =>
      .bind (.lift _) fun _ => .bind (.lift _) fun _ => .bind (refines_record hρ _) fun _ =>
        .bind (.lift _) fun _ => .bind (refines_reporting hρ _) fun _ => .pure _

/-- So is that of a moment descent. -/
theorem iterate_refines (left : Nat) : ∀ (t : Nat) (x : Tensor α) (ms : Moments α),
    Refines (Prod.map ρ π) (iterate ⟨p, h, loss', gradient', before'⟩ left t x ms)
      (iterate ⟨p, h, loss, gradient, before⟩ left t x ms) := by
  induction left with
  | zero =>
    intro t x ms
    unfold iterate
    exact .bind (iteration_refines hρ hl hg hb p h t x ms) fun _ => .pure _
  | succ left ih =>
    intro t x ms
    unfold iterate
    refine .bind (iteration_refines hρ hl hg hb p h t x ms) fun _ => ?_
    dsimp only
    split
    · exact .pure _
    · exact ih _ _ _

/-- A moment descent with functions that do the same in a projection of the world. -/
theorem run_refines (guess : Tensor α) :
    Refines (Prod.map ρ π) (run ⟨p, h, loss', gradient', before'⟩ guess)
      (run ⟨p, h, loss, gradient, before⟩ guess) :=
  .bind (iterate_refines hρ hl hg hb p h _ _ _ _) fun _ => .bind (refines_reporting hρ _) fun _ =>
    .bind (refines_evaluate (refines_number hl _)) fun _ => .bind (refines_reporting hρ _) fun _ =>
      .bind (refines_record hρ _) fun _ => .bind (refines_report hρ) fun _ =>
        .bind (refines_notify hρ _) fun _ => .pure _

end Adam

/-! ## Solvers -/

/-- A run of a solver with functions that do the same in a projection of the world. -/
theorem Solver.descend_projects {publish' : Evaluation m' Unit} {publish : Evaluation m Unit}
    {loss' : Rule m' Float} {loss : Rule m Float} {gradient' : Field m' Float}
    {gradient : Field m Float} {ρ : Run Float → Run Float} (hρ : Run.Unnoticed ρ)
    (hl : ∀ x, Refines π (loss' x) (loss x)) (hg : ∀ x, Refines π (gradient' x) (gradient x))
    (hb : Refines π publish' publish) (s : Solver) (p : Precision) (guess : Tensor Float) :
    Refines (Prod.map ρ π) (s.descend p publish' loss' gradient' guess)
      (s.descend p publish loss gradient guess) := by
  unfold descend
  cases s.kind with
  | gradientDescent =>
    exact .bind (.lift _) fun _ => .bind (.lift _) fun settings =>
      GradientDescent.run_refines hρ hl hg (.pure _) _ p settings guess
  | stochasticDescent =>
    exact .bind (.lift _) fun _ => .bind (.lift _) fun settings =>
      GradientDescent.run_refines hρ hl hg hb _ p settings guess
  | momentDescent =>
    exact .bind (.lift _) fun _ => .bind (.lift _) fun settings =>
      Adam.run_refines hρ hl hg hb p settings guess
  | augmentedLagrangian | logBarrier =>
    intro w
    rw [attempt_throw, attempt_throw]
    rfl

end Minimization
