import Minimization.Proofs.Constrained.Interior
import Minimization.Proofs.Constrained.Rounds
import Minimization.Proofs.Constrained.Scheme
import Minimization.Proofs.Descent.Layout

/-!
# The outer loops of the constrained solvers

Both constrained solvers are schemes, and a round of theirs has two parts: it advances to the next state,
whatever the tolerance is, and then settles whether it is the last one. What a round that advances has
done is read off its parts: `advance_ok`.

The two parts are not apart in the solvers, where a round is one piece. `round_eq` takes it apart, and after
that nothing about the outer loop is specific to a solver: it follows from what is known of schemes.
-/

namespace Minimization

variable {α : Type} [Scalar α]

/-! ## The method of multipliers -/

namespace AugmentedLagrangian

/-- A round up to the question whether it is the last one: the next state, and the values of the
constraints there. -/
def Setup.advance (s : Setup Id α) (number : Nat) (st : State α) :
    Constrained Id α (State α × List α) := do
  let objective ← s.objective st
  Constrained.snapshot (s.snapshot st objective st.point)
  let x ← Constrained.descend (s.descent objective st.point)
  Constrained.snapshot (s.snapshot st objective x)
  let gx ← Constrained.evaluate (s.problem.constraintValues x)
  let fx ← Constrained.evaluate (s.problem.objective.evaluate x)
  Constrained.notify (.multiplierRound number fx (Problem.violationOf gx) st.weight)
  return (⟨x, raised st.multipliers st.weight gx, st.weight * s.settings.growth⟩, gx)

/-- What a round that advances has done, part by part. -/
theorem advance_ok {s : Setup Id α} {number : Nat} {st : State α} {r : State α × List α}
    {c c' : Course α} (h : perform (s.advance number st) c = (.ok r, c')) :
    ∃ objective x gx c₁ c₂ c₃ notice, s.objective st = .ok objective ∧
      perform (Constrained.snapshot (s.snapshot st objective st.point)) c = (.ok (), c₁) ∧
      perform (Constrained.descend (s.descent objective st.point)) c₁ = (.ok x, c₂) ∧
      perform (Constrained.snapshot (s.snapshot st objective x)) c₂ = (.ok (), c₃) ∧
      s.problem.constraintValues x = pure gx ∧ c' = c₃.extend ⟨[], [], [notice]⟩ ∧
      r = (⟨x, raised st.multipliers st.weight gx, st.weight * s.settings.growth⟩, gx) := by
  unfold Setup.advance at h
  simp only [perform_bind_eq_ok, perform_lift_eq_ok, perform_constrained_evaluate_eq_ok,
    perform_constrained_notify_eq_ok, perform_pure_eq_ok] at h
  obtain ⟨objective, _, ⟨hobjective, rfl⟩, _, c₁, hbefore, x, c₂, hx, _, c₃, hafter, gx, _, ⟨hgx, rfl⟩,
    fx, _, ⟨-, rfl⟩, _, _, rfl, rfl, rfl⟩ := h
  exact ⟨objective, x, gx, c₁, c₂, c₃, _, hobjective, hbefore, hx, hafter, hgx, rfl, rfl⟩

/-- A round is its progress, followed by the decision whether it is the last one. Only the latter looks at
the tolerance. -/
theorem round_eq (s : Setup Id α) (number : Nat) (st : State α) :
    round s number st = s.advance number st >>= fun r =>
      Constrained.settle s.settings.tolerance st.point r.1.point (fun _ => Problem.violationOf r.2)
        (fun moved => .multipliersSettled number moved (Problem.violationOf r.2)) r.1 := by
  unfold round Setup.advance
  simp only [bind_assoc, pure_bind]

/-- The scheme of a run from an initial guess. -/
def Setup.scheme (s : Setup Id α) (guess : Tensor α) : Scheme (State α) α where
  opening := do
    checkStart s.problem guess
    return s.start guess
  round := round s
  limit := s.settings.maxRounds.toNat
  point := State.point
  report n st := ⟨st.multipliers, st.weight, n⟩

/-- So a run is that of a scheme, for which stopping early is settled once and for all. -/
theorem minimize_eq_run (s : Setup Id α) (guess : Tensor α) :
    minimize s.precision s.problem (.ok s.settings) guess = (s.scheme guess).run := by
  unfold minimize
  simp only [lift_ok_bind]
  unfold run Scheme.run
  unfold Setup.scheme
  simp only [bind_assoc, pure_bind]
  rfl

end AugmentedLagrangian

/-! ## The barrier method -/

namespace LogBarrier

/-- A round up to the question whether it is the last one. -/
def Setup.advance (s : Setup Id α) (number : Nat) (st : State α) : Constrained Id α (State α) := do
  let x ← Constrained.descend (s.descent st.weight st.point)
  Constrained.snapshot (s.snapshot st.weight x)
  let told ← s.tellInfeasible (some number) st.told x
  let fx ← Constrained.evaluate (s.problem.objective.evaluate x)
  Constrained.notify (.barrierRound number fx st.weight)
  return ⟨x, st.weight * s.settings.decay, told⟩

/-- What a round that advances has done, part by part. -/
theorem advance_ok {s : Setup Id α} {number : Nat} {st next : State α} {c c' : Course α}
    (h : perform (s.advance number st) c = (.ok next, c')) :
    ∃ c₁ c₂ c₃ notice,
      perform (Constrained.descend (s.descent st.weight st.point)) c = (.ok next.point, c₁) ∧
      perform (Constrained.snapshot (s.snapshot st.weight next.point)) c₁ = (.ok (), c₂) ∧
      perform (s.tellInfeasible (some number) st.told next.point) c₂ = (.ok next.told, c₃) ∧
      c' = c₃.extend ⟨[], [], [notice]⟩ ∧ next.weight = st.weight * s.settings.decay := by
  unfold Setup.advance at h
  simp only [perform_bind_eq_ok, perform_constrained_evaluate_eq_ok, perform_constrained_notify_eq_ok,
    perform_pure_eq_ok] at h
  obtain ⟨x, c₁, hx, _, c₂, hafter, told, c₃, htold, fx, _, ⟨-, rfl⟩, _, _, rfl, rfl, rfl⟩ := h
  exact ⟨c₁, c₂, c₃, _, hx, hafter, htold, rfl, rfl⟩

/-- A round is its progress, followed by the decision whether it is the last one. -/
theorem round_eq (s : Setup Id α) (number : Nat) (st : State α) :
    round s number st = s.advance number st >>= fun next =>
      Constrained.settle s.settings.tolerance st.point next.point id (.barrierSettled number) next := by
  unfold round Setup.advance
  simp only [bind_assoc, pure_bind]

/-- The scheme of a run from an initial guess. -/
def Setup.scheme (s : Setup Id α) (guess : Tensor α) : Scheme (State α) α where
  opening := do
    checkStart s.problem guess
    let x := guess.convert s.precision
    let told ← s.tellInfeasible none false x
    Constrained.snapshot (s.snapshot s.settings.initialWeight x)
    return ⟨x, s.settings.initialWeight, told⟩
  round := round s
  limit := s.settings.maxRounds.toNat
  point := State.point
  report n st := ⟨[], st.weight, n⟩

theorem minimize_eq_run (s : Setup Id α) (guess : Tensor α) :
    minimize s.precision s.problem (.ok s.settings) guess = (s.scheme guess).run := by
  unfold minimize
  simp only [lift_ok_bind]
  unfold run Scheme.run
  unfold Setup.scheme
  simp only [bind_assoc, pure_bind]

end LogBarrier

end Minimization
