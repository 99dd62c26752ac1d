import Minimization.Constrained.Penalty
import Minimization.Constrained.Snapshot
import Minimization.Descent.LineSearch

/-!
# The method of multipliers

Every round minimizes the augmented objective by gradient descent from the current point, then raises
the multipliers by the violated constraints and grows the penalty weight. The run ends after a given
number of rounds, or once the point moves and violates the constraints no more than a tolerance.
-/

namespace Minimization

namespace AugmentedLagrangian

/-- The numbers that control a run. Those of the inner descents may be unusable; that shows when the
first one starts. -/
structure Settings (α : Type) where
  maxRounds : Int
  initialWeight : α
  growth : α
  tolerance : Tolerance α
  inner : Except Failure (GradientDescent.Settings α)

variable {m : Type → Type} [Monad m] {α : Type} [Scalar α]

/-- A run to be made: the problem and the numbers that control it. -/
structure Setup (m : Type → Type) (α : Type) where
  precision : Precision
  problem : Problem m α
  settings : Settings α

/-- A round's point, multipliers and penalty weight. -/
structure State (α : Type) where
  point : Tensor α
  multipliers : List α
  weight : α

/-- The multipliers as a vector. -/
def State.multiplierVector (s : State α) : Tensor α := .vector .double s.multipliers

/-- Multipliers raised by constraint values, and kept from becoming negative. -/
def raised (multipliers : List α) (weight : α) (gs : List α) : List α :=
  List.zipWith (fun l g => Scalar.max Scalar.zero (l + Scalar.two * weight * g)) multipliers gs

/-- The augmented objective of a state. -/
def Setup.objective (s : Setup m α) (st : State α) : Except Failure (ScalarFunction m α) :=
  s.problem.augmented s.precision st.multiplierVector st.weight

/-- The snapshot at a point, with the multipliers and the weight of a state. -/
def Setup.snapshot (s : Setup m α) (st : State α) (objective : ScalarFunction m α) (x : Tensor α) :
    Evaluation m (Snapshot α) := do
  let fx ← s.problem.objective.evaluate x
  let gx ← s.problem.constraintValues x
  let loss ← objective.evaluate x
  return ⟨x.toVector, fx, .vector .double gx, st.multiplierVector, loss, st.weight⟩

/-- The inner descent of a state. -/
def Setup.descent (s : Setup m α) (objective : ScalarFunction m α) (x : Tensor α) :
    Descent m α (Tensor α) := do
  let gradient ← objective.gradient
  let settings ← s.settings.inner
  let field : Field m α :=
    match gradient with
    | some g => g.evaluate
    | none => fun _ => throw .wrongType
  GradientDescent.run
    ⟨"GradientDescent", s.precision, settings, objective.asRule, field, pure ()⟩ x

/-- One round, counted from one: the state after it, and whether it is the last one. -/
def round (s : Setup m α) (number : Nat) (st : State α) : Constrained m α (State α × Bool) := do
  let objective ← s.objective st
  Constrained.snapshot (s.snapshot st objective st.point)
  let x ← Constrained.descend (s.descent objective st.point)
  Constrained.snapshot (s.snapshot st objective x)
  let gx ← Constrained.evaluate (s.problem.constraintValues x)
  let multipliers := raised st.multipliers st.weight gx
  let fx ← Constrained.evaluate (s.problem.objective.evaluate x)
  let violation := Problem.violationOf gx
  Constrained.notify (.multiplierRound number fx violation st.weight)
  let next : State α := ⟨x, multipliers, st.weight * s.settings.growth⟩
  Constrained.settle s.settings.tolerance st.point x (fun _ => violation)
    (fun moved => .multipliersSettled number moved violation) next

/-- The run from an initial guess. -/
def run (s : Setup m α) (guess : Tensor α) : Constrained m α (Tensor α) := do
  let zeros := s.problem.constraints.map fun _ => Scalar.zero
  let start : State α := ⟨guess.convert s.precision, zeros, s.settings.initialWeight⟩
  let (made, st) ← Constrained.rounds (round s) s.settings.maxRounds.toNat 0 start
  Constrained.conclude ⟨st.multipliers, st.weight, made⟩
  return st.point

/-- Minimizes a problem from an initial guess. The guess is looked at before the numbers that control
the run are. -/
def minimize (q : Precision) (p : Problem m α) (settings : Except Failure (Settings α))
    (guess : Tensor α) : Constrained m α (Tensor α) := do
  checkStart p guess
  run ⟨q, p, ← settings⟩ guess

end AugmentedLagrangian

end Minimization
