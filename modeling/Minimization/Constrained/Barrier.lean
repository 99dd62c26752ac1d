import Minimization.Constrained.Penalty
import Minimization.Constrained.Snapshot
import Minimization.Descent.LineSearch

/-!
# The barrier method

Every round minimizes the objective with a logarithmic barrier by gradient descent from the current
point, then shrinks the weight of the barrier. The run ends after a given number of rounds, or once the
point moves no more than a tolerance. The first point that is not strictly feasible is told of.
-/

namespace Minimization

namespace LogBarrier

/-- The numbers that control a run. Those of the inner descents may be unusable; that shows when the
first one starts. -/
structure Settings (α : Type) where
  maxRounds : Int
  initialWeight : α
  decay : α
  tolerance : Tolerance α
  inner : Except Failure (GradientDescent.Settings α)

variable {m : Type → Type} [Monad m] {α : Type} [Scalar α]

/-- A run to be made: the problem and the numbers that control it. -/
structure Setup (m : Type → Type) (α : Type) where
  precision : Precision
  problem : Problem m α
  settings : Settings α

/-- A round's point and barrier weight, and whether an infeasible point was told of. -/
structure State (α : Type) where
  point : Tensor α
  weight : α
  told : Bool

/-- The multipliers that a barrier weight implies for constraint values. -/
def impliedMultipliers (weight : α) (gs : List α) : List α := gs.map fun g => -weight / g

/-- The snapshot at a point, for a barrier weight. -/
def Setup.snapshot (s : Setup m α) (weight : α) (x : Tensor α) : Evaluation m (Snapshot α) := do
  let gx ← s.problem.constraintValues x
  let fx ← s.problem.objective.evaluate x
  let loss ← (s.problem.barrier s.precision weight).evaluate x
  let multipliers := impliedMultipliers weight gx
  return ⟨x.toVector, fx, .vector .double gx, .vector .double multipliers, loss, weight⟩

/-- Tells of a point that is not strictly feasible, unless one was told of before. -/
def Setup.tellInfeasible (s : Setup m α) (round : Option Nat) (told : Bool) (x : Tensor α) :
    Constrained m α Bool := do
  if told || s.problem.constraints.isEmpty then return told
  let gx ← Constrained.evaluate (s.problem.constraintValues x)
  let largest := Scalar.largest gx
  if Scalar.le Scalar.zero largest then
    Constrained.notify (.infeasible round largest)
    return true
  return false

/-- The inner descent for a barrier weight. -/
def Setup.descent (s : Setup m α) (weight : α) (x : Tensor α) : Descent m α (Tensor α) := do
  let settings ← s.settings.inner
  GradientDescent.run
    ⟨"GradientDescent", s.precision, settings, (s.problem.barrier s.precision weight).asRule,
      s.problem.barrierGradient s.precision weight, pure ()⟩ x

/-- One round, counted from one: the state after it, and whether it is the last one. -/
def round (s : Setup m α) (number : Nat) (st : State α) : Constrained m α (State α × Bool) := do
  let x ← Constrained.descend (s.descent st.weight st.point)
  Constrained.snapshot (s.snapshot st.weight x)
  let told ← s.tellInfeasible (some number) st.told x
  let fx ← Constrained.evaluate (s.problem.objective.evaluate x)
  Constrained.notify (.barrierRound number fx st.weight)
  let next : State α := ⟨x, st.weight * s.settings.decay, told⟩
  Constrained.settle s.settings.tolerance st.point x id (.barrierSettled number) next

/-- The run from an initial guess. -/
def run (s : Setup m α) (guess : Tensor α) : Constrained m α (Tensor α) := do
  let x := guess.convert s.precision
  let told ← s.tellInfeasible none false x
  Constrained.snapshot (s.snapshot s.settings.initialWeight x)
  let start : State α := ⟨x, s.settings.initialWeight, told⟩
  let (made, st) ← Constrained.rounds (round s) s.settings.maxRounds.toNat 0 start
  Constrained.conclude ⟨[], st.weight, made⟩
  return st.point

/-- Minimizes a problem from an initial guess. The guess is looked at before the numbers that control
the run are. -/
def minimize (q : Precision) (p : Problem m α) (settings : Except Failure (Settings α))
    (guess : Tensor α) : Constrained m α (Tensor α) := do
  checkStart p guess
  run ⟨q, p, ← settings⟩ guess

end LogBarrier

end Minimization
