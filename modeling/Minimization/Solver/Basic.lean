import Minimization.Parameters.Settings
import Minimization.Solver.Kind

/-!
# Solvers

A `Solver` is a kind with its parameters and those of its inner descents. `Solver.descend` minimizes a
function, `Solver.solve` a constrained problem. The parameters are read when a run starts, so one that
is no number is a failure of the run.
-/

namespace Minimization

/-- The parameters that a solver holds: a store of them, or another value in its place. -/
inductive Holding where
  | store (ps : Parameters)
  | plain (v : Value)

namespace Holding

/-- The parameters that are held. Another value cannot be asked for any. -/
def read : Holding → Except Failure Parameters
  | store ps => .ok ps
  | plain _ => .error .noMember

/-- What is held on one line. -/
def render : Holding → String
  | store ps => ps.render
  | plain v => v.render

end Holding

/-- A kind of solver with its parameters, and those of its inner descents. -/
structure Solver where
  kind : SolverKind
  parameters : Holding
  inner : Holding

namespace Solver

/-- A solver with given parameters, or those it starts from. -/
def ofKind (kind : SolverKind) (parameters inner : Option Parameters) : Solver :=
  ⟨kind, .store (parameters.getD kind.defaults), .store (inner.getD Parameters.gradientDescent)⟩

variable {m : Type → Type} [Monad m]

/-- Minimizes a function from an initial guess. Stochastic solvers run `publish` in every iteration. A
solver for constrained problems cannot be handed a function. -/
def descend (s : Solver) (p : Precision) (publish : Evaluation m Unit) (loss : Rule m Float)
    (gradient : Field m Float) (guess : Tensor Float) : Descent m Float (Tensor Float) := do
  match s.kind with
  | .gradientDescent =>
    let settings ← GradientDescent.settingsOf (← s.parameters.read)
    GradientDescent.run ⟨s.kind.name, p, settings, loss, gradient, pure ()⟩ guess
  | .stochasticDescent =>
    let settings ← GradientDescent.settingsOf (← s.parameters.read)
    GradientDescent.run ⟨s.kind.name, p, settings, loss, gradient, publish⟩ guess
  | .momentDescent =>
    let settings ← Adam.settingsOf (← s.parameters.read)
    Adam.run ⟨p, settings, loss, gradient, publish⟩ guess
  | _ => throw .noMember

/-- Minimizes a constrained problem from an initial guess. A solver for functions cannot be handed a
problem. -/
def solve (s : Solver) (p : Precision) (problem : Problem m Float) (guess : Tensor Float) :
    Constrained m Float (Tensor Float) := do
  match s.kind with
  | .augmentedLagrangian =>
    AugmentedLagrangian.minimize p problem
      (do AugmentedLagrangian.settingsOf (← s.parameters.read) s.inner.read) guess
  | .logBarrier =>
    LogBarrier.minimize p problem
      (do LogBarrier.settingsOf (← s.parameters.read) s.inner.read) guess
  | _ => throw .noMember

end Solver

end Minimization
