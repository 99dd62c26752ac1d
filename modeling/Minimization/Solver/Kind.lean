import Minimization.Parameters.Tables

/-!
# Kinds of solvers

The five kinds of solvers with their names and the parameters that they start from.
-/

namespace Minimization

/-- The kinds of solvers. -/
inductive SolverKind where
  | gradientDescent
  | stochasticDescent
  | momentDescent
  | augmentedLagrangian
  | logBarrier
  deriving DecidableEq, Repr

namespace SolverKind

/-- All kinds. -/
def all : List SolverKind :=
  [gradientDescent, stochasticDescent, momentDescent, augmentedLagrangian, logBarrier]

/-- The name of a kind. -/
def name : SolverKind → String
  | gradientDescent => "GradientDescent"
  | stochasticDescent => "StochasticGradientDescent"
  | momentDescent => "AdamGradientDescent"
  | augmentedLagrangian => "AugmentedLagrangian"
  | logBarrier => "LogBarrier"

/-- The kind of a name. -/
def named? (name : String) : Option SolverKind := all.find? fun k => k.name == name

/-- The parameters that a solver starts from. -/
def defaults : SolverKind → Parameters
  | gradientDescent => Parameters.gradientDescent
  | stochasticDescent => Parameters.gradientDescent
  | momentDescent => Parameters.adam
  | augmentedLagrangian => Parameters.augmentedLagrangian
  | logBarrier => Parameters.logBarrier

/-- Whether a solver publishes a random number in every iteration. -/
def isStochastic : SolverKind → Bool
  | stochasticDescent => true
  | momentDescent => true
  | _ => false

/-- Whether a solver handles constraints, by descents of an inner solver. -/
def isConstrained : SolverKind → Bool
  | augmentedLagrangian => true
  | logBarrier => true
  | _ => false

end SolverKind

end Minimization
