import Minimization.Parameters.Store

/-!
# Default parameters

The names of all parameters, and the table of defaults that every kind of solver starts from.
-/

namespace Minimization.Parameters

/-- The step size a descent starts with. -/
def initialStep : String := "init_stepsize"
/-- A step no longer than this ends a descent. -/
def terminationStep : String := "termination_stepsize"
/-- The greatest number of steps, or of rounds of a constrained solver. -/
def maxIterations : String := "max_iterations"
/-- The greatest number of shrinks in one line search. -/
def maxShrinks : String := "max_linesearch_iter"
/-- The factor of a step size that is rejected. -/
def shrinkFactor : String := "step_decr"
/-- The factor of a step size that was taken. -/
def growthFactor : String := "step_incr"
/-- The share of the expected decrease that a step has to reach. -/
def sufficientShare : String := "linesearch_factor"
/-- The decay rate of the first moment. -/
def firstDecay : String := "beta1"
/-- The decay rate of the second moment. -/
def secondDecay : String := "beta2"
/-- The guard against division by zero. -/
def guardTerm : String := "epsilon"
/-- The first weight of a penalty or barrier. -/
def initialWeight : String := "mu_init"
/-- The growth factor of a penalty. -/
def weightGrowth : String := "mu_incr"
/-- The decay factor of a barrier. -/
def weightDecay : String := "mu_decr"
/-- The distance of two rounds that ends a constrained solver, if there is one. -/
def roundTolerance : String := "outer_tolerance"

/-- Defaults of gradient descent. -/
def gradientDescent : Parameters :=
  [(shrinkFactor, .real 0.5), (growthFactor, .real 1.2), (initialStep, .real 1.0),
   (terminationStep, .real 1e-8), (sufficientShare, .real 0.01), (maxIterations, .int 100),
   (maxShrinks, .int 20)]

/-- Defaults of moment descent. -/
def adam : Parameters :=
  [(firstDecay, .real 0.9), (secondDecay, .real 0.999), (initialStep, .real 1.0),
   (guardTerm, .real 1e-9), (terminationStep, .real 1e-8), (maxIterations, .int 100)]

/-- Defaults of the method of multipliers. -/
def augmentedLagrangian : Parameters :=
  [(maxIterations, .int 80), (initialWeight, .real 1.0), (weightGrowth, .real 1.01),
   (initialStep, .real 1.0), (roundTolerance, .null)]

/-- Defaults of the barrier method. -/
def logBarrier : Parameters :=
  [(maxIterations, .int 300), (initialWeight, .real 8.0), (weightDecay, .real 0.95),
   (roundTolerance, .null)]

/-- The tables by their names. -/
def tables : Fields Parameters :=
  [("GD_DEFAULTS", gradientDescent), ("ADAM_DEFAULTS", adam),
   ("AUGMENTED_LAGRANGIAN_DEFAULTS", augmentedLagrangian), ("LOG_BARRIER_DEFAULTS", logBarrier)]

end Minimization.Parameters
