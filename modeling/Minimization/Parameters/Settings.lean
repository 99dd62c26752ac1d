import Minimization.Constrained.Barrier
import Minimization.Constrained.Multipliers
import Minimization.Descent.Moments
import Minimization.Parameters.Tables

/-!
# Settings from parameters

What every solver reads from its parameters, in the order in which it reads them: the first parameter
that is no number is the failure. A parameter that is not set has a default of its own here.
-/

namespace Minimization

open Parameters

/-- The settings of gradient descent. -/
def GradientDescent.settingsOf (ps : Parameters) : Except Failure (GradientDescent.Settings Float) := do
  let initialStep ← ps.real initialStep 1.0
  let shrinkFactor ← ps.real shrinkFactor 0.5
  let growthFactor ← ps.real growthFactor 1.2
  let terminationStep ← ps.real terminationStep 1e-8
  let sufficientShare ← ps.real sufficientShare 0.01
  let maxSteps ← ps.whole maxIterations 100
  let maxShrinks ← ps.whole maxShrinks 20
  return { initialStep, shrinkFactor, growthFactor, terminationStep, sufficientShare, maxSteps,
           maxShrinks }

/-- The settings of moment descent. -/
def Adam.settingsOf (ps : Parameters) : Except Failure (Adam.Settings Float) := do
  let stepSize ← ps.real initialStep 1.0
  let firstDecay ← ps.real firstDecay 0.9
  let secondDecay ← ps.real secondDecay 0.999
  let guardTerm ← ps.real guardTerm 1e-9
  let terminationStep ← ps.real terminationStep 1e-8
  let maxSteps ← ps.whole maxIterations 100
  return { stepSize, firstDecay, secondDecay, guardTerm, terminationStep, maxSteps }

/-- A tolerance: nothing, a number, or something that numbers cannot be compared with. -/
def Tolerance.ofValue (v : Value) : Tolerance Float :=
  match v with
  | .null => .none
  | .int n => .upTo (Decimal.nearest (n < 0) n.natAbs 1)
  | v =>
    match v.toOperand with
    | .ok x => .upTo x
    | .error _ => .incomparable

/-- The settings of the method of multipliers. The first step of its inner descents is a parameter of
its own, which is set among theirs. -/
def AugmentedLagrangian.settingsOf (ps : Parameters) (inner : Except Failure Parameters) :
    Except Failure (AugmentedLagrangian.Settings Float) := do
  let maxRounds ← ps.whole maxIterations 80
  let initialWeight ← ps.real initialWeight 1.0
  let growth ← ps.real weightGrowth 1.01
  let tolerance := Tolerance.ofValue (ps.getD roundTolerance .null)
  let inner ← inner
  let step ← ps.real initialStep 1.0
  return { maxRounds, initialWeight, growth, tolerance,
           inner := GradientDescent.settingsOf (Fields.set inner initialStep (.real step)) }

/-- The settings of the barrier method. The parameters of its inner descents are read by these. -/
def LogBarrier.settingsOf (ps : Parameters) (inner : Except Failure Parameters) :
    Except Failure (LogBarrier.Settings Float) := do
  let maxRounds ← ps.whole maxIterations 300
  let initialWeight ← ps.real initialWeight 8.0
  let decay ← ps.real weightDecay 0.95
  let tolerance := Tolerance.ofValue (ps.getD roundTolerance .null)
  return { maxRounds, initialWeight, decay, tolerance,
           inner := do GradientDescent.settingsOf (← inner) }

end Minimization
