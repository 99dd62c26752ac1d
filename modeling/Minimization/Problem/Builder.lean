import Minimization.Problem.Basic

/-!
# Putting a problem together

A `Builder` collects an objective and constraints. A function comes with a gradient given beside it,
else with its own, else with one estimated by forward differences. The function is stored before its
gradient is looked for, so a call that finds no gradient leaves the function behind.
-/

namespace Minimization

/-- A problem in the making. -/
structure Builder (m : Type → Type) (α : Type) where
  dimension : Value
  precision : Precision
  objective : Option (ScalarFunction m α)
  gradient : Option (VectorFunction m α)
  constraints : List (ScalarFunction m α)
  constraintGradients : List (VectorFunction m α)

namespace Builder

variable {m : Type → Type} {α : Type} [Scalar α]

/-- A builder without an objective or constraints; estimated gradients are kept with the given
precision. -/
def start (dimension : Value) (p : Precision) : Builder m α :=
  ⟨dimension, p, none, none, [], []⟩

variable [Monad m]

/-- The gradient of a function: the one given, its own, or an estimated one. -/
def gradientOf (b : Builder m α) (f : ScalarFunction m α) (given : Option (VectorCandidate m α)) :
    Except Failure (VectorFunction m α) :=
  match given with
  | some candidate => VectorFunction.of candidate
  | none => do
    match ← f.gradient with
    | some g => return g
    | none => return .estimated b.precision ⟨.forward, f.asRule, Estimator.defaultStep⟩

/-- Sets the objective. -/
def setObjective (b : Builder m α) (f : Option (ScalarCandidate m α))
    (given : Option (VectorCandidate m α)) : Except Failure Unit × Builder m α :=
  match f with
  | none => (.error (.problem .absentObjective), b)
  | some candidate =>
    match ScalarFunction.of candidate with
    | .error e => (.error e, b)
    | .ok f =>
      let b := { b with objective := some f }
      match b.gradientOf f given with
      | .error e => (.error e, b)
      | .ok g => (.ok (), { b with gradient := some g })

/-- Adds a constraint. -/
def addConstraint (b : Builder m α) (f : Option (ScalarCandidate m α))
    (given : Option (VectorCandidate m α)) : Except Failure Unit × Builder m α :=
  match f with
  | none => (.error (.problem .absentConstraint), b)
  | some candidate =>
    match ScalarFunction.of candidate with
    | .error e => (.error e, b)
    | .ok f =>
      let b := { b with constraints := b.constraints ++ [f] }
      match b.gradientOf f given with
      | .error e => (.error e, b)
      | .ok g => (.ok (), { b with constraintGradients := b.constraintGradients ++ [g] })

/-- The problem. -/
def build (b : Builder m α) : Except Failure (Problem m α) :=
  match b.objective, b.gradient with
  | some f, some df => Problem.of b.dimension f df b.constraints b.constraintGradients
  | _, _ => .error (.problem .noObjective)

end Builder

end Minimization
