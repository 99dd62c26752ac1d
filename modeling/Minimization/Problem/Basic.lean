import Minimization.Function.Basic
import Minimization.Tensor.Access
import Minimization.Value.Arithmetic

/-!
# Constrained problems

Minimize an objective subject to constraints `g x ≤ 0`. A `Problem` has a gradient for its objective and
one for every constraint, and at least one dimension; `Problem.of` refuses anything else. The dimension
is a value as it was configured: it only has to be a number.
-/

namespace Minimization

/-- Minimize `objective` where every constraint is at most zero. -/
structure Problem (m : Type → Type) (α : Type) where
  dimension : Value
  objective : ScalarFunction m α
  gradient : VectorFunction m α
  constraints : List (ScalarFunction m α)
  constraintGradients : List (VectorFunction m α)
  one_le_dimension : dimension.isBelow (.int 1) = .ok false
  length_gradients : constraints.length = constraintGradients.length

/-- One is enough for a dimension. -/
theorem Value.isBelow_one : (Value.int 1).isBelow (.int 1) = .ok false := rfl

namespace Problem

variable {m : Type → Type} {α : Type} [Scalar α]

/-- The problem with the given parts. -/
def of (dimension : Value) (objective : ScalarFunction m α) (gradient : VectorFunction m α)
    (constraints : List (ScalarFunction m α)) (constraintGradients : List (VectorFunction m α)) :
    Except Failure (Problem m α) :=
  match h : dimension.isBelow (.int 1) with
  | .error e => .error e
  | .ok true => .error (.problem (.dimension dimension.display))
  | .ok false =>
    if hl : constraints.length = constraintGradients.length then
      .ok ⟨dimension, objective, gradient, constraints, constraintGradients, h, hl⟩
    else .error (.problem (.unpaired constraints.length constraintGradients.length))

/-- The number of constraints. -/
def constraintCount (p : Problem m α) : Nat := p.constraints.length

/-- Every constraint with its gradient. -/
def constraintPairs (p : Problem m α) : List (ScalarFunction m α × VectorFunction m α) :=
  p.constraints.zip p.constraintGradients

/-- The gradient of the constraint at a position; a negative position counts from the end. -/
def constraintGradientAt (p : Problem m α) (position : Value) : Except Failure (VectorFunction m α) :=
  match position.numeral? with
  | some (.whole i) =>
    match (Tensor.position? p.constraintGradients.length i).bind (p.constraintGradients[·]?) with
    | some g => .ok g
    | none => .error .outOfRange
  | _ => .error .wrongType

variable [Monad m]

/-- The values of the constraints at a vector, in order. -/
def constraintValues (p : Problem m α) (x : Tensor α) : Evaluation m (List α) :=
  p.constraints.mapM fun g => g.evaluate x

/-- The largest of some constraint values where it is positive; zero if there are none. -/
def violationOf (gs : List α) : α :=
  match gs with
  | [] => Scalar.zero
  | gs => Scalar.positivePart (Scalar.largest gs)

/-- How far a vector is from satisfying the constraints. -/
def violation (p : Problem m α) (x : Tensor α) : Evaluation m α := do
  return violationOf (← p.constraintValues x)

end Problem

end Minimization
