import Minimization.Problem.Basic

/-!
# Objectives that stand for a constrained problem

`augmented` adds to the objective a multiple of every constraint and a penalty where it is violated;
`barrier` subtracts a multiple of the logarithm of every slack, and is infinite where a constraint is
not strictly satisfied. Both come with their gradients. The gradient of the barrier combines directions
of length one, and outside the strictly feasible set it pushes back along the constraints.
-/

namespace Minimization.Problem

variable {m : Type → Type} [Monad m] {α : Type} [Scalar α]

/-- The terms that constraints with their multipliers add to a value. -/
def addPenalties (weight : α) (x : Tensor α) : α → List (α × ScalarFunction m α) → Evaluation m α
  | acc, [] => pure acc
  | acc, (multiplier, g) :: rest => do
    let gx ← g.evaluate x
    addPenalties weight x (acc + (multiplier * gx + weight * Scalar.positivePart gx * gx)) rest

/-- The terms that constraints with their multipliers add to a gradient, each computed in double
precision; terms of weight zero are left out. -/
def addPenaltyGradients (weight : α) (x : Tensor α) :
    Tensor α → List (α × ScalarFunction m α × VectorFunction m α) → Evaluation m (Tensor α)
  | acc, [] => pure acc
  | acc, (multiplier, g, dg) :: rest => do
    let gx ← g.evaluate x
    let w := multiplier + Scalar.two * weight * Scalar.positivePart gx
    if Scalar.same w Scalar.zero then addPenaltyGradients weight x acc rest
    else do
      let dgx ← dg.evaluate x
      let acc ← acc.addInto ((dgx.convert .double).scale w)
      addPenaltyGradients weight x acc rest

/-- The value of the augmented objective. -/
def augmentedValue (p : Problem m α) (multipliers : List α) (weight : α) (x : Tensor α) :
    Evaluation m α := do
  let fx ← p.objective.evaluate x
  addPenalties weight x fx (multipliers.zip p.constraints)

/-- The gradient of the augmented objective. -/
def augmentedGradient (q : Precision) (p : Problem m α) (multipliers : List α) (weight : α) :
    Field m α := fun x => do
  let dfx ← p.gradient.evaluate x
  addPenaltyGradients weight x (dfx.convert q) (multipliers.zip p.constraintPairs)

/-- The objective augmented by multipliers and a penalty, for one multiplier per constraint. -/
def augmented (q : Precision) (p : Problem m α) (multipliers : Tensor α) (weight : α) :
    Except Failure (ScalarFunction m α) :=
  if multipliers.shape ≠ [p.constraintCount] then
    .error (.size (.multipliers p.constraintCount multipliers.shape))
  else
    .ok (.withGradient
      (some fun x => do return .ofNumber (← p.augmentedValue multipliers.entries weight x))
      (some (.field (some (p.augmentedGradient q multipliers.entries weight)))))

/-- The terms that the slacks of constraints take from a value; infinite from the first constraint on
that is not strictly satisfied. -/
def subtractBarriers (weight : α) (x : Tensor α) : α → List (ScalarFunction m α) → Evaluation m α
  | acc, [] => pure acc
  | acc, g :: rest => do
    let gx ← g.evaluate x
    let slack := -gx
    if Scalar.le slack Scalar.zero then return Scalar.infinity
    let l ← Scalar.logarithm slack
    subtractBarriers weight x (acc - weight * l) rest

/-- The terms that constraints add to the gradient of the barrier. -/
def addBarrierGradients (q : Precision) (weight : α) (x : Tensor α) :
    Tensor α → List (ScalarFunction m α × VectorFunction m α) → Evaluation m (Tensor α)
  | acc, [] => pure acc
  | acc, (g, dg) :: rest => do
    let gx ← g.evaluate x
    let dgx ← dg.evaluate x
    let direction ← dgx.normalize q
    if Scalar.lt gx Scalar.zero then do
      let w ← Scalar.divide weight gx
      let acc ← acc.subInto (direction.scale w)
      addBarrierGradients q weight x acc rest
    else do
      let acc ← acc.addInto (direction.scale (Scalar.one + gx))
      addBarrierGradients q weight x acc rest

/-- The value of the barrier objective. -/
def barrierValue (p : Problem m α) (weight : α) (x : Tensor α) : Evaluation m α := do
  let fx ← p.objective.evaluate x
  subtractBarriers weight x fx p.constraints

/-- The gradient of the barrier objective. -/
def barrierGradient (q : Precision) (p : Problem m α) (weight : α) : Field m α := fun x => do
  let dfx ← p.gradient.evaluate x
  let direction ← dfx.normalize q
  addBarrierGradients q weight x direction p.constraintPairs

/-- The objective with a logarithmic barrier. -/
def barrier (q : Precision) (p : Problem m α) (weight : α) : ScalarFunction m α :=
  .withGradient
    (some fun x => do return .ofNumber (← p.barrierValue weight x))
    (some (.field (some (p.barrierGradient q weight))))

end Minimization.Problem
