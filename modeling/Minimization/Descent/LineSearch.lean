import Minimization.Descent.Run
import Minimization.Tensor.Reduction

/-!
# Gradient descent with a line search

Every step goes along the normalized negative gradient. Its size is shrunk until the loss decreases by
a share of what the slope promises, at most a given number of times; then the last trial is taken
nevertheless. The size of a step that was taken, grown by a factor, is the first trial of the next one.
The descent ends after a given number of steps, at least one, or after a step that is no longer than a
given length.

`before` runs at the start of every iteration, before the loss and the gradient are evaluated.
-/

namespace Minimization

namespace GradientDescent

/-- The numbers that control a descent. -/
structure Settings (α : Type) where
  initialStep : α
  shrinkFactor : α
  growthFactor : α
  terminationStep : α
  sufficientShare : α
  maxSteps : Int
  maxShrinks : Int

/-- A descent to be run: its loss, its gradient, and what happens before every iteration. -/
structure Setup (m : Type → Type) (α : Type) where
  name : String
  precision : Precision
  settings : Settings α
  loss : Rule m α
  gradient : Field m α
  before : Evaluation m Unit

/-- The step that a line search ends with. -/
structure Trial (α : Type) where
  stepSize : α
  step : Tensor α
  exhausted : Bool

variable {m : Type → Type} [Monad m] {α : Type} [Scalar α]

/-- Shrinks a step from `x` along `d` until the loss there is not above `bound` of its size. The number
counts the shrinks that are left. -/
def search (s : Setup m α) (x d : Tensor α) (bound : α → α) :
    Nat → α → Tensor α → Descent m α (Trial α)
  | left, a, step => do
    let there ← x.moveBy step
    let answer ← Descent.evaluate (s.loss there)
    let value ← answer.operand
    if !Scalar.lt (bound a) value then return ⟨a, step, false⟩
    match left with
    | 0 => return ⟨a, step, true⟩
    | left + 1 =>
      let a := a * s.settings.shrinkFactor
      Descent.record (·.addStepSize a)
      search s x d bound left a (d.scale a)

/-- One iteration from `x` with the first trial size `a`: the trial that was taken and the point it
leads to. -/
def iteration (s : Setup m α) (x : Tensor α) (a : α) : Descent m α (Trial α × Tensor α) := do
  Descent.evaluate s.before
  let loss ← Descent.evaluate (s.loss.number x)
  let gradient ← Descent.evaluate (s.gradient x)
  checkGradient gradient x
  let d ← (gradient.scale (-Scalar.one)).normalizeAbove Tensor.negligible
  Descent.record fun h => (((h.addPosition x.flatten).addLoss loss).addDirection d.flatten).addStepSize a
  let slope ← gradient.inner d
  let bound (a : α) : α := loss + s.settings.sufficientShare * a * slope
  let trial ← search s x d bound s.settings.maxShrinks.toNat a (d.scale a)
  let x ← x.moveBy trial.step
  Descent.reporting fun r => { r with stepSize := trial.stepSize }
  return (trial, x)

/-- How a descent ended. -/
structure Ending (α : Type) where
  point : Tensor α
  reason : StopReason
  steps : Nat
  exhausted : Nat

/-- Iterates from `x`; the number counts the iterations that may follow this one. -/
def iterate (s : Setup m α) : Nat → Tensor α → α → (steps exhausted : Nat) → Descent m α (Ending α)
  | left, x, a, steps, exhausted => do
    let (trial, x) ← iteration s x a
    let exhausted := if trial.exhausted then exhausted + 1 else exhausted
    match left with
    | 0 => return ⟨x, .maxIterations, steps + 1, exhausted⟩
    | left + 1 =>
      if Scalar.le trial.step.norm s.settings.terminationStep then
        return ⟨x, .smallStep, steps + 1, exhausted⟩
      iterate s left x (trial.stepSize * s.settings.growthFactor) (steps + 1) exhausted

/-- The descent from an initial guess. -/
def run (s : Setup m α) (guess : Tensor α) : Descent m α (Tensor α) := do
  let start := guess.convert s.precision
  let ending ← iterate s (s.settings.maxSteps - 1).toNat start s.settings.initialStep 0 0
  Descent.reporting fun r => { r with iterations := ending.steps }
  let loss ← Descent.evaluate (s.loss.number ending.point)
  Descent.reporting fun r => { r with loss }
  Descent.record fun h => (h.addPosition ending.point.flatten).addLoss loss
  if ending.exhausted ≠ 0 then
    Descent.notify (.exhaustedSearches s.settings.maxShrinks ending.exhausted ending.steps)
  Descent.notify (.descentEnded s.name ending.reason ending.steps loss)
  return ending.point

end GradientDescent

end Minimization
