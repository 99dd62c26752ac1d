import Minimization.Descent.Run
import Minimization.Tensor.Reduction

/-!
# Moment descent

Every step follows the decaying mean of the gradients, divided by the square root of the decaying mean
of their squares, both corrected for the time since the start. There is no line search. The descent ends
after a given number of steps, at least one, or after a step that is no longer than a given length.
-/

namespace Minimization

namespace Adam

/-- The numbers that control a descent. -/
structure Settings (α : Type) where
  stepSize : α
  firstDecay : α
  secondDecay : α
  guardTerm : α
  terminationStep : α
  maxSteps : Int

/-- A descent to be run: its loss, its gradient, and what happens before every iteration. -/
structure Setup (m : Type → Type) (α : Type) where
  precision : Precision
  settings : Settings α
  loss : Rule m α
  gradient : Field m α
  before : Evaluation m Unit

/-- The decaying means of the gradients and of their squares. -/
structure Moments (α : Type) where
  first : Tensor α
  second : Tensor α

variable {m : Type → Type} [Monad m] {α : Type} [Scalar α]

/-- The moments before the first iteration: the point times zero. -/
def Moments.start (x : Tensor α) : Moments α := ⟨x.scale Scalar.zero, x.scale Scalar.zero⟩

/-- The moments after another gradient. -/
def Moments.update (s : Settings α) (ms : Moments α) (gradient : Tensor α) :
    Except Failure (Moments α) := do
  let first ← (ms.first.scale s.firstDecay).moveBy (gradient.scale (Scalar.one - s.firstDecay))
  let square ← gradient.multiply gradient
  let second ← (ms.second.scale s.secondDecay).moveBy (square.scale (Scalar.one - s.secondDecay))
  return ⟨first, second⟩

/-- The step size of an iteration, counted from one: corrected for the moments having started at
zero. -/
def correctedStep (s : Settings α) (t : Nat) : Except Failure α := do
  let second ← Scalar.power s.secondDecay t
  let root ← Scalar.squareRoot (Scalar.one - second)
  let first ← Scalar.power s.firstDecay t
  Scalar.divide (s.stepSize * root) (Scalar.one - first)

/-- One over the square root of a second moment, guarded against division by zero. -/
def inverseRoot (s : Settings α) (v : α) : Except Failure α := do
  let root ← Scalar.squareRoot v
  Scalar.divide Scalar.one (root + s.guardTerm)

/-- The step that the moments give, for a corrected step size. -/
def stepOf (p : Precision) (s : Settings α) (ms : Moments α) (size : α) :
    Except Failure (Tensor α) := do
  let second := ms.second.convert p
  let weights ← second.mapM fun v => return Scalar.round second.precision (← inverseRoot s v)
  let direction ← ms.first.multiply weights
  return direction.scale (-size)

/-- One iteration from `x`: the moments after it, the length of the step and the point it leads to. -/
def iteration (s : Setup m α) (t : Nat) (x : Tensor α) (ms : Moments α) :
    Descent m α (Moments α × α × Tensor α) := do
  Descent.evaluate s.before
  let loss ← Descent.evaluate (s.loss.number x)
  let gradient ← Descent.evaluate (s.gradient x)
  checkGradient gradient x
  let ms ← ms.update s.settings gradient
  let size ← correctedStep s.settings t
  let step ← stepOf s.precision s.settings ms size
  Descent.record fun h =>
    (((h.addPosition x.flatten).addLoss loss).addDirection gradient.flatten).addStepSize size
  let x ← x.moveBy step
  Descent.reporting fun r => { r with stepSize := step.norm }
  return (ms, step.norm, x)

/-- Iterates from `x`; the first number counts the iterations that may follow this one, the second the
iterations up to this one. The result is the number of iterations and the point they lead to. -/
def iterate (s : Setup m α) : Nat → (t : Nat) → Tensor α → Moments α → Descent m α (Nat × Tensor α)
  | left, t, x, ms => do
    let (ms, length, x) ← iteration s t x ms
    match left with
    | 0 => return (t, x)
    | left + 1 =>
      if Scalar.le length s.settings.terminationStep then return (t, x)
      iterate s left (t + 1) x ms

/-- The descent from an initial guess. -/
def run (s : Setup m α) (guess : Tensor α) : Descent m α (Tensor α) := do
  let start := guess.convert s.precision
  let (steps, x) ← iterate s (s.settings.maxSteps - 1).toNat 1 start (.start start)
  Descent.reporting fun r => { r with iterations := steps }
  let loss ← Descent.evaluate (s.loss.number x)
  Descent.reporting fun r => { r with loss }
  Descent.record fun h => (h.addPosition x.flatten).addLoss loss
  let report ← (ExceptT.mk (do return .ok (← get).report) : Descent m α (Report α))
  Descent.notify (.momentsEnded steps report.stepSize loss)
  return x

end Adam

end Minimization
