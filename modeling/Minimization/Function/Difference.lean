import Minimization.Function.Answer
import Minimization.Tensor.Access

/-!
# Gradients by finite differences

The vector is changed in place, one coordinate at a time, and the function is evaluated there; every
coordinate is put back before the next one is changed, also when an evaluation fails. Forward
differences compare with the value at the vector itself, central differences compare the two sides.
-/

namespace Minimization

/-- How a derivative is estimated. -/
inductive Difference where
  | forward
  | central
  deriving DecidableEq, Repr

/-- A computation on a working vector: a failure keeps the vector as it was left. -/
abbrev Perturbing (m : Type → Type) (α β : Type) := ExceptT Failure (StateT (Tensor α) m) β

namespace Perturbing

variable {m : Type → Type} [Monad m] {α β : Type} [Scalar α]

/-- The working vector. -/
def vector : Perturbing m α (Tensor α) := ExceptT.mk (do return .ok (← get))

/-- Changes one coordinate of the working vector. -/
def change (i : Nat) (v : α) : Perturbing m α Unit :=
  ExceptT.mk (do modify (·.setAt i v); return .ok ())

/-- The value of a rule at the working vector. -/
def valueOf (f : Rule m α) : Perturbing m α (Answer α) :=
  ExceptT.mk (do let x ← get; (f x).run)

/-- A computation after which a coordinate is put back, whether it failed or not. -/
def restoring (i : Nat) (v : α) (c : Perturbing m α β) : Perturbing m α β :=
  ExceptT.mk (do
    let r ← c.run
    modify (·.setAt i v)
    return r)

end Perturbing

/-- A gradient estimator: how it estimates, of which rule, with which step. -/
structure Estimator (m : Type → Type) (α : Type) where
  difference : Difference
  rule : Rule m α
  step : α

namespace Estimator

open Perturbing

variable {m : Type → Type} {α : Type} [Scalar α]

/-- The step of estimators that are not given one. -/
def defaultStep : α := Scalar.decimal 1 4

/-- An estimator with a given step, if the step is not zero or below. -/
def of? (d : Difference) (f : Rule m α) (step : α) : Option (Estimator m α) :=
  if Scalar.le step Scalar.zero then none else some ⟨d, f, step⟩

/-- The estimator of central differences with the same rule and step. -/
def toCentral (e : Estimator m α) : Estimator m α := { e with difference := .central }

variable [Monad m]

/-- One component by the difference to the value at the vector itself. -/
def forwardComponent (e : Estimator m α) (here : Answer α) (i : Nat) (v : α) :
    Perturbing m α α := do
  change i (v + e.step)
  let plus ← restoring i v (valueOf e.rule)
  let plus ← plus.operand
  let here ← here.operand
  return (plus - here) / e.step

/-- One component by the difference of the values on both sides. -/
def centralComponent (e : Estimator m α) (i : Nat) (v : α) : Perturbing m α α := do
  let (plus, minus) ← restoring i v (do
    change i (v + e.step)
    let plus ← valueOf e.rule
    change i (v - e.step)
    return (plus, ← valueOf e.rule))
  let plus ← plus.operand
  let minus ← minus.operand
  return (plus - minus) * (Scalar.half / e.step)

/-- The estimated gradient at the working vector, as a vector kept with precision `p`. -/
def components (p : Precision) (e : Estimator m α) : Perturbing m α (Tensor α) := do
  let x ← vector
  let coordinates := x.entries.zipIdx
  match e.difference with
  | .forward =>
    let here ← valueOf e.rule
    return .vector p (← coordinates.mapM fun (v, i) => e.forwardComponent here i v)
  | .central =>
    return .vector p (← coordinates.mapM fun (v, i) => e.centralComponent i v)

/-- The estimated gradient at a vector, and the vector as it is left. -/
def run (p : Precision) (e : Estimator m α) (x : Tensor α) :
    m (Except Failure (Tensor α) × Tensor α) :=
  (components p e).run.run x

end Estimator

/-- An estimator of floats with a given step. -/
def Estimator.make {m : Type → Type} (d : Difference) (f : Rule m Float) (step : Float) :
    Except Failure (Estimator m Float) :=
  match Estimator.of? d f step with
  | some e => .ok e
  | none => .error (.argument (.differenceStep step))

end Minimization
