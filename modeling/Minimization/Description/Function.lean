import Minimization.Description.Bench
import Minimization.Description.Formula
import Minimization.Function.Closed
import Minimization.Objective.Quadratic

/-!
# Functions described by values

An object with a kind describes a function: a formula, a function in closed form, a quadratic, least
squares, or something that is no function at all. A gradient is described in the same way, and may be
estimated from the function beside it.
-/

namespace Minimization

/-- What a description of a scalar function stands for; nothing describes nothing. -/
abbrev DescribedScalar := Option (ScalarCandidate OnBench Float)

/-- What a description of a vector function stands for; nothing describes nothing. -/
abbrev DescribedVector := Option (VectorCandidate OnBench Float)

/-- What is described, as a rule; what is no function cannot be evaluated. -/
def DescribedScalar.rule : DescribedScalar → Rule OnBench Float
  | some (.function f) => f.asRule
  | some (.rule f) => f
  | _ => fun _ => throw .wrongType

/-- What is described, as a field; what is no function cannot be evaluated. -/
def DescribedVector.field : DescribedVector → Field OnBench Float
  | some (.function f) => f.evaluate
  | some (.rule f) => f
  | _ => fun _ => throw .wrongType

/-- What is described, where a scalar function is expected. -/
def DescribedScalar.function (d : DescribedScalar) : Except Failure (ScalarFunction OnBench Float) :=
  ScalarFunction.of (d.getD (.other .null))

/-- What is described, where a vector function is expected. -/
def DescribedVector.function (d : DescribedVector) : Except Failure (VectorFunction OnBench Float) :=
  VectorFunction.of (d.getD (.other .null))

/-- The gradient of its own that a described function has. -/
def DescribedScalar.gradient : DescribedScalar → Except Failure DescribedVector
  | some (.function f) => do return (← f.gradient).map .function
  | _ => .error .noMember

namespace Reading

/-- A described formula as a rule. -/
def rule (v : Value) : Reading (Rule OnBench Float) := do
  return (← Formula.ofValue v).toRule OnBench.surroundings

/-- Described formulas as a field. -/
def components (p : Precision) (v : Value) : Reading (Field OnBench Float) := do
  return Formula.toField OnBench.surroundings p (← v.items.mapM Formula.ofValue)

/-- A part of a description that may be absent. -/
def optional {β : Type} (read : Value → Reading β) (v : Option Value) : Reading (Option β) :=
  match v with
  | none => return none
  | some v => do return some (← read v)

/-- A function, or only its rule if the description asks for that. -/
def plainIfAsked (v : Value) (f : ScalarFunction OnBench Float) : ScalarFunction OnBench Float :=
  if (v.field "plain").asFlag then .plain f.rule? else f

/-- A value in the place of a function; nothing is nothing there as well. -/
def notFunction {β : Type} (v : Value) (other : Value → β) : Option β :=
  if v.isNull then none else some (other v)

/-- A scalar function. -/
def scalar (p : Precision) (v : Value) : Reading DescribedScalar := do
  if v.isNull then return none
  match (v.field "k").asText with
  | "expr" => return some (.rule (← rule (v.field "e")))
  | "scalar" => return some (.function (.plain (← optional rule (v.field? "e"))))
  | "swg" =>
    let e ← optional rule (v.field? "e")
    let g ← optional (components p) (v.field? "g")
    return some (.function (.withGradient e (g.map fun g => .field (some g))))
  | "linear" =>
    return some (.function (.affine p (← Tensor.ofValue (v.field "a")) (← (v.field "c").toReal)))
  | "constant" => return some (.function (.constant (← (v.field "c").toReal)))
  | "quad" =>
    let q ← ShiftedQuadratic.of (← Tensor.ofValue (v.field "B")) (← Tensor.ofValue (v.field "t"))
    return some (.function (plainIfAsked v q.asFunction))
  | "lsq" =>
    let size := (v.field? "batch").getD LeastSquares.defaultBatchSize
    let o ← LeastSquares.of (← Tensor.ofValue (v.field "A")) (← Tensor.ofValue (v.field "b")) size
    let number ← batch
    return some (.function (plainIfAsked v (o.asFunction OnBench.published (OnBench.onBatch number))))
  | "raw" => return notFunction (v.field "v") .other
  | _ => throw .wrongType

/-- The step of a described estimator. -/
def step (v : Value) : Except Failure Float :=
  match v.field? "h" with
  | some h => h.toReal
  | none => .ok Estimator.defaultStep

/-- A vector function beside a scalar function, of which it may be an estimated gradient. -/
def vector (p : Precision) (beside : DescribedScalar) (v : Value) : Reading DescribedVector := do
  if v.isNull then return none
  let estimated (d : Difference) : Reading DescribedVector := do
    return some (.function (.estimated p (← Estimator.make d beside.rule (← step v))))
  match (v.field "k").asText with
  | "exprs" => return some (.rule (← components p (v.field "g")))
  | "vector" =>
    let g ← optional (components p) (v.field? "g")
    return some (.function (.field g))
  | "vconst" => return some (.function (.constant (← Tensor.ofValue (v.field "c"))))
  | "vlinear" =>
    return some (.function (.affine p (← Tensor.ofValue (v.field "T")) (← Tensor.ofValue (v.field "c"))))
  | "numeric" => estimated .forward
  | "central" => estimated .central
  | "raw" => return notFunction (v.field "v") .other
  | _ => throw .wrongType

end Reading

end Minimization
