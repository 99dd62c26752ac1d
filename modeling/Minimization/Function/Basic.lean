import Minimization.Function.Difference
import Minimization.Tensor.Reduction

/-!
# Functions

A `VectorFunction` maps vectors to vectors: a field, an array that is handed out itself, or a gradient
estimator. A `ScalarFunction` maps vectors to numbers, with or without a gradient of its own. Both may
be declared without a rule; evaluating them then fails.

`ScalarFunction.of` and `VectorFunction.of` accept what stands for a function: a function, a rule, or
some other value, which is refused.
-/

namespace Minimization

variable {m : Type → Type} {α : Type} [Scalar α]

/-- Functions from vectors to vectors. -/
inductive VectorFunction (m : Type → Type) (α : Type) where
  /-- A field; without one there is nothing to evaluate. -/
  | field (rule? : Option (Field m α))
  /-- One array, handed out itself at every vector. -/
  | held (value : Tensor α)
  /-- An estimated gradient, kept with a precision. -/
  | estimated (precision : Precision) (e : Estimator m α)

namespace VectorFunction

/-- The kind of the function in words. -/
def kindName : VectorFunction m α → String
  | field _ => "VectorFunction"
  | held _ => "VectorFunction"
  | estimated _ e =>
    match e.difference with
    | .forward => "NumericGradient"
    | .central => "NumericCentralGradient"

/-- The function after the entry at a place of an array that it handed out has been overwritten: only
an array of its own shows the change. -/
def overwritten (i : Nat) (v : α) : VectorFunction m α → VectorFunction m α
  | held value => held (value.setAt i v)
  | f => f

variable [Monad m]

/-- The value at a vector, and the vector as it is left. -/
def visit (f : VectorFunction m α) (x : Tensor α) : m (Except Failure (Tensor α) × Tensor α) :=
  match f with
  | field none => pure (.error (.noEvaluation "VectorFunction"), x)
  | field (some rule) => do return (← (rule x).run, x)
  | held value => pure (.ok value, x)
  | estimated p e => e.run p x

/-- The value at a vector. -/
def evaluate (f : VectorFunction m α) : Field m α :=
  fun x => ExceptT.mk (do return (← f.visit x).1)

end VectorFunction

/-- Functions from vectors to numbers. -/
inductive ScalarFunction (m : Type → Type) (α : Type) where
  /-- A function without a gradient of its own. -/
  | plain (rule? : Option (Rule m α))
  /-- A function that is meant to have one. -/
  | withGradient (rule? : Option (Rule m α)) (gradient? : Option (VectorFunction m α))

namespace ScalarFunction

/-- The kind of the function in words. -/
def kindName : ScalarFunction m α → String
  | plain _ => "ScalarFunction"
  | withGradient _ _ => "ScalarFunctionWithGradient"

/-- The rule that is evaluated, if there is one. -/
def rule? : ScalarFunction m α → Option (Rule m α)
  | plain rule? => rule?
  | withGradient rule? _ => rule?

/-- The gradient of its own that a function has; a function that is meant to have one and has none is
incomplete. -/
def gradient (f : ScalarFunction m α) : Except Failure (Option (VectorFunction m α)) :=
  match f with
  | plain _ => .ok none
  | withGradient _ (some g) => .ok (some g)
  | withGradient _ none => .error (.noGradient "ScalarFunctionWithGradient")

/-- The function after its gradient has been replaced. -/
def withOwnGradient (f : ScalarFunction m α) (g : VectorFunction m α) : ScalarFunction m α :=
  match f with
  | plain rule? => plain rule?
  | withGradient rule? _ => withGradient rule? (some g)

variable [Monad m]

/-- The value at a vector: what the rule answers, converted to a number. -/
def evaluate (f : ScalarFunction m α) (x : Tensor α) : Evaluation m α :=
  match f.rule? with
  | none => Evaluation.of (.error (.noEvaluation f.kindName))
  | some rule => Rule.number rule x

/-- The function as a rule. -/
def asRule (f : ScalarFunction m α) : Rule m α := fun x => do return .ofNumber (← f.evaluate x)

end ScalarFunction

/-- What may be handed over where a scalar function is expected. -/
inductive ScalarCandidate (m : Type → Type) (α : Type) where
  | function (f : ScalarFunction m α)
  | rule (f : Rule m α)
  | other (v : Value)

/-- What may be handed over where a vector function is expected. -/
inductive VectorCandidate (m : Type → Type) (α : Type) where
  | function (f : VectorFunction m α)
  | rule (f : Field m α)
  | other (v : Value)

/-- A candidate as a scalar function. -/
def ScalarFunction.of : ScalarCandidate m α → Except Failure (ScalarFunction m α)
  | .function f => .ok f
  | .rule f => .ok (.plain (some f))
  | .other v => .error (.notFunction .scalar v.kindName)

/-- A candidate as a vector function. -/
def VectorFunction.of : VectorCandidate m α → Except Failure (VectorFunction m α)
  | .function f => .ok f
  | .rule f => .ok (.field (some f))
  | .other v => .error (.notFunction .vector v.kindName)

end Minimization
