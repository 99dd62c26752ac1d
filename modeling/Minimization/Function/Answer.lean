import Minimization.Tensor.Arithmetic
import Minimization.Value.Basic

/-!
# What a rule answers

A `Rule` is anything that can be evaluated at a vector. It may fail, and it may leave traces in `m`
(counting evaluations, drawing a batch). What it answers need not be a number yet: an `Answer` holds
the number that it counts for when it is converted, and the number that it is in arithmetic and
comparisons. The two differ for a text such as `"1.5"`, which converts to a number but cannot be
compared with one.
-/

namespace Minimization

/-- A computation that evaluates functions: it can fail, and it leaves its traces in `m`. -/
abbrev Evaluation (m : Type → Type) (β : Type) := ExceptT Failure m β

/-- An evaluation that settles what is already known. -/
def Evaluation.of {m : Type → Type} [Monad m] {β : Type} (r : Except Failure β) : Evaluation m β :=
  ExceptT.mk (pure r)

instance {m : Type → Type} [Monad m] : MonadLift (Except Failure) (ExceptT Failure m) :=
  ⟨Evaluation.of⟩

/-- What a rule answers, as a number in the two ways it can be used. -/
structure Answer (α : Type) where
  converted : Except Failure α
  operand : Except Failure α

/-- The answer that is a number. -/
def Answer.ofNumber {α : Type} (x : α) : Answer α := ⟨.ok x, .ok x⟩

/-- The answer that is a value: a text converts to a number but does not take part in arithmetic. -/
def Answer.ofValue (v : Value) : Answer Float := ⟨v.toReal, v.toOperand⟩

/-- Anything that can be evaluated at a vector. -/
abbrev Rule (m : Type → Type) (α : Type) := Tensor α → Evaluation m (Answer α)

/-- Anything that gives a vector at a vector. -/
abbrev Field (m : Type → Type) (α : Type) := Tensor α → Evaluation m (Tensor α)

/-- The number that a rule answers when it is converted. -/
def Rule.number {m : Type → Type} [Monad m] {α : Type} (f : Rule m α) (x : Tensor α) :
    Evaluation m α := do
  (← f x).converted

end Minimization
