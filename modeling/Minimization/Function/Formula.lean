import Minimization.Description.Tensor
import Minimization.Function.Answer
import Minimization.Tensor.Access
import Minimization.Value.Arithmetic

/-!
# Formulas

Objectives and constraints written as expressions over the coordinates of a vector. They are evaluated
among values, where whole numbers stay whole until a float meets them. Operands are evaluated from left
to right and the first failure is the result. A formula can read the number that a stochastic solver has
published, and it can be made to fail at a chosen evaluation; both come from its `Surroundings`.
-/

namespace Minimization

/-- Functions of one number. -/
inductive Elementary where
  | negative
  | absolute
  | squareRoot
  | logarithm
  | exponential
  | sine
  | cosine
  deriving DecidableEq, Repr

/-- The value of an elementary function. The exponential of a finite number has to be finite, and the
circular functions have no value at infinity. -/
def Elementary.apply (f : Elementary) (v : Value) : Except Failure Value :=
  match f with
  | negative => v.neg
  | absolute => v.abs
  | squareRoot => onReal Scalar.squareRoot
  | logarithm => onReal Scalar.logarithm
  | exponential => onReal fun x =>
    let r := x.exp
    if x.isFinite && !r.isFinite then .error .overflow else .ok r
  | sine => onReal fun x => if x.isInf then .error .outsideDomain else .ok x.sin
  | cosine => onReal fun x => if x.isInf then .error .outsideDomain else .ok x.cos
where
  /-- A function of floats at a value. -/
  onReal (f : Float → Except Failure Float) : Except Failure Value := do
    return .real (← f (← v.toOperand))

/-- Expressions over the coordinates of a vector. -/
inductive Formula where
  /-- A value that is answered as it is. -/
  | value (v : Value)
  /-- The coordinate at a position; without one there is no coordinate. -/
  | coordinate (position? : Option Int)
  | sum (first : Formula) (rest : List Formula)
  | product (first : Formula) (rest : List Formula)
  | difference (a b : Formula)
  | quotient (a b : Formula)
  | elementary (f : Elementary) (e : Formula)
  /-- The third formula where the first is below the second, the fourth elsewhere. -/
  | ifBelow (a b c d : Formula)
  /-- The published number modulo another one; minus one before there is any. -/
  | published (modulus : Value)
  /-- The formula, except that one evaluation of this node, counted from one, fails. -/
  | failingAt (node : Nat) (turn : Value) (message : String) (e : Formula)

namespace Formula

/-- What a formula reads besides its vector: the published number, and how often a node has been
evaluated, this time included. -/
structure Surroundings (m : Type → Type) where
  published : m Value
  visit : Nat → m Nat

/-- A number modulo another one as a float, minus one for a value that is none. -/
def residue (v modulus : Value) : Except Failure Value :=
  match v with
  | .null => .ok (.real (-1.0))
  | v => do return .real (← (← v.mod modulus).toReal)

variable {m : Type → Type} [Monad m]

mutual

/-- What the formula answers at a vector. -/
def evaluate (s : Surroundings m) (x : Tensor Float) : Formula → Evaluation m Value
  | value v => pure v
  | coordinate none => throw .outOfRange
  | coordinate (some i) => do return .real (← x.get i)
  | sum e es => do foldFrom s x Value.add (← evaluate s x e) es
  | product e es => do foldFrom s x Value.mul (← evaluate s x e) es
  | difference a b => do
    let a ← evaluate s x a
    a.sub (← evaluate s x b)
  | quotient a b => do
    let a ← evaluate s x a
    a.div (← evaluate s x b)
  | elementary f e => do f.apply (← evaluate s x e)
  | ifBelow a b c d => do
    let a ← evaluate s x a
    let b ← evaluate s x b
    if ← a.isBelow b then evaluate s x c else evaluate s x d
  | published modulus => do residue (← ExceptT.lift s.published) modulus
  | failingAt node turn message e => do
    let count ← ExceptT.lift (s.visit node)
    if (Value.int count).agrees turn then throw (.raised message)
    evaluate s x e

/-- Combines a value with the values of formulas, from left to right. -/
def foldFrom (s : Surroundings m) (x : Tensor Float) (f : Value → Value → Except Failure Value)
    (acc : Value) : List Formula → Evaluation m Value
  | [] => pure acc
  | e :: es => do
    let v ← evaluate s x e
    foldFrom s x f (← f acc v) es

end

/-- A formula as a rule. -/
def toRule (s : Surroundings m) (e : Formula) : Rule m Float :=
  fun x => do return .ofValue (← e.evaluate s x)

/-- Formulas for the components of a field. A component that is nothing is not a number, and components
that are lists nest. -/
def toField (s : Surroundings m) (p : Precision) (es : List Formula) : Field m Float :=
  fun x => do
    let values ← es.mapM fun e => e.evaluate s x
    Tensor.ofNested p (.items (Nested.ofValues Value.toEntry values))

end Formula

end Minimization
