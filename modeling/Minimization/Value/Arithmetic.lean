import Minimization.Scalar
import Minimization.Value.Printer

/-!
# Arithmetic on values

Sums, differences, products, quotients, remainders and comparisons of values. Whole numbers and truth
values are computed with exactly; as soon as a float takes part, all numbers are floats. Two texts or
two lists can be joined and compared, and a whole number repeats a text or a list. Everything else is
refused.
-/

namespace Minimization

/-- A number among the values: a whole one, of any size, or a float. -/
inductive Numeral where
  | whole (n : Int)
  | real (x : Float)

/-- A number as a float; a whole number beyond the range of floats is refused. -/
def Numeral.toReal : Numeral → Except Failure Float
  | whole n => Value.realOfInt n
  | real x => .ok x

/-- A whole number below a float. -/
def Numeral.wholeBelow (n : Int) (x : Float) : Bool :=
  match Decimal.Parts.ofFloat x with
  | .nan => false
  | .infinite negative => !negative
  | .finite negative m e =>
    let (num, den) := Decimal.magnitude m e
    n * den < Decimal.signed negative num

/-- A float below a whole number. -/
def Numeral.belowWhole (x : Float) (n : Int) : Bool :=
  match Decimal.Parts.ofFloat x with
  | .nan => false
  | .infinite negative => negative
  | .finite negative m e =>
    let (num, den) := Decimal.magnitude m e
    Decimal.signed negative num < n * den

/-- Whether a number is below another one; nothing is rounded for it. -/
def Numeral.isBelow : Numeral → Numeral → Bool
  | whole a, whole b => a < b
  | whole a, real y => wholeBelow a y
  | real x, whole b => belowWhole x b
  | real x, real y => x < y

/-- What is left of a float after the multiples of another one toward zero. There are no multiples of
infinity, and infinity leaves nothing. -/
def Numeral.realRemainder (x y : Float) : Float :=
  match Decimal.Parts.ofFloat x, Decimal.Parts.ofFloat y with
  | .finite negative m e, .finite _ m' e' =>
    if m' = 0 then 0.0 / 0.0
    else
      let least := min e e'
      let a := m * Nat.pow 2 (e - least).toNat
      let b := m' * Nat.pow 2 (e' - least).toNat
      let (num, den) := Decimal.magnitude (a % b) least
      Decimal.nearest negative num den
  | .finite _ _ _, .infinite _ => x
  | _, _ => 0.0 / 0.0

/-- The remainder of floats that has the sign of the divisor. -/
def Numeral.realModulo (x y : Float) : Float :=
  let r := realRemainder x y
  if r == 0.0 then (if y < 0.0 then -0.0 else 0.0)
  else if (y < 0.0) != (r < 0.0) then r + y
  else r

namespace Value

/-- The number that a value is. A text is none. -/
def numeral? : Value → Option Numeral
  | bool b => some (.whole (bit b))
  | int n => some (.whole n)
  | real x => some (.real x)
  | _ => none

/-- Two numbers through an operation: exactly where both are whole, as floats elsewhere. -/
def numeric (onWhole : Int → Int → Except Failure Value) (onReal : Float → Float → Except Failure Float)
    (a b : Value) : Except Failure Value :=
  match a.numeral?, b.numeral? with
  | some (.whole m), some (.whole n) => onWhole m n
  | some x, some y => do return .real (← onReal (← x.toReal) (← y.toReal))
  | _, _ => .error .wrongType

/-- The largest number of times that something is repeated. -/
def mostRepeats : Nat := Nat.pow 2 63 - 1

/-- The largest number of items or characters that a repetition holds. -/
def longestRepetition : Nat := Nat.pow 2 28

/-- How often `size` items can be repeated: never less than zero times, and not too often. -/
def repeats (n : Int) (size : Nat) : Except Failure Nat :=
  if mostRepeats < n.natAbs then .error .overflow
  else if longestRepetition < n.toNat * size then .error .noMemory
  else .ok (if size = 0 then 0 else n.toNat)

/-- The sum of two values: of numbers, or two texts or two lists joined. -/
def add : Value → Value → Except Failure Value
  | text a, text b => .ok (.text (a ++ b))
  | list as, list bs => .ok (.list (as ++ bs))
  | a, b => numeric (fun m n => .ok (.int (m + n))) (fun x y => .ok (x + y)) a b

/-- The difference of two numbers. -/
def sub : Value → Value → Except Failure Value :=
  numeric (fun m n => .ok (.int (m - n))) (fun x y => .ok (x - y))

/-- A text or a list, repeated as often as a number says, which has to be whole. -/
def repeated (v count : Value) : Except Failure Value :=
  match v, count.numeral? with
  | text s, some (.whole n) => do
    return .text (String.join (List.replicate (← repeats n s.length) s))
  | list vs, some (.whole n) => do
    return .list (List.replicate (← repeats n vs.length) vs).flatten
  | _, _ => .error .wrongType

/-- Whether a value can be repeated. -/
def isRepeatable : Value → Bool
  | text _ => true
  | list _ => true
  | _ => false

/-- The product of two values: of numbers, or of a number and what it repeats. -/
def mul (a b : Value) : Except Failure Value :=
  if a.isRepeatable then a.repeated b
  else if b.isRepeatable then b.repeated a
  else numeric (fun m n => .ok (.int (m * n))) (fun x y => .ok (x * y)) a b

/-- The quotient of two whole numbers, rounded once. -/
def wholeQuotient (m n : Int) : Except Failure Value :=
  if n = 0 then .error .divisionByZero
  else
    let x := Decimal.nearest ((m < 0) != (n < 0)) m.natAbs n.natAbs
    if x.isInf then .error .overflow else .ok (.real x)

/-- The quotient of two numbers, always a float. -/
def div : Value → Value → Except Failure Value := numeric wholeQuotient Scalar.divide

/-- The remainder of two numbers that has the sign of the divisor. -/
def mod : Value → Value → Except Failure Value :=
  numeric (fun m n => if n = 0 then .error .divisionByZero else .ok (.int (m.fmod n)))
    (fun x y => if y == 0.0 then .error .divisionByZero else .ok (Numeral.realModulo x y))

/-- A number with the other sign. -/
def neg (v : Value) : Except Failure Value :=
  match v.numeral? with
  | some (.whole n) => .ok (.int (-n))
  | some (.real x) => .ok (.real (-x))
  | none => .error .wrongType

/-- A number without its sign. -/
def abs (v : Value) : Except Failure Value :=
  match v.numeral? with
  | some (.whole n) => .ok (.int n.natAbs)
  | some (.real x) => .ok (.real x.abs)
  | none => .error .wrongType

mutual

/-- Whether a value is below another one: a number, a text by its characters, or a list by the first
item that differs. -/
def isBelow : Value → Value → Except Failure Bool
  | text a, text b => .ok (a < b)
  | list as, list bs => itemsAreBelow as bs
  | a, b =>
    match a.numeral?, b.numeral? with
    | some x, some y => .ok (x.isBelow y)
    | _, _ => .error .wrongType

/-- Whether some items are below others: the first that differ decide, and fewer are below more. -/
def itemsAreBelow : List Value → List Value → Except Failure Bool
  | _, [] => .ok false
  | [], _ :: _ => .ok true
  | a :: as, b :: bs =>
    if a.agrees b || a.areUndefined b then itemsAreBelow as bs else a.isBelow b

end

/-- Whether a value is below another one or counts for the same. -/
def isAtMost (a b : Value) : Except Failure Bool := do
  if ← a.isBelow b then return true else return a.agrees b

/-- A count that has to be at least one; `failure` words the refusal of a smaller one. -/
def atLeastOne (v : Value) (failure : String → Failure) : Except Failure Unit := do
  if ← v.isBelow (.int 1) then throw (failure v.display)

end Value

end Minimization
