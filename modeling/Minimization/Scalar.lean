import Minimization.Failure

/-!
# Numbers

The functions, arrays and solvers of this library compute over any type of numbers with the operations
of `Scalar`. The class states no laws: with floats the operations round, with exact numbers they do
not, and one definition of an algorithm serves both. What an algorithm compares, it compares with `lt`
and `le`; a number that is not even below itself (`le a a` fails) is not a number.

Operations on arrays never fail. The operations `divide`, `squareRoot`, `logarithm` and `power` on
single numbers do, where the result would not be a number or not a finite one.
-/

namespace Minimization

/-- How precisely the entries of an array are kept. -/
inductive Precision where
  | single
  | double
  deriving DecidableEq, Repr

/-- The finer of two precisions. -/
def Precision.max : Precision → Precision → Precision
  | .single, q => q
  | .double, _ => .double

/-- The numbers that are computed with. -/
class Scalar (α : Type) extends Add α, Sub α, Mul α, Div α, Neg α where
  /-- A natural number. -/
  nat : Nat → α
  /-- The number with the given digits, the last `places` of them after the point. -/
  decimal : (digits places : Nat) → α
  /-- Whether a number is below another one. -/
  lt : α → α → Bool
  /-- Whether a number is below or equal to another one. -/
  le : α → α → Bool
  /-- The square root of a number that is not negative. -/
  sqrt : α → α
  /-- The natural logarithm of a positive number. -/
  log : α → α
  /-- A number to a natural power. -/
  pow : α → Nat → α
  /-- The value of a function outside its domain, above every finite number. -/
  infinity : α
  /-- Whether a number is neither infinite nor undefined. -/
  isFinite : α → Bool
  /-- A number as an array of some precision keeps it. -/
  round : Precision → α → α

namespace Scalar

variable {α : Type} [Scalar α]

/-- The number zero. -/
def zero : α := nat 0

/-- The number one. -/
def one : α := nat 1

/-- The number two. -/
def two : α := nat 2

/-- The number one half. -/
def half : α := decimal 5 1

/-- Whether two numbers are equal. -/
def same (a b : α) : Bool := le a b && le b a

/-- Whether something is not a number. -/
def isUndefined (a : α) : Bool := !le a a

/-- A number where it is positive, zero where it is not, and zero for what is not a number. -/
def positivePart (a : α) : α := if lt zero a then a else zero

/-- The larger of two numbers; not a number if either of them is not one. -/
def max (a b : α) : α := if le b a || isUndefined a then a else b

/-- The largest number of a list; zero for the empty list. -/
def largest : List α → α
  | [] => zero
  | a :: as => as.foldl max a

/-- A quotient; there is none by zero. -/
def divide (a b : α) : Except Failure α :=
  if same b zero then .error .divisionByZero else .ok (a / b)

/-- The square root; a negative number has none. -/
def squareRoot (a : α) : Except Failure α :=
  if lt a zero then .error .outsideDomain else .ok (sqrt a)

/-- The natural logarithm; only positive numbers have one. -/
def logarithm (a : α) : Except Failure α :=
  if le a zero then .error .outsideDomain else .ok (log a)

/-- A natural power; that of a finite number has to be finite. -/
def power (a : α) (n : Nat) : Except Failure α :=
  let r : α := pow a n
  if isFinite a && !isFinite r then .error .overflow else .ok r

end Scalar

/-- Floats in double precision; arrays of single precision keep the nearest single. -/
instance : Scalar Float where
  nat n := Decimal.nearest false n 1
  decimal digits places := Decimal.nearest false digits (Nat.pow 10 places)
  lt a b := a < b
  le a b := a ≤ b
  sqrt := Float.sqrt
  log := Float.log
  pow a n := Float.pow a (Decimal.nearest false n 1)
  infinity := 1.0 / 0.0
  isFinite := Float.isFinite
  round
    | .single, a => a.toFloat32.toFloat
    | .double, a => a

end Minimization
