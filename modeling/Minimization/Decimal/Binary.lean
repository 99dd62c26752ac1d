/-!
# Floats as exact binary numbers

A finite float is `± significand * 2 ^ exponent` with a natural significand. `Parts.ofFloat` reads
these parts off the bit pattern, and `nearest` goes the other way: the float closest to a quotient of
natural numbers, ties to the even significand. Everything the library prints or reads in decimal goes
through the exact numbers of this module, never through float arithmetic.
-/

namespace Minimization.Decimal

/-- What a float stands for: nothing, an infinity, or an exact binary number. -/
inductive Parts where
  | nan
  | infinite (negative : Bool)
  | finite (negative : Bool) (significand : Nat) (exponent : Int)
  deriving Repr, DecidableEq

/-- The smallest exponent of a float, that of the subnormal numbers. -/
def leastExponent : Int := -1074

/-- The parts of a float, from its sign bit, eleven exponent bits and fifty-two fraction bits. -/
def Parts.ofFloat (x : Float) : Parts :=
  let bits := x.toBits.toNat
  let negative := bits / Nat.pow 2 63 == 1
  let field : Nat := bits / Nat.pow 2 52 % Nat.pow 2 11
  let fraction := bits % Nat.pow 2 52
  if field = 2047 then
    if fraction = 0 then .infinite negative else .nan
  else if field = 0 then .finite negative fraction leastExponent
  else .finite negative (Nat.pow 2 52 + fraction) (leastExponent + field - 1)

/-- A quotient rounded to the nearest natural number, a half going to the even neighbour. -/
def roundQuotient (num den : Nat) : Nat :=
  let q := num / den
  let r := num % den
  if 2 * r < den then q
  else if den < 2 * r then q + 1
  else if q % 2 = 0 then q
  else q + 1

/-- `num / den * base ^ power` as a pair of natural numbers. -/
def scaleBy (base : Nat) (num den : Nat) (power : Int) : Nat × Nat :=
  if 0 ≤ power then (num * Nat.pow base power.toNat, den) else (num, den * Nat.pow base (-power).toNat)

/-- The magnitude `significand * 2 ^ exponent` as a quotient of natural numbers. -/
def magnitude (significand : Nat) (exponent : Int) : Nat × Nat :=
  scaleBy 2 significand 1 exponent

/-- The bit pattern of the float nearest to `num / den`, without its sign. The significand is rounded
at the exponent that gives it fifty-three bits, or at the least exponent; a significand that rounds up
to the next power of two carries into the exponent field by itself. -/
def nearestBits (num den : Nat) : Nat :=
  if num = 0 then 0
  else
    let guess : Int := (Nat.log2 num : Int) - Nat.log2 den - 53
    let fits (e : Int) : Bool :=
      let (n, d) := scaleBy 2 num den (-e)
      n < d * Nat.pow 2 53
    let tight : Int := if fits guess then guess else guess + 1
    let e := if tight < leastExponent then leastExponent else tight
    let (n, d) := scaleBy 2 num den (-e)
    let m := roundQuotient n d
    let bits := (e - leastExponent).toNat * Nat.pow 2 52 + m
    min bits (2047 * Nat.pow 2 52)

/-- The float nearest to `± num / den`, ties to even; beyond the largest float it is an infinity. -/
def nearest (negative : Bool) (num den : Nat) : Float :=
  let bits := nearestBits num den
  Float.ofBits (if negative then Nat.pow 2 63 + bits else bits).toUInt64

/-- The float nearest to `± digits * 10 ^ power`. Powers far outside the range of floats are settled
by the count of digits, without computing the power. -/
def ofDigits (negative : Bool) (digits : Nat) (power : Int) : Float :=
  let top : Int := (Nat.log2 digits : Int) * 30103 / 100000 + power
  if digits = 0 then nearest negative 0 1
  else if 400 < top then nearest negative (Nat.pow 2 1024) 1
  else if top < -400 then nearest negative 0 1
  else
    let (n, d) := scaleBy 10 digits 1 power
    nearest negative n d

end Minimization.Decimal
