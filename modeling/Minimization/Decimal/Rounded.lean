import Minimization.Decimal.Binary

/-!
# Decimal text with a given number of digits

Three forms of one float: `scientific` (one digit, point, fixed number of places, exponent of at least
two digits), `fixed` (fixed number of places) and `general` (given number of significant digits,
positional unless the exponent is below -4 or reaches the number of digits, trailing zeros removed).
The exact binary value is rounded, ties to the even digit.
-/

namespace Minimization.Decimal

/-- Whether `10 ^ power ≤ num / den`. -/
def reachesPower (num den : Nat) (power : Int) : Bool :=
  let (n, d) := scaleBy 10 1 1 power
  n * den ≤ num * d

/-- The largest power of ten below `num / den`, for a positive quotient. The binary lengths give a
guess that is at most four too small. -/
def leadingPower (num den : Nat) : Int :=
  let guess := ((Nat.log2 num : Int) - Nat.log2 den - 1) * 30103 / 100000 - 1
  climb 5 guess
where
  /-- Steps up while the next power is still reached. -/
  climb : Nat → Int → Int
    | 0, p => p
    | fuel + 1, p => if reachesPower num den (p + 1) then climb fuel (p + 1) else p

/-- The first `count` significant digits of `num / den`, rounded, with the power of ten of the first
digit. Zero has digits zero and power zero. -/
def leadingDigits (count : Nat) (num den : Nat) : Nat × Int :=
  if num = 0 then (0, 0)
  else
    let p := leadingPower num den
    let (n, d) := scaleBy 10 num den (count - 1 - p)
    let digits := roundQuotient n d
    if digits = Nat.pow 10 count then (Nat.pow 10 (count - 1), p + 1) else (digits, p)

/-- The digits of a number, padded with zeros on the left. -/
def paddedDigits (width n : Nat) : String :=
  let s := toString n
  "".pushn '0' (width - s.length) ++ s

/-- The text of an exponent: a sign and at least two digits. -/
def exponentText (power : Int) : String :=
  (if power < 0 then "e-" else "e+") ++ paddedDigits 2 power.natAbs

/-- Digits with a point after the first `whole` of them; no point when nothing follows it. -/
def pointAfter (whole : Nat) (digits : String) : String :=
  let cs := digits.toList
  let rest := cs.drop whole
  if rest.isEmpty then digits else String.ofList (cs.take whole) ++ "." ++ String.ofList rest

/-- The digits after the point without their trailing zeros, and without a point that nothing
follows. -/
def dropTrailingZeros (s : String) : String :=
  if s.contains '.' then
    String.ofList ((s.toList.reverse.dropWhile (· == '0')).dropWhile (· == '.')).reverse
  else s

/-- The digits with a point, also if nothing follows it. -/
def keepPoint (s : String) : String := if s.contains '.' then s else s ++ "."

/-- The sign of a written number. -/
def signText (negative : Bool) : String := if negative then "-" else ""

/-- The text of a float that is not finite, or of a finite one through its magnitude. -/
def textOf (x : Float) (finite : Bool → Nat → Nat → String) : String :=
  match Parts.ofFloat x with
  | .nan => "nan"
  | .infinite negative => signText negative ++ "inf"
  | .finite negative m e =>
    let (num, den) := magnitude m e
    finite negative num den

/-- One digit, `places` more after the point, and the exponent. The digits pass through `finish` before
the exponent follows. -/
def scientificMagnitude (finish : String → String) (places num den : Nat) : String :=
  let (digits, power) := leadingDigits (places + 1) num den
  finish (pointAfter 1 (paddedDigits (places + 1) digits)) ++ exponentText power

/-- Positional notation with `places` digits after the point. -/
def fixedMagnitude (places num den : Nat) : String :=
  let digits := paddedDigits (places + 1) (roundQuotient (num * Nat.pow 10 places) den)
  pointAfter (digits.length - places) digits

/-- Scientific notation with `places` digits after the point; a zero keeps its sign. -/
def scientific (places : Nat) (x : Float) : String :=
  textOf x fun negative num den => signText negative ++ scientificMagnitude id places num den

/-- Positional notation with `places` digits after the point. -/
def fixed (places : Nat) (x : Float) : String :=
  textOf x fun negative num den => signText negative ++ fixedMagnitude places num den

/-- Positional notation in which a number that rounds to zero is written without a sign. -/
def fixedUnsignedZero (places : Nat) (x : Float) : String :=
  textOf x fun negative num den =>
    let isZero := roundQuotient (num * Nat.pow 10 places) den == 0
    signText (negative && !isZero) ++ fixedMagnitude places num den

/-- Significant digits, positional from `0.0001` up to as many whole places. The digits pass through
`finish` before an exponent follows. -/
def generalMagnitude (finish : String → String) (digits num den : Nat) : String :=
  let count := if digits = 0 then 1 else digits
  let (ds, power) := leadingDigits count num den
  if -4 ≤ power ∧ power < count then
    finish (fixedMagnitude (count - 1 - power).toNat num den)
  else finish (pointAfter 1 (paddedDigits count ds)) ++ exponentText power

/-- At most `digits` significant digits, positional from `0.0001` up to `digits` whole places. -/
def general (digits : Nat) (x : Float) : String :=
  textOf x fun negative num den =>
    signText negative ++ generalMagnitude dropTrailingZeros digits num den

end Minimization.Decimal
