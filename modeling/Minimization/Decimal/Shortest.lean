import Minimization.Decimal.Rounded

/-!
# The shortest decimal text that reads back

Between the midpoints to its two neighbours lie the reals that round to a float. `shortestDigits`
tries one digit, two digits, and so on: on each decimal grid only the two points next to the value
can lie in that interval, the first grid with a hit wins, and of two hits the nearer one.
-/

namespace Minimization.Decimal

/-- The reals that round to a float: `lower / unit` to `upper / unit`, the ends included when the
significand is even. -/
structure RoundingInterval where
  lower : Nat
  value : Nat
  upper : Nat
  unit : Nat
  closed : Bool

/-- The rounding interval of `significand * 2 ^ exponent`. Below a power of two the neighbour is half
as far away as above it. -/
def RoundingInterval.of (significand : Nat) (exponent : Int) : RoundingInterval :=
  let below := if significand = Nat.pow 2 52 ∧ leastExponent < exponent then 1 else 2
  let (factor, unit) := scaleBy 2 1 1 (exponent - 2)
  { lower := (4 * significand - below) * factor
    value := 4 * significand * factor
    upper := (4 * significand + 2) * factor
    unit
    closed := significand % 2 = 0 }

/-- Whether the decimal `digits * 10 ^ power` rounds to the float of the interval. -/
def RoundingInterval.holds (i : RoundingInterval) (digits : Nat) (power : Int) : Bool :=
  let (n, d) := scaleBy 10 digits 1 power
  if i.closed then i.lower * d ≤ n * i.unit && n * i.unit ≤ i.upper * d
  else i.lower * d < n * i.unit && n * i.unit < i.upper * d

/-- The digits and the power of ten of their last digit, for the fewest digits that read back. -/
def shortestDigits (significand : Nat) (exponent : Int) : Nat × Int :=
  let i := RoundingInterval.of significand exponent
  let (num, den) := (i.value, i.unit)
  let p := leadingPower num den
  search i num den p 17 1
where
  /-- Tries `count` digits, then more; seventeen digits always read back. -/
  search (i : RoundingInterval) (num den : Nat) (p : Int) : Nat → Nat → Nat × Int
    | 0, count =>
      let power := p - count + 1
      let (n, d) := scaleBy 10 num den (-power)
      (roundQuotient n d, power)
    | fuel + 1, count =>
      let power := p - count + 1
      let (n, d) := scaleBy 10 num den (-power)
      let down := n / d
      match i.holds down power, i.holds (down + 1) power with
      | true, true => (roundQuotient n d, power)
      | true, false => (down, power)
      | false, true => (down + 1, power)
      | false, false => search i num den p fuel (count + 1)

/-- The shortest text of a float. Exponents from -4 to 15 are written positionally, a whole number
with `.0`; the others in scientific notation with an exponent of at least two digits. -/
def shortest (x : Float) : String :=
  match Parts.ofFloat x with
  | .nan => "nan"
  | .infinite negative => signText negative ++ "inf"
  | .finite negative 0 _ => signText negative ++ "0.0"
  | .finite negative m e =>
    let (digits, last) := shortestDigits m e
    let s := toString digits
    let power : Int := last + s.length - 1
    let body :=
      if -4 ≤ power ∧ power < 16 then
        if power < 0 then "0." ++ "".pushn '0' (-power - 1).toNat ++ stripZeros s
        else if s.length ≤ power.toNat + 1 then s ++ "".pushn '0' (power.toNat + 1 - s.length) ++ ".0"
        else pointAfter (power.toNat + 1) s
      else pointAfter 1 (stripZeros s) ++ exponentText power
    signText negative ++ body
where
  /-- Digits without trailing zeros. -/
  stripZeros (s : String) : String := String.ofList (s.toList.reverse.dropWhile (· == '0')).reverse

end Minimization.Decimal
