import Minimization.Decimal.Binary
import Minimization.Text.Blank

/-!
# Numbers written in text

`wholeNumber?` reads an optional sign and digits, `realNumber?` also a point, an exponent, and the
words for infinity and not-a-number in any case. Blanks may stand around either, and a single
underscore may stand between two digits.
-/

namespace Minimization.Decimal

open Minimization.Text

/-- The longest run of digits at the start, underscores between digits allowed, and what follows.
The digits come as their value and their count. -/
def takeDigits : List Char → Nat → Nat → (Nat × Nat) × List Char
  | [], value, count => ((value, count), [])
  | '_' :: c :: rest, value, count =>
    match count, digitValue? c with
    | 0, _ => ((value, 0), '_' :: c :: rest)
    | _, none => ((value, count), '_' :: c :: rest)
    | _, some d => takeDigits rest (10 * value + d) (count + 1)
  | c :: rest, value, count =>
    match digitValue? c with
    | none => ((value, count), c :: rest)
    | some d => takeDigits rest (10 * value + d) (count + 1)

/-- An optional sign at the start: whether it is a minus, and what follows. -/
def takeSign : List Char → Bool × List Char
  | '-' :: rest => (true, rest)
  | '+' :: rest => (false, rest)
  | cs => (false, cs)

/-- A signed number. -/
def signed (negative : Bool) (n : Nat) : Int := if negative then -n else n

/-- A text of more digits than this is not read as a whole number. -/
def mostDigits : Nat := 4300

/-- A whole number: blanks, sign, digits, blanks. -/
def wholeNumber? (cs : List Char) : Option Int :=
  let (negative, body) := takeSign (trimBlanks cs)
  let ((value, count), rest) := takeDigits body 0 0
  if count = 0 ∨ mostDigits < count ∨ rest ≠ [] then none else some (signed negative value)

/-- An exponent at the start, if a marker with at least one digit stands there. -/
def takeExponent : List Char → Option (Int × List Char)
  | c :: rest =>
    if c = 'e' ∨ c = 'E' then
      let (negative, body) := takeSign rest
      let ((value, count), after) := takeDigits body 0 0
      if count = 0 then none else some (signed negative value, after)
    else none
  | [] => none

/-- The words for numbers that are not finite, in lower case. -/
def specialWord? (negative : Bool) (cs : List Char) : Option Float :=
  let word := String.ofList (cs.map Char.toLower)
  if word = "inf" ∨ word = "infinity" then some (if negative then -1.0 / 0.0 else 1.0 / 0.0)
  else if word = "nan" then some (0.0 / 0.0)
  else none

/-- A real number: blanks, sign, digits with at most one point, an optional exponent, blanks; or one
of the special words. -/
def realNumber? (cs : List Char) : Option Float :=
  let (negative, body) := takeSign (trimBlanks cs)
  match specialWord? negative body with
  | some x => some x
  | none =>
    let ((whole, wholeCount), rest) := takeDigits body 0 0
    let ((digits, places), rest) :=
      match rest with
      | '.' :: '_' :: _ => ((whole, 0), rest)
      | '.' :: tail =>
        let ((fraction, count), after) := takeDigits tail 0 0
        ((whole * Nat.pow 10 count + fraction, count), after)
      | _ => ((whole, 0), rest)
    if wholeCount + places = 0 then none
    else match rest with
      | [] => some (ofDigits negative digits (-places))
      | _ =>
        match takeExponent rest with
        | some (power, []) => some (ofDigits negative digits (power - places))
        | _ => none

end Minimization.Decimal
