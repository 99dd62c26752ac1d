import Minimization.Value.Printer
import Minimization.Value.Arithmetic
import Minimization.Decimal.Rounded

/-!
# Directives

A directive says how a value is put into a text. It is written after a percent sign: a name in
parentheses or none, flags, a width, a precision, a size letter that means nothing, and the letter of
the conversion. Width and precision are numbers, or a star that takes the next value. `Directive.take?`
reads a directive; a `Style` is a directive whose measures are known, and `Style.apply` writes a value
in it.
-/

namespace Minimization.Text

/-- A width or a precision: a number, or the next value. -/
inductive Measure where
  | fixed (n : Nat)
  | given
  deriving DecidableEq, Repr

/-- The largest width or precision. -/
def Measure.most : Nat := Nat.pow 2 31 - 1

/-- How a value is put into a text. -/
structure Directive where
  name : Option String
  flags : List Char
  width : Option Measure
  places : Option Measure
  letter : Char

namespace Directive

/-- The flags of a directive. -/
def flagChars : List Char := "#0-+ ".toList

/-- The letters in front of the conversion that mean nothing. -/
def sizeChars : List Char := "hlL".toList

/-- What stands before the parenthesis that closes the ones opened so far, and what follows it; `none`
if it is missing. -/
def closing : (opened : Nat) → List Char → Option (List Char × List Char)
  | _, [] => none
  | 0, ')' :: cs => some ([], cs)
  | opened + 1, ')' :: cs => (closing opened cs).map fun (name, rest) => (')' :: name, rest)
  | opened, '(' :: cs => (closing (opened + 1) cs).map fun (name, rest) => ('(' :: name, rest)
  | opened, c :: cs => (closing opened cs).map fun (name, rest) => (c :: name, rest)

/-- A name in parentheses at the start of a text; `none` if the parentheses are not closed. -/
def takeName (cs : List Char) : Option (Option String × List Char) :=
  match cs with
  | '(' :: rest => (closing 0 rest).map fun (name, rest) => (some (String.ofList name), rest)
  | cs => some (none, cs)

/-- The number that some digits stand for. -/
def number (digits : List Char) : Nat := digits.foldl (fun n c => n * 10 + (c.toNat - 48)) 0

/-- A star or a number at the start of a text, if there is one. -/
def takeMeasure (cs : List Char) : Option Measure × List Char :=
  match cs with
  | '*' :: rest => (some .given, rest)
  | cs =>
    match cs.takeWhile Char.isDigit with
    | [] => (none, cs)
    | digits => (some (.fixed (number digits)), cs.dropWhile Char.isDigit)

/-- A point and a precision at the start of a text; a lone point asks for no places. -/
def takePlaces (cs : List Char) : Option Measure × List Char :=
  match cs with
  | '.' :: rest => let (places, rest) := takeMeasure rest; (some (places.getD (.fixed 0)), rest)
  | cs => (none, cs)

/-- A text without a size letter in front. -/
def dropSize (cs : List Char) : List Char :=
  match cs with
  | c :: rest => if sizeChars.contains c then rest else cs
  | [] => []

/-- The directive that follows a percent sign, and what follows the directive. -/
def take? (cs : List Char) : Option (Directive × List Char) :=
  match takeName cs with
  | none => none
  | some (name, cs) =>
    let flags := cs.takeWhile flagChars.contains
    let (width, cs) := takeMeasure (cs.dropWhile flagChars.contains)
    let (places, cs) := takePlaces cs
    match dropSize cs with
    | c :: rest => some (⟨name, flags, width, places, c⟩, rest)
    | [] => none

end Directive

/-- How a value is written: on which side of its width it stands, the sign of numbers that are not
negative, whether zeros fill the width, whether the form of a number shows, the width, the precision. -/
structure Style where
  toLeft : Bool
  sign : String
  fillsZeros : Bool
  showsForm : Bool
  width : Nat
  places : Option Nat

namespace Style

/-- The style of some flags, a width and a precision. A negative width is one to the left. -/
def ofFlags (flags : List Char) (width places : Option Int) : Style where
  toLeft := flags.contains '-' || width.getD 0 < 0
  sign := if flags.contains '+' then "+" else if flags.contains ' ' then " " else ""
  fillsZeros := flags.contains '0'
  showsForm := flags.contains '#'
  width := (width.getD 0).natAbs
  places := places.map Int.toNat

/-- A text brought to the width. -/
def pad (s : Style) (text : String) : String :=
  let blanks := "".pushn ' ' (s.width - text.length)
  if s.toLeft then text ++ blanks else blanks ++ text

/-- A number brought to the width: its sign, what marks its form, and its digits, with zeros before the
digits if the style asks for them. -/
def padNumber (s : Style) (negative : Bool) (mark digits : String) : String :=
  let start := (if negative then "-" else s.sign) ++ mark
  if s.fillsZeros && !s.toLeft then
    start ++ "".pushn '0' (s.width - start.length - digits.length) ++ digits
  else s.pad (start ++ digits)

/-- A text cut off at the precision, brought to the width. -/
def writeText (s : Style) (text : String) : String :=
  s.pad (match s.places with
    | some n => String.ofList (text.toList.take n)
    | none => text)

/-- A whole number to a base, with at least as many digits as the precision says. -/
def writeWhole (s : Style) (base : Nat) (mark : String) (n : Int) : String :=
  let digits := String.ofList (Nat.toDigits base n.natAbs)
  s.padNumber (n < 0) (if s.showsForm then mark else "")
    ("".pushn '0' (s.places.getD 0 - digits.length) ++ digits)

/-- A float, its magnitude in one of the notations: exponent, positional, or the shorter of both. -/
def writeReal (s : Style) (letter : Char) (x : Float) : String :=
  let places := s.places.getD 6
  let finish := if s.showsForm then Decimal.keepPoint else id
  s.padNumber (x < 0.0 || 1.0 / x < 0.0) "" (Decimal.textOf x.abs fun _ num den =>
    match letter with
    | 'e' => Decimal.scientificMagnitude finish places num den
    | 'f' => finish (Decimal.fixedMagnitude places num den)
    | _ => Decimal.generalMagnitude
        (if s.showsForm then Decimal.keepPoint else Decimal.dropTrailingZeros) places num den)

/-- The character that a value stands for: a text of one character, or a code point. -/
def character (v : Value) : Except Failure Char :=
  match v, v.numeral? with
  | .text s, _ =>
    match s.toList with
    | [c] => .ok c
    | _ => .error .wrongType
  | _, some (.whole n) => if 0 ≤ n ∧ n.toNat.isValidChar then .ok (Char.ofNat n.toNat) else .error .overflow
  | _, _ => .error .wrongType

/-- A number, cut off toward zero. -/
def wholePart (v : Value) : Except Failure Int :=
  match v with
  | .text _ => .error .wrongType
  | v => v.toInt

/-- A whole number. -/
def wholeOnly (v : Value) : Except Failure Int :=
  match v.numeral? with
  | some (.whole n) => .ok n
  | _ => .error .wrongType

/-- The text of a value in the conversion of a letter. -/
def apply (s : Style) (letter : Char) (v : Value) : Except Failure String :=
  match letter with
  | 's' => .ok (s.writeText v.display)
  | 'r' => .ok (s.writeText v.render)
  | 'a' => .ok (s.writeText (asciiOnly v.render))
  | 'c' => do return s.pad (String.singleton (← character v))
  | 'd' | 'i' | 'u' => do return s.writeWhole 10 "" (← wholePart v)
  | 'o' => do return s.writeWhole 8 "0o" (← wholeOnly v)
  | 'x' => do return s.writeWhole 16 "0x" (← wholeOnly v)
  | 'X' => do return (s.writeWhole 16 "0x" (← wholeOnly v)).map Char.toUpper
  | 'e' | 'f' | 'g' => do return s.writeReal letter (← v.toOperand)
  | 'E' | 'F' | 'G' => do return (s.writeReal letter.toLower (← v.toOperand)).map Char.toUpper
  | _ => .error .malformedFormat

end Style

end Minimization.Text
