import Minimization.Failure
import Minimization.Fields
import Minimization.Decimal.Reader

/-!
# Configuration values

The values a configuration can hold: nothing, truth values, whole numbers of any size, floats, texts,
lists, and objects whose fields keep their order. Values compare by what they count for
(`Value.agrees`: a truth value counts as zero or one, a whole number equals the float of the same
number, the order of an object's fields does not matter), and `toReal` and `toInt` convert them to
numbers.
-/

namespace Minimization

/-- What a configuration can hold. -/
inductive Value where
  | null
  | bool (b : Bool)
  | int (n : Int)
  | real (x : Float)
  | text (s : String)
  | list (items : List Value)
  | object (fields : List (String × Value))
  deriving Inhabited

namespace Value

/-- The word for the kind of a value. -/
def kindName : Value → String
  | null => "NoneType"
  | bool _ => "bool"
  | int _ => "int"
  | real _ => "float"
  | text _ => "str"
  | list _ => "list"
  | object _ => "dict"

/-- Whether a value counts as present: not nothing, false, zero or empty. -/
def isPresent : Value → Bool
  | null => false
  | bool b => b
  | int n => n != 0
  | real x => x != 0.0
  | text s => s != ""
  | list items => !items.isEmpty
  | object fields => !fields.isEmpty

/-- The whole number of a truth value. -/
def bit (b : Bool) : Int := if b then 1 else 0

/-- Whether a whole number and a float are the same number. -/
def intAgrees (n : Int) (x : Float) : Bool :=
  match Decimal.Parts.ofFloat x with
  | .finite negative m e =>
    let (num, den) := Decimal.magnitude m e
    n.natAbs * den == num && (n == 0 || (n < 0) == negative)
  | _ => false

/-- Whether two numbers are the same; `none` unless both values are numbers. -/
def numbersAgree? : Value → Value → Option Bool
  | bool a, bool b => some (a == b)
  | bool a, int b => some (bit a == b)
  | int a, bool b => some (a == bit b)
  | int a, int b => some (a == b)
  | bool a, real y => some (intAgrees (bit a) y)
  | int a, real y => some (intAgrees a y)
  | real x, bool b => some (intAgrees (bit b) x)
  | real x, int b => some (intAgrees b x)
  | real x, real y => some (x == y)
  | _, _ => none

/-- Whether both values are the float that is no number. -/
def areUndefined : Value → Value → Bool
  | real x, real y => x.isNaN && y.isNaN
  | _, _ => false

mutual

/-- Whether two values count for the same. The float that is no number differs from itself, except as a
part of lists and objects, which are compared by what they hold. -/
def agrees : Value → Value → Bool
  | null, null => true
  | text a, text b => a == b
  | list as, list bs => listAgrees as bs
  | object as, object bs => as.length == bs.length && fieldsAgree as bs
  | a, b => (numbersAgree? a b).getD false

/-- Whether two lists hold the same values in the same order. -/
def listAgrees : List Value → List Value → Bool
  | [], [] => true
  | a :: as, b :: bs => (a.agrees b || a.areUndefined b) && listAgrees as bs
  | _, _ => false

/-- Whether every field of the first list is a field of the second. -/
def fieldsAgree : List (String × Value) → List (String × Value) → Bool
  | [], _ => true
  | (name, a) :: as, bs =>
    (match Fields.get? bs name with
      | some b => a.agrees b || a.areUndefined b
      | none => false) && fieldsAgree as bs

end

/-- A whole number as a float; one beyond the range of floats is refused. -/
def realOfInt (n : Int) : Except Failure Float :=
  let x := Decimal.nearest (n < 0) n.natAbs 1
  if x.isInf then .error .overflow else .ok x

/-- A value as a float: numbers and truth values, and texts that hold a number. -/
def toReal : Value → Except Failure Float
  | bool b => .ok (if b then 1.0 else 0.0)
  | int n => realOfInt n
  | real x => .ok x
  | text s =>
    match Decimal.realNumber? s.toList with
    | some x => .ok x
    | none => .error .unreadable
  | _ => .error .wrongType

/-- A float cut off toward zero. -/
def truncate (x : Float) : Except Failure Int :=
  match Decimal.Parts.ofFloat x with
  | .nan => .error .unreadable
  | .infinite _ => .error .overflow
  | .finite negative m e =>
    let (num, den) := Decimal.magnitude m e
    .ok (Decimal.signed negative (num / den))

/-- A value as a whole number: floats are cut off toward zero, texts must hold a whole number. -/
def toInt : Value → Except Failure Int
  | bool b => .ok (bit b)
  | int n => .ok n
  | real x => truncate x
  | text s =>
    match Decimal.wholeNumber? s.toList with
    | some n => .ok n
    | none => .error .unreadable
  | _ => .error .wrongType

/-- A value as a number in arithmetic and comparisons, where texts are no numbers. -/
def toOperand : Value → Except Failure Float
  | text _ => .error .wrongType
  | v => v.toReal

end Value

end Minimization
