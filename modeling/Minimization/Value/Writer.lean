import Minimization.Value.Basic

/-!
# Writing values

`Value.write` writes a value as a text that `Value.read` reads: names and texts between double quotes,
lists in brackets, objects in braces. Quotes, backslashes and control characters are escaped, all other
characters stand for themselves. A whole number with more digits than are read is not written either
(`Value.isWritable`).
-/

namespace Minimization.Value

/-- One character as it stands between double quotes. -/
def writeChar (c : Char) : List Char :=
  if c = '"' ∨ c = '\\' then ['\\', c]
  else if c.toNat < 32 then '\\' :: 'u' :: Text.hexadecimal 4 c.toNat
  else [c]

/-- A text between double quotes. -/
def writeText (s : String) : String := String.ofList ('"' :: s.toList.flatMap writeChar ++ ['"'])

/-- A float with the fewest digits that read back. -/
def writeReal (x : Float) : String :=
  if x.isNaN then "NaN"
  else if x.isInf then (if x < 0.0 then "-Infinity" else "Infinity")
  else Decimal.shortest x

mutual

/-- A value as a text. -/
def write : Value → String
  | null => "null"
  | bool b => if b then "true" else "false"
  | int n => toString n
  | real x => writeReal x
  | text s => writeText s
  | list items => "[" ++ ",".intercalate (writeItems items) ++ "]"
  | object fields => "\x7b" ++ ",".intercalate (writeFields fields) ++ "\x7d"

/-- The items of a list, each on its own. -/
def writeItems : List Value → List String
  | [] => []
  | v :: vs => v.write :: writeItems vs

/-- The fields of an object: the name, a colon, the value. -/
def writeFields : List (String × Value) → List String
  | [] => []
  | (name, v) :: fs => (writeText name ++ ":" ++ v.write) :: writeFields fs

end

mutual

/-- Whether a value can be written: no whole number in it has too many digits. -/
def isWritable : Value → Bool
  | int n => (Nat.toDigits 10 n.natAbs).length ≤ Decimal.mostDigits
  | list items => areWritable items
  | object fields => fieldsWritable fields
  | _ => true

/-- Whether all items of a list can be written. -/
def areWritable : List Value → Bool
  | [] => true
  | v :: vs => v.isWritable && areWritable vs

/-- Whether the values of all fields of an object can be written. -/
def fieldsWritable : List (String × Value) → Bool
  | [] => true
  | (_, v) :: fs => v.isWritable && fieldsWritable fs

end

end Minimization.Value
