import Minimization.Value.Basic

/-!
# Looking into values

Short ways to what a value holds. What is not there, or is of another kind, is nothing, empty or zero.
-/

namespace Minimization.Value

/-- Whether a value is nothing. -/
def isNull : Value → Bool
  | null => true
  | _ => false

/-- The field of an object. -/
def field? (v : Value) (name : String) : Option Value :=
  match v with
  | object fields => Fields.get? fields name
  | _ => none

/-- The field of an object, nothing if there is none. -/
def field (v : Value) (name : String) : Value := (v.field? name).getD null

/-- The fields of an object. -/
def fields : Value → Fields Value
  | object fields => fields
  | _ => []

theorem field?_eq (v : Value) (name : String) : v.field? name = Fields.get? v.fields name := by
  cases v <;> rfl

/-- The items of a list. -/
def items : Value → List Value
  | list items => items
  | _ => []

/-- What a value is gone through by: the items of a list, the characters of a text, the names of an
object. -/
def parts : Value → Except Failure (List Value)
  | list items => .ok items
  | text s => .ok (s.toList.map fun c => text (String.singleton c))
  | object fields => .ok ((Fields.names fields).map text)
  | _ => .error .wrongType

/-- The item of a list at a place, nothing if there is none. -/
def item (v : Value) (i : Nat) : Value := v.items.getD i null

/-- A text. -/
def asText : Value → String
  | text s => s
  | _ => ""

/-- A whole number; a float is cut off toward zero. -/
def asWhole (v : Value) : Int :=
  match v with
  | text _ => 0
  | v => v.toInt.toOption.getD 0

/-- An extent of an array: only whole numbers are. -/
def toExtent : Value → Except Failure Int
  | int n => .ok n
  | _ => .error .wrongType

/-- A count. -/
def asCount (v : Value) : Nat := v.asWhole.toNat

/-- A truth value. -/
def asFlag : Value → Bool
  | bool b => b
  | _ => false

end Minimization.Value
