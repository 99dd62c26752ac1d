import Minimization.Value.Basic

/-!
# Values in words

`Value.render` writes a value on one line: texts quoted, floats with the fewest digits that read back,
lists in brackets, objects in braces with their fields in order. `Value.display` leaves texts as they
are.
-/

namespace Minimization.Value

mutual

/-- A value on one line. -/
def render : Value → String
  | null => "None"
  | bool b => if b then "True" else "False"
  | int n => toString n
  | real x => Decimal.shortest x
  | text s => Text.quoted s
  | list items => "[" ++ ", ".intercalate (renderItems items) ++ "]"
  | object fields => "\x7b" ++ ", ".intercalate (renderFields fields) ++ "\x7d"

/-- The items of a list, each on its own. -/
def renderItems : List Value → List String
  | [] => []
  | v :: vs => v.render :: renderItems vs

/-- The fields of an object: the quoted name, a colon, the value. -/
def renderFields : List (String × Value) → List String
  | [] => []
  | (name, v) :: fs => (Text.quoted name ++ ": " ++ v.render) :: renderFields fs

end

/-- A value within running text: a text as it is, anything else on one line. -/
def display : Value → String
  | text s => s
  | v => v.render

end Minimization.Value
