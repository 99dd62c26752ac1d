import Minimization.Description.Tensor
import Minimization.Random.Generator
import Minimization.Tensor.Call
import Minimization.Value.Arithmetic
import Minimization.Value.Printer

/-!
# Operands

What an operation can be applied to: a stored array, a value, a function of one number or a source of
random numbers. `Operand.readBy` finds out which of them is meant, for a table of functions that have a
name. The others say what an operand counts for where a certain kind is expected; an operand of another
kind is a failure there.
-/

namespace Minimization

/-- What an operation can be applied to. A stored array comes with what it holds at that moment. -/
inductive Operand where
  | array (handle : Handle) (contents : Tensor Float)
  | value (v : Value)
  | function (f : Float → Except Failure Float)
  | generator (g : Random.Generator)

namespace Operand

/-- Functions of one number by their names. -/
abbrev Functions := String → Option (Float → Except Failure Float)

/-- The functions of one number that have a name. -/
def function? : Functions
  | "sqrt" => some Scalar.squareRoot
  | "neg" => some fun v => .ok (-v)
  | "square" => some fun v => .ok (v * v)
  | "inv" => some fun v => Scalar.divide 1.0 v
  | "inc" => some fun v => .ok (v + 1.0)
  | "abs" => some fun v => .ok v.abs
  | _ => none

/-- The number that a word stands for. -/
def special? (word : String) : Option Value :=
  if ["nan", "inf", "-inf"].contains word then
    (Decimal.realNumber? word.toList).map .real
  else none

/-- A source of random numbers: a script of them, or the generator of a seed. -/
def generatorOf (v : Value) : Except Failure Random.Generator :=
  match v.field? "script" with
  | some numbers => .ok (.script numbers.items)
  | none => Random.Generator.ofSeed (v.field "seed")

/-- The operand that a value stands for. A text names an array before it names a function, and a
function before a number. -/
def readBy (functions : Functions) (names : Fields Handle) (s : Store Float) :
    Value → Except Failure Operand
  | .text word =>
    match names.get? word, functions word, special? word with
    | some h, _, _ => do return .array h (← s.fetch h)
    | none, some f, _ => .ok (.function f)
    | none, none, some x => .ok (.value x)
    | none, none, none => .error (.unknownName word)
  | .object fields => do return .generator (← generatorOf (.object fields))
  | v => .ok (.value v)

/-- The operand that a value stands for, with the functions that have a name. -/
def read : Fields Handle → Store Float → Value → Except Failure Operand := readBy function?

/-- The number that an operand is. -/
def numeral? : Operand → Option Value
  | value v => if v.numeral?.isSome then some v else none
  | _ => none

/-- The stored array that an operand is. -/
def stored : Operand → Except Failure Handle
  | array h _ => .ok h
  | _ => .error .noMember

/-- An operand as what an array is made from, where its numbers are read by `entry`. -/
def sourceBy (entry : Value → Except Failure Float) : Operand → Source Float
  | array h _ => .stored h
  | value v => .nested (Nested.ofValue entry v)
  | _ => .nested (.entry (.error .wrongType))

/-- An operand as what an array is made from; nothing is an entry that is not a number. -/
def source (a : Operand) : Source Float := a.sourceBy Value.toEntry

/-- An operand as what arithmetic makes an array from, where nothing is no number. -/
def arithmetic (a : Operand) : Source Float := a.sourceBy Value.toReal

/-- An operand as what an array is multiplied by; `entry` reads the numbers of lists. -/
def factorBy (entry : Value → Except Failure Float) (a : Operand) : Factor Float :=
  match a with
  | array h _ => .array (.stored h)
  | value (.list _) => .array (a.sourceBy entry)
  | value v => if v.numeral?.isSome then .number v.toReal else .other
  | _ => .other

/-- An operand as what an array is multiplied by. -/
def factor (a : Operand) : Factor Float := a.factorBy Value.toReal

/-- An operand as what an array is multiplied by in place. -/
def factorInto (a : Operand) : Factor Float :=
  a.factorBy fun v => if v.isNull then .error .incompatibleKinds else v.toReal

/-- An operand as a function of one number. An array is asked first whether it is true, which only an
array of one entry can be. -/
def asFunction : Operand → Float → Except Failure Float
  | function f, x => f x
  | array _ t, _ => .error (if t.size = 1 then .wrongType else .incompatibleShapes)
  | _, _ => .error .wrongType

/-- An operand as an extent of an array: only whole numbers are. -/
def extent : Operand → Except Failure Int
  | value v => v.toExtent
  | _ => .error .wrongType

/-- An operand as an extent that may be left out. -/
def extent? : Option Operand → Except Failure (Option Int)
  | none => .ok none
  | some (value .null) => .ok none
  | some a => some <$> a.extent

/-- An operand as a source of random numbers; without one they are those that nobody wants to repeat. -/
def random : Option Operand → Except Failure Random.Generator
  | none => .ok .unseeded
  | some (value .null) => .ok .unseeded
  | some (generator g) => .ok g
  | some _ => .error .noMember

/-- A number as the bound of a comparison: a whole number beyond the range of floats is beyond every
norm. -/
def boundOf (v : Value) : Except Failure Float :=
  match v.numeral? with
  | some (.real x) => .ok x
  | some (.whole n) =>
    match Value.realOfInt n with
    | .ok x => .ok x
    | .error _ => .ok (if n < 0 then -1.0 / 0.0 else 1.0 / 0.0)
  | none => .error .wrongType

/-- An operand as the bound of a comparison. -/
def bound : Option Operand → Except Failure Float
  | none => .ok Tensor.negligible
  | some (value v) => boundOf v
  | some (array _ t) =>
    match t.entries with
    | [x] => .ok x
    | _ => .error .incompatibleShapes
  | some _ => .error .wrongType

/-- The only entry of an array in words, in as many brackets as the array has extents. -/
def words (t : Tensor Float) (x : Float) : String :=
  let brackets (s : String) : String := String.join (List.replicate t.rank s)
  let digits := Decimal.shortest x
  let bare := if 0 < t.rank ∧ digits.endsWith ".0" then (digits.dropEnd 1).toString else digits
  brackets "[" ++ bare ++ brackets "]"

/-- An operand as positions: that of a whole number, the first one if it is true and none if it is
false, or those of a list of numbers, which are cut off toward zero. -/
def positions : Operand → Except Failure (List Int)
  | value (.bool b) => .ok (if b then [0] else [])
  | value (.int i) => .ok [i]
  | value (.list vs) => vs.mapM fun
    | .int i => .ok i
    | .real x => (Value.truncate x).mapError fun _ => .outOfRange
    | _ => .error .outOfRange
  | _ => .error .outOfRange

/-- An operand as the position of one entry. What stands for several is refused once they are found. -/
def position (t : Tensor Float) : Operand → Except Failure Int
  | value (.int i) => .ok i
  | value (.bool true) => .ok 0
  | a => do
    let found := (← a.positions).mapM (Tensor.position? t.size)
    throw (if found.isSome then .wrongType else .outOfRange)

/-- An operand as one entry of an array. -/
def entry : Operand → Except Failure Float
  | array _ t =>
    match t.shape, t.entries with
    | [], [x] => .ok x
    | _, _ => .error .incompatibleShapes
  | value (.list _) => .error .incompatibleShapes
  | value v => v.toEntry
  | _ => .error .wrongType

/-- An operand as a number of rows, for `count` values. What is not whole fails after it was compared. -/
def rows (count : Nat) (a : Operand) : Except Failure Int :=
  let unwhole (v : Value) (words : String) : Except Failure Int := do
    if ← v.isBelow (.int 1) then throw (.size (.rows count words))
    let rest ← (Value.int count).mod v
    throw (if rest.isPresent then .size (.rows count words) else .wrongType)
  match a with
  | value (.int n) => .ok n
  | value v => unwhole v v.render
  | array _ t =>
    match t.entries with
    | [x] => unwhole (.real x) (words t x)
    | _ => .error .incompatibleShapes
  | _ => .error .wrongType

end Operand

end Minimization
