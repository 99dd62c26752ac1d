import Minimization.Tensor.Nested
import Minimization.Value.Access

/-!
# Arrays described by values

A number in lists stands for the array of these lists, an object with a shape and data for the array of
that shape.
-/

namespace Minimization

/-- A value as an entry of an array, where nothing stands for what is not a number. -/
def Value.toEntry : Value → Except Failure Float
  | null => .ok (0.0 / 0.0)
  | v => v.toReal

mutual

/-- The nested lists of a value, whose numbers are read by `entry`. -/
def Nested.ofValue (entry : Value → Except Failure Float) : Value → Nested Float
  | .list vs => .items (Nested.ofValues entry vs)
  | v => .entry (entry v)

/-- The nested lists of some values. -/
def Nested.ofValues (entry : Value → Except Failure Float) : List Value → List (Nested Float)
  | [] => []
  | v :: vs => Nested.ofValue entry v :: Nested.ofValues entry vs

end

/-- The shape with given extents for a number of entries. One extent may be left open, which is written
as a negative number; it follows from the others. -/
def shapeFor (count : Nat) (extents : List Int) : Except Failure (List Nat) :=
  let known := volume ((extents.filter (0 ≤ ·)).map Int.toNat)
  match extents.countP (· < 0) with
  | 0 => if known = count then .ok (extents.map Int.toNat) else .error .incompatibleShapes
  | 1 =>
    if known = 0 ∨ count % known ≠ 0 then .error .incompatibleShapes
    else .ok (extents.map fun n => if n < 0 then count / known else n.toNat)
  | _ => .error .incompatibleShapes

/-- The array that a value describes, in double precision. -/
def Tensor.ofValue (v : Value) : Except Failure (Tensor Float) :=
  match v with
  | .object _ => do
    let t ← Tensor.ofNested .double (Nested.ofValue Value.toReal (v.field "data"))
    let shape ← shapeFor t.size (← (v.field "shape").items.mapM Value.toExtent)
    match Tensor.ofEntries? .double shape t.entries with
    | some t => return t
    | none => throw .incompatibleShapes
  | v => Tensor.ofNested .double (Nested.ofValue Value.toReal v)

end Minimization
