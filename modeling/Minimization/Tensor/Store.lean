import Minimization.Tensor.Nested
import Minimization.Tensor.Stretch
import Minimization.Tensor.Arithmetic

/-!
# Arrays that are shared and changed in place

A `Store` holds arrays under handles. Several names may stand for one handle, so a change in place is
seen under all of them. Operations do not only take stored arrays: a `Source` is anything that an array
can be made from, and a `Factor` anything that an array can be multiplied by.
-/

namespace Minimization

/-- Where a store keeps an array. -/
abbrev Handle := Nat

/-- Arrays under handles, in the order in which they were made. -/
structure Store (α : Type) where
  arrays : List (Tensor α)

/-- What an array is made from: a stored array, or entries nested in lists. -/
inductive Source (α : Type) where
  | stored (a : Handle)
  | nested (n : Nested α)

/-- What an array is multiplied by: a number, an array entry by entry, or something that no number can
be multiplied by. -/
inductive Factor (α : Type) where
  | number (x : Except Failure α)
  | array (s : Source α)
  | other

namespace Store

variable {α : Type}

/-- The store without arrays. -/
def empty : Store α := ⟨[]⟩

/-- The array of a handle. -/
def fetch (s : Store α) (h : Handle) : Except Failure (Tensor α) :=
  match s.arrays[h]? with
  | some t => .ok t
  | none => .error .outOfRange

/-- A source as an item of a list. -/
def item (s : Store α) : Source α → Except Failure (Nested α)
  | .stored a => do return .block (← s.fetch a)
  | .nested n => .ok n

variable [Scalar α]

/-- The array of a source. Nested lists are kept in double precision, a stored array as it is. -/
def array (s : Store α) : Source α → Except Failure (Tensor α)
  | .stored a => s.fetch a
  | .nested n => Tensor.ofNested .double n

/-- The array that sources make up as the items of a list. -/
def gather (p : Precision) (s : Store α) (sources : List (Source α)) : Except Failure (Tensor α) := do
  Tensor.ofNested p (.items (← sources.mapM s.item))

/-- An array times a factor. Only an array without entries can be multiplied by anything. -/
def times (s : Store α) (t : Tensor α) : Factor α → Except Failure (Tensor α)
  | .number x => do return t.scale (← x)
  | .array source => do t.stretched (· * ·) (← s.array source)
  | .other => if t.size = 0 then .ok t else .error .wrongType

/-- An array times a factor, kept in its own shape and precision. -/
def timesInto (s : Store α) (t : Tensor α) : Factor α → Except Failure (Tensor α)
  | .number x => do return t.scale (← x)
  | .array source => do
    let r ← t.stretched (· * ·) (← s.array source)
    if r.shape = t.shape then return r.convert t.precision else throw .incompatibleShapes
  | .other => .error .incompatibleKinds

end Store

end Minimization
