import Minimization.Tensor.Basic

/-!
# Entries by position, and export

A position counts through the entries in row-major order; a negative one counts from the end.
`toVector` and `toPlane` give the entries in double precision as a vector and as a matrix.
-/

namespace Minimization.Tensor

variable {α : Type} [Scalar α]

/-- Where a position lies among `size` entries. -/
def position? (size : Nat) (i : Int) : Option Nat :=
  if 0 ≤ i ∧ i < size then some i.toNat
  else if i < 0 ∧ -(size : Int) ≤ i then some (i + size).toNat
  else none

/-- The entry at a position. -/
def get (t : Tensor α) (i : Int) : Except Failure α :=
  match (position? t.size i).bind (t.entries[·]?) with
  | some x => .ok x
  | none => .error .outOfRange

/-- The array with another entry at a place. -/
def setAt (t : Tensor α) (k : Nat) (x : α) : Tensor α :=
  { t with
    entries := t.entries.set k (Scalar.round t.precision x)
    length_entries := by rw [List.length_set, t.length_entries] }

/-- The array with another entry at a position. The position is settled before the entry is. -/
def set (t : Tensor α) (i : Int) (x : Except Failure α) : Except Failure (Tensor α) :=
  match position? t.size i with
  | some k => do return t.setAt k (← x)
  | none => .error .outOfRange

/-- The array with another entry at some positions, one after the other. A position that does not exist ends
this with a failure; what was set before stays. -/
def setEach (t : Tensor α) (x : α) : List Int → Tensor α × Option Failure
  | [] => (t, none)
  | i :: is =>
    match position? t.size i with
    | some k => (t.setAt k x).setEach x is
    | none => (t, some .outOfRange)

/-- The entries as a vector in double precision. -/
def toVector (t : Tensor α) : Tensor α := t.flatten.convert .double

/-- The array in double precision, a vector as a matrix of one column. -/
def toPlane (t : Tensor α) : Tensor α :=
  match h : t.shape with
  | [n] => { t.convert .double with
      shape := [n, 1], length_entries := by simp [convert, map, t.length_entries, h] }
  | _ => t.convert .double

end Minimization.Tensor
