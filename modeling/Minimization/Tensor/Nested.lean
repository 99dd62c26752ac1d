import Minimization.Tensor.Basic

/-!
# Arrays from nested lists

Entries and arrays nested in lists form an array when all items of a list have the same shape; the
shape of a list is the number of its items followed by theirs. An entry that is no number is a failure
of its own, which comes after that of lists that are ragged.
-/

namespace Minimization

/-- Entries and arrays nested in lists. -/
inductive Nested (α : Type) where
  | entry (x : Except Failure α)
  | block (t : Tensor α)
  | items (ns : List (Nested α))

namespace Nested

variable {α : Type}

mutual

/-- The shape, if all items of every list have one shape. -/
def shape? : Nested α → Option (List Nat)
  | entry _ => some []
  | block t => some t.shape
  | items [] => some [0]
  | items (n :: ns) =>
    match n.shape? with
    | none => none
    | some s => if allHave s ns then some ((ns.length + 1) :: s) else none

/-- Whether all items have the shape `s`. -/
def allHave (s : List Nat) : List (Nested α) → Bool
  | [] => true
  | n :: ns => n.shape? == some s && allHave s ns

end

mutual

/-- The entries in order. -/
def entries : Nested α → List (Except Failure α)
  | entry x => [x]
  | block t => t.entries.map .ok
  | items ns => entriesOf ns

/-- The entries of some items in order. -/
def entriesOf : List (Nested α) → List (Except Failure α)
  | [] => []
  | n :: ns => n.entries ++ entriesOf ns

end

end Nested

namespace Tensor

variable {α : Type} [Scalar α]

/-- The array of nested lists. Ragged lists are refused, then the first entry that is no number. -/
def ofNested (p : Precision) (n : Nested α) : Except Failure (Tensor α) := do
  match n.shape? with
  | none => throw .raggedRows
  | some shape =>
    match ofEntries? p shape (← n.entries.mapM id) with
    | some t => return t
    | none => throw .raggedRows

/-- An array that has to be a matrix. -/
def planar (t : Tensor α) : Except Failure (Tensor α) :=
  if t.rank = 2 then .ok t else .error (.size (.notRows t.rank))

end Tensor

end Minimization
