import Minimization.Tensor.Access

/-!
# Histories of descents

A `History` records what a descent does: the positions with their losses, the directions, and the step
sizes that were tried. It only ever grows, and a descent never reads it.
-/

namespace Minimization

/-- Positions, losses, directions and step sizes in the order in which they were recorded. -/
structure History (α : Type) where
  positions : List (Tensor α)
  losses : List α
  directions : List (Tensor α)
  stepSizes : List α

namespace History

variable {α : Type}

/-- Nothing recorded. -/
def empty : History α := ⟨[], [], [], []⟩

/-- The number of recorded positions. -/
def length (h : History α) : Nat := h.positions.length

/-- Records a loss. -/
def addLoss (h : History α) (v : α) : History α := { h with losses := h.losses ++ [v] }

/-- Records a step size. -/
def addStepSize (h : History α) (v : α) : History α := { h with stepSizes := h.stepSizes ++ [v] }

/-- The position recorded last. -/
def lastPosition (h : History α) : Except Failure (Tensor α) :=
  match h.positions.getLast? with
  | some x => .ok x
  | none => .error .outOfRange

/-- The loss recorded last. -/
def finalLoss (h : History α) : Except Failure α :=
  match h.losses.getLast? with
  | some v => .ok v
  | none => .error .outOfRange

variable [Scalar α]

/-- Records a position, in double precision. -/
def addPosition (h : History α) (x : Tensor α) : History α :=
  { h with positions := h.positions ++ [x.convert .double] }

/-- Records a direction, in double precision. -/
def addDirection (h : History α) (d : Tensor α) : History α :=
  { h with directions := h.directions ++ [d.convert .double] }

end History

end Minimization
