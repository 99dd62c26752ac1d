import Minimization.Problem.Basic
import Minimization.Proofs.Exact.Vector
import Minimization.Proofs.Perform

/-!
# Problems as functions on Euclidean space

A `Landscape` is a function on Euclidean space together with a field that stands for its gradient. A
problem realizes an objective and a list of constraints, each of them a landscape, if its functions
have their values and its gradients their fields at the arrays of one shape. Nothing ties a field to
the function beside it: what is proved of a landscape holds for a wrong gradient as well, up to the
`remainder`, the error of the first-order model.

Realizing is stated for the arrays of one shape, since functions may treat arrays of other shapes as they
like. A run never leaves that shape, which is shown where runs are.
-/

namespace Minimization

open ExactScalar
open scoped RealInnerProductSpace

variable {n : Nat} {shape : List Nat}

/-- A function that answers with a number has that number as its value. -/
theorem ScalarFunction.evaluate_ofNumber {α : Type} [Scalar α] (e : Tensor α → Evaluation Id α)
    (dc : Option (VectorFunction Id α)) (x : Tensor α) :
    (ScalarFunction.withGradient (some fun x => do return .ofNumber (← e x)) dc).evaluate x
      = e x := by
  show ((e x >>= fun a => pure (Answer.ofNumber a)) >>= fun r =>
    (liftM r.converted : Evaluation Id α)) = e x
  rw [bind_assoc]
  exact bind_pure (e x)

/-- A function on Euclidean space with a field that stands for its gradient. -/
structure Landscape (n : Nat) where
  value : Point n → ℝ
  field : Point n → Point n

namespace Landscape

/-- What the first-order model at `v` misses of the value at `w`. -/
noncomputable def remainder (f : Landscape n) (v w : Point n) : ℝ :=
  f.value w - f.value v - ⟪f.field v, w - v⟫

/-- The first-order model is nowhere above the function. -/
def IsConvex (f : Landscape n) : Prop := ∀ v w, f.value v + ⟪f.field v, w - v⟫ ≤ f.value w

/-- At arrays of a shape a function has the values of the landscape and a gradient its field. -/
structure RealizedBy {α : Type} [ExactScalar α] (f : Landscape n) (shape : List Nat)
    (c : ScalarFunction Id α) (dc : VectorFunction Id α) : Prop where
  value : ∀ {x v}, x.Represents shape v → c.evaluate x = pure (ofReal (f.value v))
  field : ∀ {x v}, x.Represents shape v →
    ∃ g, dc.evaluate x = pure g ∧ g.Represents shape (f.field v)

/-- The function of a landscape. -/
noncomputable def toScalar (f : Landscape n) : ScalarFunction Id ℝ :=
  .plain (some fun x => pure (.ofNumber (f.value (x.toPoint n))))

/-- The gradient of a landscape. -/
noncomputable def toVector (f : Landscape n) : VectorFunction Id ℝ :=
  .field (some fun x => pure (.ofPoint .double (f.field (x.toPoint n))))

theorem realizedBy_toVector (f : Landscape n) : f.RealizedBy [n] f.toScalar f.toVector where
  value hx := by rw [← hx.toPoint_eq]; rfl
  field hx := ⟨_, rfl, by rw [hx.toPoint_eq]; exact Tensor.represents_ofPoint _ _⟩

end Landscape

namespace Problem

section Realizes

theorem constraintPairs_fst {α : Type} (p : Problem Id α) :
    p.constraintPairs.map Prod.fst = p.constraints :=
  List.map_fst_zip p.length_gradients.le

variable {α : Type} [ExactScalar α] {p : Problem Id α} {f : Landscape n} {gs : List (Landscape n)}

/-- The functions of the problem are those of an objective and of constraints. -/
structure Realizes (p : Problem Id α) (shape : List Nat) (f : Landscape n)
    (gs : List (Landscape n)) : Prop where
  objective : f.RealizedBy shape p.objective p.gradient
  constraints : List.Forall₂ (fun c g => Landscape.RealizedBy g shape c.1 c.2) p.constraintPairs gs

/-- A problem has the constraints of its landscape, one for one. -/
theorem Realizes.constraintCount_eq (hp : p.Realizes shape f gs) :
    p.constraintCount = gs.length := by
  rw [constraintCount, ← hp.constraints.length_eq, ← constraintPairs_fst, List.length_map]

/-- Constraints that are evaluated one after the other give the values of the landscape in order. -/
theorem mapM_evaluate_eq {cs : List (ScalarFunction Id α × VectorFunction Id α)}
    (h : List.Forall₂ (fun c g => Landscape.RealizedBy g shape c.1 c.2) cs gs) {x : Tensor α}
    {v : Point n} (hx : x.Represents shape v) :
    ((cs.map Prod.fst).mapM fun c => c.evaluate x) = pure (gs.map fun g => ofReal (g.value v)) := by
  induction h with
  | nil => rfl
  | cons hc _ ih =>
    rw [List.map_cons, List.mapM_cons, hc.value hx, pure_bind, ih]
    rfl

/-- The values of the constraints are those of the landscapes. -/
theorem Realizes.constraintValues (hp : p.Realizes shape f gs) {x : Tensor α} {v : Point n}
    (hx : x.Represents shape v) :
    p.constraintValues x = pure (gs.map fun g => ofReal (g.value v)) := by
  rw [Problem.constraintValues, ← constraintPairs_fst]
  exact mapM_evaluate_eq hp.constraints hx

end Realizes

/-- The problem of an objective and constraints on Euclidean space of a positive dimension. -/
noncomputable def euclidean (f : Landscape n) (gs : List (Landscape n))
    (hn : (Value.int n).isBelow (.int 1) = .ok false) : Problem Id ℝ where
  dimension := .int n
  objective := f.toScalar
  gradient := f.toVector
  constraints := gs.map Landscape.toScalar
  constraintGradients := gs.map Landscape.toVector
  one_le_dimension := hn
  length_gradients := by rw [List.length_map, List.length_map]

theorem realizes_euclidean (f : Landscape n) (gs : List (Landscape n))
    (hn : (Value.int n).isBelow (.int 1) = .ok false) :
    (euclidean f gs hn).Realizes [n] f gs where
  objective := f.realizedBy_toVector
  constraints := by
    rw [constraintPairs, euclidean, List.zip_map']
    induction gs with
    | nil => exact .nil
    | cons g gs ih => exact .cons g.realizedBy_toVector ih

end Problem

end Minimization
