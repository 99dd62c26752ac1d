import Minimization.Function.Basic
import Minimization.Linear.Singular
import Minimization.Tensor.Stretch
import Minimization.Random.Sample
import Minimization.Value.Access
import Minimization.Value.Arithmetic

/-!
# Least squares over a batch of rows

The loss `‖A x - b‖² / (2 n)` over some rows of the data. Which rows is decided by a published number:
it seeds a sample of as many rows as a batch has. Without a number, or when a batch is as large as the
data, all rows are used. The rows drawn last are kept with their number and drawn again only for another
one.
-/

namespace Minimization

/-- A design matrix, its targets and the number of rows in a batch, which is a value as it was
configured. -/
structure LeastSquares (α : Type) where
  design : Tensor α
  targets : Tensor α
  batchSize : Value

/-- The rows drawn last, and the number they were drawn for. -/
structure Batch where
  number : Value
  rows : List Nat

/-- No rows drawn yet. -/
def Batch.none : Batch := ⟨.null, []⟩

namespace LeastSquares

variable {α : Type} [Scalar α]

/-- The rows of a batch that are drawn without being told otherwise. -/
def defaultBatchSize : Value := .int 32

/-- The least squares problem of a matrix and a vector of one target for every row. -/
def of (design targets : Tensor α) (batchSize : Value) : Except Failure (LeastSquares α) :=
  match design.shape with
  | [n, _] =>
    if targets.shape ≠ [n] then .error (.argument (.targetShape n targets.shape))
    else do
      batchSize.atLeastOne fun size => .argument (.batchSize size)
      return ⟨design.convert .double, targets.convert .double, batchSize⟩
  | shape => .error (.argument (.designRank shape.length))

/-- The number of rows. -/
def sampleCount (o : LeastSquares α) : Nat := o.design.shape.headD 0

/-- The number of variables. -/
def dimension (o : LeastSquares α) : Nat := (o.design.shape.drop 1).headD 0

/-- All rows. -/
def allRows (o : LeastSquares α) : List Nat := List.range o.sampleCount

/-- The number of rows to draw, which has to be whole. A float below zero is refused as such. -/
def drawSize (o : LeastSquares α) : Except Failure Nat :=
  match o.batchSize with
  | .int n => if n < 0 then .error .impossibleExtent else .ok n.toNat
  | .real x => .error (if -1.0 < x then .wrongType else .impossibleExtent)
  | _ => .error .wrongType

/-- The rows drawn for a number. -/
def drawRows (o : LeastSquares α) (number : Value) : Except Failure (List Nat) := do
  let seed ← Random.seedWords number
  return Random.sample (← o.drawSize) o.sampleCount (.ofSeed seed)

/-- Whether a batch is as large as the data. -/
def coversAll (o : LeastSquares α) : Except Failure Bool := (Value.int o.sampleCount).isAtMost o.batchSize

/-- The rows of the current batch, for a published number. -/
def batchRows (o : LeastSquares α) (number : Value) : ExceptT Failure (StateM Batch) (List Nat) := do
  match number with
  | .null => return o.allRows
  | number =>
    if ← o.coversAll then return o.allRows
    else
      let last ← get
      if number.agrees last.number then return last.rows
      else
        let rows ← o.drawRows number
        set (⟨number, rows⟩ : Batch)
        return rows

/-- Some rows of a matrix. -/
def selectRows (t : Tensor α) (rows : List Nat) : Except Failure (Tensor α) :=
  let width := volume (t.shape.drop 1)
  let blocks := (Tensor.blocks width (t.shape.headD 0) t.entries).toArray
  match Tensor.ofEntries? t.precision (rows.length :: t.shape.drop 1)
      (rows.filterMap fun i => blocks[i]?).flatten with
  | some t => .ok t
  | none => .error .outOfRange

/-- What is left of the targets of some rows. -/
def residual (design targets x : Tensor α) : Except Failure (Tensor α) := do
  (← design.productOf x).stretched (· - ·) targets

/-- The loss over rows given by their design and targets. -/
def lossOver (design targets x : Tensor α) : Except Failure α := do
  let r ← residual design targets x
  let square ← (← r.productOf r).toNumber
  return Scalar.half * square / Scalar.nat targets.size

/-- The gradient of the loss over rows given by their design and targets. -/
def gradOver (design targets x : Tensor α) : Except Failure (Tensor α) := do
  let r ← residual design targets x
  return (← design.reversed.productOf r).map (· / Scalar.nat targets.size)

/-- The loss over the current batch. -/
def loss (o : LeastSquares α) (number : Value) (x : Tensor α) : ExceptT Failure (StateM Batch) α := do
  let rows ← o.batchRows number
  let design ← selectRows o.design rows
  let targets ← selectRows o.targets rows
  lossOver design targets x

/-- The gradient of the loss over the current batch. -/
def grad (o : LeastSquares α) (number : Value) (x : Tensor α) :
    ExceptT Failure (StateM Batch) (Tensor α) := do
  let rows ← o.batchRows number
  let design ← selectRows o.design rows
  let targets ← selectRows o.targets rows
  gradOver design targets x

/-- The loss over all rows. -/
def fullLoss (o : LeastSquares α) (x : Tensor α) : Except Failure α := lossOver o.design o.targets x

/-- The solution over all rows; of several the one of least norm. Singular values below the rounding
error of the largest one count as zero. A matrix has singular values only if all its entries are finite;
targets that are not finite leave no entry of the solution a number. -/
def solution (o : LeastSquares α) : Except Failure (Tensor α) :=
  let n := o.dimension
  let entries := o.design.entries
  let targets := o.targets.entries
  let unit := Linear.unitFor entries
  let columns := Tensor.columns n (Tensor.blocks n o.sampleCount (entries.map (· / unit)))
  let negligible : α := Scalar.nat (max o.sampleCount n) / Scalar.pow Scalar.two 52
  if !entries.all Scalar.isFinite then .error .noSingularValues
  else if targets.all Scalar.isFinite || entries.all (Scalar.same Scalar.zero) then
    .ok (.vector .double ((Linear.leastNormSolution negligible columns targets).map (· / unit)))
  else .ok (.vector .double (List.replicate n (Scalar.infinity - Scalar.infinity)))

/-- The loss as a function with its gradient. The number is read and the kept rows are used by
`run`. -/
def asFunction {m : Type → Type} [Monad m] (o : LeastSquares α) (published : m Value)
    (run : {β : Type} → StateM Batch β → m β) : ScalarFunction m α :=
  .withGradient
    (some fun x => ExceptT.mk (do
      let number ← published
      run (do return (← (o.loss number x).run).map .ofNumber)))
    (some (.field (some fun x => ExceptT.mk (do
      let number ← published
      run (o.grad number x).run))))

end LeastSquares

/-- Synthetic data: a design, targets that follow a linear model up to noise, and the model. -/
structure RegressionData where
  design : Tensor Float
  targets : Tensor Float
  model : Tensor Float

/-- The noise of data that is not given any. -/
def RegressionData.defaultNoise : Float := 0.1

/-- Random data of `count` rows in `dimension` variables. -/
def RegressionData.random (count dimension : Value) (noise : Float) (g : Random.Generator) :
    Except Failure RegressionData := do
  count.atLeastOne fun words => .argument (.sampleCount words)
  dimension.atLeastOne fun words => .argument (.dataDimension words)
  if noise < 0.0 then throw (.argument (.noise noise))
  let n := (← count.toExtent).toNat
  let d := (← dimension.toExtent).toNat
  let (entries, g) ← g.normals (n * d)
  let (model, g) ← g.normals d
  let (errors, _) ← g.normals n
  match Tensor.ofEntries? .double [n, d] entries with
  | none => throw .exhausted
  | some design =>
    let model := Tensor.vector .double model
    let exact ← design.productOf model
    let targets ← exact.stretched (· + ·) ((Tensor.vector .double errors).map (noise * ·))
    return ⟨design, targets, model⟩

end Minimization
