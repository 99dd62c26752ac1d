import Minimization.Function.Formula
import Minimization.Objective.LeastSquares
import Minimization.Random.Station

/-!
# Where described functions are evaluated

A described function can read the number that a solver publishes, fail at a chosen evaluation of a
node, and keep the rows drawn for its batch. A `Bench` holds what it needs for that; it also counts the
evaluations that it is told to count.
-/

namespace Minimization

/-- How often nodes have been evaluated, the rows drawn for every batch, and what was counted: the
evaluations of an objective with their points, latest first, and those of a gradient. -/
structure Bench where
  visits : Fields Nat
  batches : Fields Batch
  points : List (Tensor Float)
  gradients : Nat

/-- Nothing evaluated yet. -/
def Bench.empty : Bench := ⟨[], [], [], 0⟩

/-- A computation on a bench, beside a station for random numbers. -/
abbrev OnBench := StateT Random.Station (StateM Bench)

namespace OnBench

/-- The bench. -/
def bench : OnBench Bench := StateT.lift get

/-- Changes the bench. -/
def change (f : Bench → Bench) : OnBench Unit := StateT.lift (modify f)

/-- The published number. -/
def published : OnBench Value := do return (← get).cell.value

/-- Notes an evaluation of a node; the number of its evaluations. -/
def visit (node : Nat) : OnBench Nat := do
  let visits := (← bench).visits
  let count := (visits.get? (toString node)).getD 0 + 1
  change fun b => { b with visits := visits.set (toString node) count }
  return count

/-- What formulas read on a bench. -/
def surroundings : Formula.Surroundings OnBench := ⟨published, visit⟩

/-- A computation on the rows of a batch. -/
def onBatch (number : Nat) {β : Type} (c : StateM Batch β) : OnBench β := do
  let batches := (← bench).batches
  let (r, batch) := c.run ((batches.get? (toString number)).getD .none)
  change fun b => { b with batches := batches.set (toString number) batch }
  return r

/-- The rule with its evaluations counted. -/
def counted (f : Rule OnBench Float) : Rule OnBench Float := fun x => do
  ExceptT.lift (change fun b => { b with points := x :: b.points })
  f x

/-- The field with its evaluations counted. -/
def countedField (f : Field OnBench Float) : Field OnBench Float := fun x => do
  ExceptT.lift (change fun b => { b with gradients := b.gradients + 1 })
  f x

end OnBench

end Minimization
