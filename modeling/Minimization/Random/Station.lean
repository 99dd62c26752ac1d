import Minimization.Cell
import Minimization.Random.Generator
import Minimization.Tensor.Basic

/-!
# Publishing random numbers

A stochastic solver draws one number in every iteration and publishes it in a cell, where objectives
read which part of their data to use. A `Station` is the solver's generator with that cell.
-/

namespace Minimization.Random

/-- A generator and the cell its numbers are published in. -/
structure Station where
  generator : Generator
  cell : Cell Value

namespace Station

variable {m : Type → Type} [Monad m]

/-- Draws the next number. -/
def draw : ExceptT Failure (StateT Station m) Int := do
  let s ← getThe Station
  match s.generator.integer with
  | .error e => throw e
  | .ok (n, g) =>
    set { s with generator := g }
    return n

/-- Draws a vector or a matrix from the unit interval. -/
def array (rows : Int) (columns : Option Int) : ExceptT Failure (StateT Station m) (Tensor Float) := do
  let s ← getThe Station
  let drawn : Except Failure (Tensor Float × Generator) := do
    let shape ← Tensor.planarShape rows columns
    let (numbers, g) ← s.generator.units (volume shape)
    return (← Tensor.drawn .double rows columns fun _ => .ok numbers, g)
  match drawn with
  | .error e => throw e
  | .ok (t, g) =>
    set { s with generator := g }
    return t

/-- Stores a value in the cell and tells its listeners. -/
def store (b : Behaviour Value) (v : Value) : ExceptT Failure (StateT Station m) Unit :=
  ExceptT.mk (do
    let s ← getThe Station
    let (r, cell) := (Cell.set b v).run.run s.cell
    set { s with cell }
    return r)

/-- Draws the next number and publishes it. -/
def publish (b : Behaviour Value) : ExceptT Failure (StateT Station m) Int := do
  let n ← draw
  store b (.int n)
  return n

end Station

end Minimization.Random
