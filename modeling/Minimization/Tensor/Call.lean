import Minimization.Tensor.Access
import Minimization.Tensor.Reduction
import Minimization.Tensor.Store

/-!
# Operations on stored arrays

Every operation is a `Call`; `Call.effect` says what it does (a new array, new contents for the array
of its first operand, or just an answer), and `Effect.apply` does it. A call that fails has no effect,
unless it sets the entries at several positions and fails at one of them.
-/

namespace Minimization

/-- What a call answers. -/
inductive Outcome (α : Type) where
  | array (handle : Handle)
  | number (x : α)
  | count (n : Nat)

/-- What a call does to a store. -/
inductive Effect (α : Type) where
  | fresh (t : Tensor α)
  | update (handle : Handle) (t : Tensor α)
  /-- New contents, which are not what they were meant to be. -/
  | cut (handle : Handle) (t : Tensor α) (e : Failure)
  | number (x : α)
  | count (n : Nat)

/-- The result of arithmetic: a new array, or a number if it has no extents. -/
def Effect.ofArithmetic {α : Type} (t : Tensor α) : Effect α :=
  match t.shape, t.entries with
  | [], [x] => .number x
  | _, _ => .fresh t

/-- New contents for an array, as far as they were brought. -/
def Effect.ofEach {α : Type} (h : Handle) : Tensor α × Option Failure → Effect α
  | (t, none) => .update h t
  | (t, some e) => .cut h t e

/-- The operations on stored arrays. -/
inductive Call (α : Type) where
  | number (x : α)
  | vector (items : List (Source α))
  | matrix (rows : Int) (items : List (Source α))
  | ofRows (rows : Source α)
  | zeros (rows : Int) (columns : Option Int)
  | identity (n : Int) (s : Factor α)
  | drawn (rows : Int) (columns : Option Int) (source : Nat → Except Failure (List α))
  | rowCount (a : Handle)
  | columnCount (a : Handle)
  | size (a : Handle)
  | add (a b : Handle)
  | addNumber (a : Handle) (s : α)
  | sub (a b : Handle)
  | subNumber (a : Handle) (s : α)
  | addInPlace (a b : Handle)
  | subInPlace (a b : Handle)
  | scale (a : Source α) (s : Factor α)
  | scaleInPlace (a : Handle) (s : Factor α)
  | multiply (a b : Handle)
  | product (a b : Handle)
  | transpose (a : Handle)
  | mapInPlace (a : Handle) (f : α → Except Failure α)
  | inner (a b : Handle)
  | sum (a : Source α)
  | normSquared (a : Handle)
  | norm (a : Handle)
  | dist (a b : Handle)
  | distNumber (a : Handle) (s : α)
  | normalize (a : Source α) (threshold : Except Failure α)
  | normalizeInPlace (a : Handle) (threshold : Except Failure α)
  | get (a : Handle) (i : Int)
  /-- Without a position nothing is set. -/
  | setInPlace (a : Handle) (position : Option Int) (x : Except Failure α)
  | setEachInPlace (a : Handle) (positions : List Int) (x : α)
  | copy (a : Source α)
  | toVector (a : Source α)
  | toPlane (a : Handle)

namespace Call

variable {α : Type} [Scalar α]

/-- What a call does, when new arrays are kept with precision `p`. -/
def effect (p : Precision) (s : Store α) : Call α → Except Failure (Effect α)
  | number x => .ok (.number x)
  | vector sources => return .fresh (← s.gather p sources)
  | matrix rows sources => do
    unless Tensor.FillsRows rows sources.length do throw (Tensor.unfilledRows rows sources.length)
    let t ← s.gather p sources
    if t.size ≠ sources.length then throw .incompatibleShapes
    return .fresh (← Tensor.matrix p rows t.entries)
  | ofRows rows => do return .fresh (← ((← s.array rows).convert p).planar)
  | zeros rows columns => return .fresh (← Tensor.zeros p rows columns)
  | identity n x => do
    return .fresh (← s.times (← Tensor.identity p n) x)
  | drawn rows columns source => return .fresh (← Tensor.drawn p rows columns source)
  | rowCount a => do return .count (← (← s.fetch a).rowCount)
  | columnCount a => do return .count (← (← s.fetch a).columnCount)
  | size a => do return .count (← s.fetch a).size
  | add a b => do return .ofArithmetic (← (← s.fetch a).add (← s.fetch b))
  | addNumber a x => do return .ofArithmetic ((← s.fetch a).addNumber x)
  | sub a b => do return .ofArithmetic (← (← s.fetch a).sub (← s.fetch b))
  | subNumber a x => do return .ofArithmetic ((← s.fetch a).subNumber x)
  | addInPlace a b => do return .update a (← (← s.fetch a).addInto (← s.fetch b))
  | subInPlace a b => do return .update a (← (← s.fetch a).subInto (← s.fetch b))
  | scale a x => do return .ofArithmetic (← s.times (← s.array a) x)
  | scaleInPlace a x => do return .update a (← s.timesInto (← s.fetch a) x)
  | multiply a b => do return .ofArithmetic (← (← s.fetch a).multiply (← s.fetch b))
  | product a b => do return .fresh (← (← s.fetch a).product p (← s.fetch b))
  | transpose a => do return .fresh (← (← s.fetch a).transpose)
  | mapInPlace a f => do
    let t ← s.fetch a
    return .update a (← t.mapM fun x => return Scalar.round t.precision (← f x))
  | inner a b => do return .number (← (← s.fetch a).inner (← s.fetch b))
  | sum a => do return .number (← s.array a).sum
  | normSquared a => do return .number (← s.fetch a).normSquared
  | norm a => do return .number (← s.fetch a).norm
  | dist a b => do return .number (← (← s.fetch a).dist (← s.fetch b))
  | distNumber a x => do return .number ((← s.fetch a).subNumber x).norm
  | normalize a threshold => do
    return .fresh (← ((← s.array a).convert p).normalizeAbove (← threshold))
  | normalizeInPlace a threshold => do
    return .update a (← (← s.fetch a).normalizeAbove (← threshold))
  | get a i => do return .number (← (← s.fetch a).get i)
  | setInPlace a none _ => return .update a (← s.fetch a)
  | setInPlace a (some i) x => do return .update a (← (← s.fetch a).set i x)
  | setEachInPlace a positions x => return .ofEach a ((← s.fetch a).setEach x positions)
  | copy a => do return .fresh ((← s.array a).convert p)
  | toVector a => do return .fresh (← s.array a).toVector
  | toPlane a => do return .fresh (← s.fetch a).toPlane

end Call

/-- The answer of an effect, and the store after it: a new array comes under a new handle, an update keeps
its handle. -/
def Effect.apply {α : Type} (s : Store α) : Effect α → Except Failure (Outcome α) × Store α
  | fresh t => (.ok (.array s.arrays.length), ⟨s.arrays ++ [t]⟩)
  | update h t => (.ok (.array h), ⟨s.arrays.set h t⟩)
  | cut h t e => (.error e, ⟨s.arrays.set h t⟩)
  | number x => (.ok (.number x), s)
  | count n => (.ok (.count n), s)

/-- Carries out a call. -/
def Call.run {α : Type} [Scalar α] (p : Precision) (s : Store α) (c : Call α) :
    Except Failure (Outcome α) × Store α :=
  match c.effect p s with
  | .error e => (.error e, s)
  | .ok e => e.apply s

end Minimization
