import Minimization.Random.Seed
import Minimization.Tensor.Basic

/-!
# Random numbers

A `Generator` is either a congruential generator of 128 bits, whose output is the exclusive or of its
two halves, rotated by its top bits, or a script of numbers that are handed out in order. Each draw
gives a number and the generator after it.

`Generator.below` draws uniformly from an interval by rejection; the number of rejections is bounded,
and a draw that is still rejected after so many is taken nevertheless, so every draw lies in the
interval.
-/

namespace Minimization.Random

/-- The state of a congruential generator: its number, its odd increment, and the upper half of the
last output where only the lower half was used. -/
structure Congruential where
  state : Nat
  increment : Nat
  kept : Option Word
  deriving DecidableEq, Repr

/-- The modulus of the generator. -/
def modulus : Nat := Nat.pow 2 128

namespace Congruential

/-- The next state. -/
def step (g : Congruential) : Congruential :=
  { g with state := (g.state * 0x2360ED051FC65DA44385DF649FCCF645 + g.increment) % modulus }

/-- The output of a state. -/
def output (g : Congruential) : UInt64 :=
  let high := (g.state / Nat.pow 2 64).toUInt64
  let low := g.state.toUInt64
  let x := high ^^^ low
  let r := high >>> 58
  (x >>> r) ||| (x <<< ((64 - r) % 64))

/-- The generator of a seed. -/
def ofSeed (seed : List Word) : Congruential :=
  let ws := expand (mixed seed) 8
  let long (i : Nat) : Nat := (ws.getD (2 * i) 0).toNat + (ws.getD (2 * i + 1) 0).toNat * Nat.pow 2 32
  let increment := ((long 2 * Nat.pow 2 64 + long 3) * 2 + 1) % modulus
  let first : Congruential := step ⟨0, increment, none⟩
  step { first with state := (first.state + long 0 * Nat.pow 2 64 + long 1) % modulus }

/-- The next sixty-four bits. -/
def next64 (g : Congruential) : UInt64 × Congruential :=
  let g := g.step
  (g.output, g)

/-- The next thirty-two bits: the kept half if there is one, otherwise the lower half of the next
output, whose upper half is kept. -/
def next32 (g : Congruential) : Word × Congruential :=
  match g.kept with
  | some w => (w, { g with kept := none })
  | none =>
    let (x, g) := g.next64
    (x.toUInt32, { g with kept := some (x >>> 32).toUInt32 })

/-- So many draws are rejected at most. -/
def mostRejections : Nat := 1024

/-- A product whose lower half is not below the threshold; draws again until there is one. -/
def accept (threshold factor : Nat) : Nat → Nat × Congruential → Nat × Congruential
  | 0, draw => draw
  | fuel + 1, (m, g) =>
    if m % Nat.pow 2 32 < threshold then
      let (w, g) := g.next32
      accept threshold factor fuel (w.toNat * factor, g)
    else (m, g)

/-- A number from `0` to `greatest`, each equally likely. Nothing is drawn for a single number. -/
def upTo (greatest : Nat) (g : Congruential) : Nat × Congruential :=
  if greatest = 0 then (0, g)
  else
    let factor := greatest + 1
    let (w, g) := g.next32
    let m := w.toNat * factor
    let threshold := (Nat.pow 2 32 - 1 - greatest) % factor
    let (m, g) :=
      if m % Nat.pow 2 32 < factor then accept threshold factor mostRejections (m, g) else (m, g)
    (m / Nat.pow 2 32, g)

/-- A number from the unit interval. -/
def unit (g : Congruential) : Float × Congruential :=
  let (x, g) := g.next64
  (Decimal.nearest false (x >>> 11).toNat (Nat.pow 2 53), g)

end Congruential

/-- A source of random numbers. -/
inductive Generator where
  | congruential (g : Congruential)
  | script (numbers : List Value)

namespace Generator

/-- The numbers published by solvers lie below this. -/
def publishedBound : Nat := Nat.pow 2 31 - 1

/-- The generator of a seed. -/
def ofSeed (seed : Value) : Except Failure Generator := do
  return .congruential (.ofSeed (← seedWords seed))

/-- The generator for runs that nobody wants to repeat. -/
def unseeded : Generator := .congruential (.ofSeed [0])

/-- The next number from `0` to just below `publishedBound`. -/
def integer : Generator → Except Failure (Int × Generator)
  | .congruential g =>
    let drawn := g.upTo (publishedBound - 1)
    .ok (drawn.1, .congruential drawn.2)
  | .script [] => .error .outOfRange
  | .script (v :: rest) => do
    return (← v.toInt, .script rest)

/-- The first `count` numbers of a script. -/
def scripted (count : Nat) (numbers : List Value) : Except Failure (List Float × Generator) :=
  if numbers.length < count then .error .exhausted
  else do
    return (← (numbers.take count).mapM Value.toReal, .script (numbers.drop count))

/-- `count` numbers from the unit interval. -/
def units (count : Nat) : Generator → Except Failure (List Float × Generator)
  | .congruential g => do
    Tensor.room [count]
    return draw count g
  | .script numbers => scripted count numbers
where
  /-- Draws one number after the other. -/
  draw : Nat → Congruential → List Float × Generator
    | 0, g => ([], .congruential g)
    | count + 1, g =>
      let (x, g) := g.unit
      let (xs, g) := draw count g
      (x :: xs, g)

/-- `count` normally distributed numbers, which only a script has. -/
def normals (count : Nat) : Generator → Except Failure (List Float × Generator)
  | .congruential _ => .error .exhausted
  | .script numbers => scripted count numbers

end Generator

end Minimization.Random
