import Minimization.Random.Generator

/-!
# Samples without repetition

`sample k n` draws `k` different numbers below `n`: for each of the last `k` numbers `j` below `n` it
draws a number up to `j`, and takes `j` itself if that number was drawn before. The result is in
increasing order.
-/

namespace Minimization.Random

/-- A number put into an increasing list. -/
def insertInOrder (v : Nat) : List Nat → List Nat
  | [] => [v]
  | x :: xs => if v < x then v :: x :: xs else x :: insertInOrder v xs

/-- Draws a number up to `j` and adds it, or `j` if it is there already. -/
def sampleStep (acc : List Nat × Congruential) (j : Nat) : List Nat × Congruential :=
  let (v, g) := acc.2.upTo j
  (insertInOrder (if acc.1.contains v then j else v) acc.1, g)

/-- `k` different numbers below `n` in increasing order, for `k` up to `n`. -/
def sample (k n : Nat) (g : Congruential) : List Nat :=
  (((List.range k).map (n - k + ·)).foldl sampleStep ([], g)).1

end Minimization.Random
