import Minimization.Value.Basic

/-!
# Seeds

A seed is a natural number of any size, or a list of them, written in words of thirty-two bits with
the least significant word first. `mixed` stirs the words into a pool of four, and `expand` draws as
many well mixed words from the pool as a generator needs.
-/

namespace Minimization.Random

/-- A word of thirty-two bits. -/
abbrev Word := UInt32

/-- The words of a natural number, least significant first; zero has one word. -/
def wordsOf (n : Nat) : List Word :=
  if h : n < Nat.pow 2 32 then [n.toUInt32]
  else
    have : n / Nat.pow 2 32 < n :=
      Nat.div_lt_self (Nat.lt_of_lt_of_le (by decide) (Nat.le_of_not_lt h)) (by decide)
    n.toUInt32 :: wordsOf (n / Nat.pow 2 32)

mutual

/-- The words of a seed inside a list of seeds; a text has to hold a natural number. -/
def partWords : Value → Except Failure (List Word)
  | .bool b => .ok [if b then 1 else 0]
  | .int n => if n < 0 then .error .negativeSeed else .ok (wordsOf n.toNat)
  | .text s =>
    match Decimal.wholeNumber? s.toList with
    | some n => if n < 0 then .error .unreadable else .ok (wordsOf n.toNat)
    | none => .error .unreadable
  | .list items => partsWords items
  | _ => .error .wrongType

/-- The words of several seeds one after the other. -/
def partsWords : List Value → Except Failure (List Word)
  | [] => .ok []
  | v :: vs => do
    let ws ← partWords v
    return ws ++ (← partsWords vs)

end

/-- The words of a seed: a natural number or a list. -/
def seedWords (v : Value) : Except Failure (List Word) :=
  match v with
  | .text _ => .error .wrongType
  | v => partWords v

/-- One step of mixing: the word, and the multiplier for the next one. -/
def hash (factor multiplier value : Word) : Word × Word :=
  let next := multiplier * factor
  let v := (value ^^^ multiplier) * next
  (v ^^^ (v >>> 16), next)

/-- Two words stirred into one. -/
def stir (x y : Word) : Word :=
  let r := 0xca01f9dd * x - 0x4973f715 * y
  r ^^^ (r >>> 16)

/-- The number of words in a pool. -/
def poolSize : Nat := 4

/-- A pool and the current multiplier. -/
structure Pool where
  words : List Word
  multiplier : Word

/-- Stirs the hash of a value into the pool word at `target`. -/
def Pool.absorb (p : Pool) (value : Word) (target : Nat) : Pool :=
  let (h, next) := hash 0x931e8875 p.multiplier value
  ⟨p.words.modify target (stir · h), next⟩

/-- The hashed first words of a seed. -/
def Pool.start (seed : List Word) : Pool :=
  (List.range poolSize).foldl
    (fun p i =>
      let (h, next) := hash 0x931e8875 p.multiplier (seed.getD i 0)
      ⟨p.words ++ [h], next⟩)
    ⟨[], 0x43b0d7e5⟩

/-- The pool of a seed: every word of the pool is stirred into every other one, then the remaining
words of the seed into all of them. -/
def mixed (seed : List Word) : List Word :=
  let targets := List.range poolSize
  let p := targets.foldl
    (fun p source =>
      (targets.filter (· != source)).foldl (fun p target => p.absorb (p.words.getD source 0) target) p)
    (Pool.start seed)
  let p := (seed.drop poolSize).foldl
    (fun p w => targets.foldl (fun p target => p.absorb w target) p) p
  p.words

/-- The first `count` words drawn from a pool. -/
def expand (pool : List Word) (count : Nat) : List Word :=
  ((List.range count).foldl
    (fun (acc : List Word × Word) i =>
      let (h, next) := hash 0x58f38ded acc.2 (pool.getD (i % poolSize) 0)
      (acc.1 ++ [h], next))
    ([], 0x8b51f9dd)).1

end Minimization.Random
