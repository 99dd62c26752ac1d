import Mathlib.Analysis.SpecialFunctions.Log.Basic
import Mathlib.Data.EReal.Inv
import Minimization.Scalar

/-!
# Exact numbers

`Scalar` states no laws. An `ExactScalar` contains the real numbers, and computes with them without
rounding; what it does outside the image of `ofReal` is left open. The real numbers are such numbers
themselves. An `ExtendedScalar` has in addition an infinity that no real number reaches: the
extended reals are the model, and the value of a barrier outside the feasible set.

An algorithm that is run on exact numbers and never leaves the image of `ofReal` therefore computes
what its formulas say. The lemmas below say so for the derived operations of `Scalar`.
-/

namespace Minimization

/-- Numbers that contain the real numbers and compute with them exactly. -/
class ExactScalar (α : Type) extends Scalar α where
  /-- A real number among the numbers. -/
  ofReal : ℝ → α
  ofReal_add (x y : ℝ) : ofReal (x + y) = ofReal x + ofReal y
  ofReal_sub (x y : ℝ) : ofReal (x - y) = ofReal x - ofReal y
  ofReal_mul (x y : ℝ) : ofReal (x * y) = ofReal x * ofReal y
  ofReal_div (x : ℝ) {y : ℝ} : y ≠ 0 → ofReal (x / y) = ofReal x / ofReal y
  ofReal_neg (x : ℝ) : ofReal (-x) = -ofReal x
  nat_eq (n : Nat) : nat n = ofReal n
  decimal_eq (digits places : Nat) : decimal digits places = ofReal (digits / 10 ^ places)
  lt_ofReal (x y : ℝ) : lt (ofReal x) (ofReal y) = decide (x < y)
  le_ofReal (x y : ℝ) : le (ofReal x) (ofReal y) = decide (x ≤ y)
  sqrt_ofReal {x : ℝ} : 0 ≤ x → sqrt (ofReal x) = ofReal √x
  log_ofReal {x : ℝ} : 0 < x → log (ofReal x) = ofReal (Real.log x)
  pow_ofReal (x : ℝ) (n : Nat) : pow (ofReal x) n = ofReal (x ^ n)
  isFinite_ofReal (x : ℝ) : isFinite (ofReal x) = true
  round_ofReal (p : Precision) (x : ℝ) : round p (ofReal x) = ofReal x

/-- Exact numbers with an infinity above all real numbers. -/
class ExtendedScalar (α : Type) extends ExactScalar α where
  lt_infinity (x : ℝ) : lt (ofReal x) infinity = true
  le_infinity (x : ℝ) : le infinity (ofReal x) = false

-- Real numbers keep the operations of the library; those of `Scalar` come last.
attribute [instance (low)] Scalar.toAdd Scalar.toSub Scalar.toMul Scalar.toDiv Scalar.toNeg

/-- The real numbers. There is no infinity among them; zero stands in its place. -/
noncomputable instance : ExactScalar ℝ where
  toAdd := inferInstance
  toSub := inferInstance
  toMul := inferInstance
  toDiv := inferInstance
  toNeg := inferInstance
  nat n := n
  decimal digits places := digits / 10 ^ places
  lt a b := decide (a < b)
  le a b := decide (a ≤ b)
  sqrt := Real.sqrt
  log := Real.log
  pow a n := a ^ n
  infinity := 0
  isFinite _ := true
  round _ a := a
  ofReal x := x
  ofReal_add _ _ := rfl
  ofReal_sub _ _ := rfl
  ofReal_mul _ _ := rfl
  ofReal_div _ _ _ := rfl
  ofReal_neg _ := rfl
  nat_eq _ := rfl
  decimal_eq _ _ := rfl
  lt_ofReal _ _ := rfl
  le_ofReal _ _ := rfl
  sqrt_ofReal _ := rfl
  log_ofReal _ := rfl
  pow_ofReal _ _ := rfl
  isFinite_ofReal _ := rfl
  round_ofReal _ _ := rfl

/-- The extended real numbers. Functions that the library only takes of real numbers are extended by
their limits at infinity. -/
noncomputable instance : ExtendedScalar EReal where
  toAdd := inferInstance
  toSub := inferInstance
  toMul := inferInstance
  toDiv := inferInstance
  toNeg := inferInstance
  nat n := ((n : ℝ) : EReal)
  decimal digits places := ((digits / 10 ^ places : ℝ) : EReal)
  lt a b := decide (a < b)
  le a b := decide (a ≤ b)
  sqrt a := if a = ⊤ then ⊤ else (√a.toReal : ℝ)
  log a := if a = ⊤ then ⊤ else (Real.log a.toReal : ℝ)
  pow a n := a ^ n
  infinity := ⊤
  isFinite a := decide (a ≠ ⊤ ∧ a ≠ ⊥)
  round _ a := a
  ofReal x := x
  ofReal_add := EReal.coe_add
  ofReal_sub := EReal.coe_sub
  ofReal_mul := EReal.coe_mul
  ofReal_div x y _ := EReal.coe_div x y
  ofReal_neg := EReal.coe_neg
  nat_eq _ := rfl
  decimal_eq _ _ := rfl
  lt_ofReal _ _ := by simp
  le_ofReal _ _ := by simp
  sqrt_ofReal _ := by simp
  log_ofReal _ := by simp
  pow_ofReal x n := (EReal.coe_pow x n).symm
  isFinite_ofReal x := by simp
  round_ofReal _ _ := rfl
  lt_infinity x := by simp
  le_infinity x := by simp

namespace ExactScalar

variable {α : Type} [ExactScalar α]

@[simp] theorem ofReal_real (x : ℝ) : (ofReal x : ℝ) = x := rfl

theorem zero_eq : (Scalar.zero : α) = ofReal 0 := by
  rw [Scalar.zero, nat_eq, Nat.cast_zero]

theorem one_eq : (Scalar.one : α) = ofReal 1 := by
  rw [Scalar.one, nat_eq, Nat.cast_one]

theorem two_eq : (Scalar.two : α) = ofReal 2 := by
  rw [Scalar.two, nat_eq, Nat.cast_ofNat]

theorem half_eq : (Scalar.half : α) = ofReal (1 / 2) := by
  rw [Scalar.half, decimal_eq]
  norm_num

theorem same_ofReal (x y : ℝ) : Scalar.same (ofReal x : α) (ofReal y) = decide (x = y) := by
  rw [Scalar.same, le_ofReal, le_ofReal, ← Bool.decide_and]
  exact decide_eq_decide.mpr le_antisymm_iff.symm

/-- Different real numbers stay different. -/
theorem ofReal_injective : Function.Injective (ofReal : ℝ → α) := by
  intro x y h
  have hsame := same_ofReal (α := α) x y
  rw [h, same_ofReal, decide_eq_true rfl] at hsame
  exact of_decide_eq_true hsame.symm

/-- Real numbers are equal to themselves, so that they are numbers. -/
theorem isUndefined_ofReal (x : ℝ) : Scalar.isUndefined (ofReal x : α) = false := by
  simp [Scalar.isUndefined, le_ofReal]

theorem positivePart_ofReal (x : ℝ) :
    Scalar.positivePart (ofReal x : α) = ofReal (max 0 x) := by
  rw [Scalar.positivePart, zero_eq, lt_ofReal]
  rcases lt_or_ge 0 x with h | h
  · rw [if_pos (decide_eq_true h), max_eq_right h.le]
  · rw [if_neg (by simpa using h), max_eq_left h]

theorem max_ofReal (x y : ℝ) :
    Scalar.max (ofReal x : α) (ofReal y) = ofReal (max x y) := by
  rw [Scalar.max, isUndefined_ofReal, le_ofReal, Bool.or_false]
  rcases le_or_gt y x with h | h
  · rw [if_pos (decide_eq_true h), max_eq_left h]
  · rw [if_neg (by simpa using h), max_eq_right h.le]

theorem largest_ofReal (x : ℝ) (xs : List ℝ) :
    Scalar.largest ((x :: xs).map ofReal : List α) = ofReal (xs.foldl max x) := by
  show (xs.map ofReal).foldl Scalar.max (ofReal x : α) = _
  induction xs generalizing x with
  | nil => rfl
  | cons y xs ih =>
    rw [List.map_cons, List.foldl_cons, List.foldl_cons, max_ofReal]
    exact ih _

theorem divide_ofReal (x : ℝ) {y : ℝ} (hy : y ≠ 0) :
    Scalar.divide (ofReal x : α) (ofReal y) = .ok (ofReal (x / y)) := by
  rw [Scalar.divide, zero_eq, same_ofReal, if_neg (by simpa using hy), ofReal_div x hy]

theorem squareRoot_ofReal {x : ℝ} (hx : 0 ≤ x) :
    Scalar.squareRoot (ofReal x : α) = .ok (ofReal √x) := by
  rw [Scalar.squareRoot, zero_eq, lt_ofReal, if_neg (by simpa using hx), sqrt_ofReal hx]

theorem power_ofReal (x : ℝ) (n : Nat) :
    Scalar.power (ofReal x : α) n = .ok (ofReal (x ^ n)) := by
  unfold Scalar.power
  dsimp only
  rw [pow_ofReal, isFinite_ofReal, isFinite_ofReal]
  rfl

theorem logarithm_ofReal {x : ℝ} (hx : 0 < x) :
    Scalar.logarithm (ofReal x : α) = .ok (ofReal (Real.log x)) := by
  rw [Scalar.logarithm, zero_eq, le_ofReal, if_neg (by simpa using hx), log_ofReal hx]

end ExactScalar

end Minimization
