import Minimization.Proofs.Tensor.Defined

/-!
# Numbers that are not below zero

Square roots are taken of numbers that are not below zero, and quotients by numbers that are not zero.
`Scalar.KeepsSigns` says what arithmetic has to respect for a moment descent to stay clear of both: what
is not below zero stays so under rounding, sums, products and square roots, a positive term keeps a sum
from being zero, and what is below one leaves something of it. Nothing is said about how the operations
round otherwise, and what is not a number is not below zero either.

Arrays none of whose entries is below zero are then closed under the operations that make moments.
-/

namespace Minimization

variable {α : Type} [Scalar α]

namespace Scalar

/-- A number that is not below zero, or something that is not a number. -/
def NotNegative (a : α) : Prop := lt a zero = false

/-- Arithmetic that keeps signs. -/
structure KeepsSigns (α : Type) [Scalar α] : Prop where
  of_le : ∀ {a : α}, le zero a = true → NotNegative a
  round : ∀ (p : Precision) {a : α}, NotNegative a → NotNegative (round p a)
  add : ∀ {a b : α}, NotNegative a → NotNegative b → NotNegative (a + b)
  mul : ∀ {a b : α}, NotNegative a → NotNegative b → NotNegative (a * b)
  square : ∀ a : α, NotNegative (a * a)
  mul_zero : ∀ (p : Precision) (a : α), NotNegative (a * Scalar.round p zero)
  sqrt : ∀ {a : α}, NotNegative a → NotNegative (sqrt a)
  add_pos : ∀ {a b : α}, NotNegative a → lt zero b = true → same (a + b) zero = false
  complement : ∀ {a : α}, lt a one = true → NotNegative (one - a) ∧ same (one - a) zero = false
  power : ∀ {a : α} {n : Nat}, 1 ≤ n → le zero a = true → lt a one = true →
    ∃ b, power a n = .ok b ∧ lt b one = true

theorem squareRoot_of_notNegative {a : α} (h : NotNegative a) : squareRoot a = .ok (sqrt a) := by
  rw [squareRoot, show lt a zero = false from h]
  rfl

end Scalar

namespace Tensor

/-- No entry is below zero. -/
def NotNegative (t : Tensor α) : Prop := ∀ a ∈ t.entries, Scalar.NotNegative a

section Signs

variable (hs : Scalar.KeepsSigns α) {x y z : Tensor α}
include hs

theorem notNegative_scale_zero (x : Tensor α) : (x.scale Scalar.zero).NotNegative := by
  intro a ha
  obtain ⟨b, -, rfl⟩ := List.mem_map.mp ha
  exact hs.round _ (hs.mul_zero _ b)

theorem NotNegative.scale (hx : x.NotNegative) {c : α} (hc : Scalar.NotNegative c) :
    (x.scale c).NotNegative := by
  intro a ha
  obtain ⟨b, hb, rfl⟩ := List.mem_map.mp ha
  exact hs.round _ (hs.mul (hx b hb) (hs.round _ hc))

theorem NotNegative.convert (hx : x.NotNegative) (p : Precision) : (x.convert p).NotNegative := by
  intro a ha
  obtain ⟨b, hb, rfl⟩ := List.mem_map.mp ha
  exact hs.round _ (hx b hb)

theorem notNegative_of_multiply_self_ok (h : x.multiply x = .ok z) : z.NotNegative := by
  unfold multiply combine at h
  rw [dif_pos rfl] at h
  obtain rfl := Except.ok.inj h
  intro a ha
  obtain ⟨k, hk⟩ := List.mem_iff_getElem?.mp ha
  obtain ⟨b, b', hb, hb', rfl⟩ := List.getElem?_zipWith_eq_some.mp hk
  obtain rfl := Option.some.inj (hb.symm.trans hb')
  exact hs.round _ (hs.square b)

theorem NotNegative.of_moveBy_ok (hx : x.NotNegative) (hy : y.NotNegative)
    (h : x.moveBy y = .ok z) : z.NotNegative := by
  unfold moveBy at h
  split at h
  next s _ he =>
    obtain rfl := Except.ok.inj h
    intro a ha
    obtain ⟨b, hb, rfl⟩ := List.mem_map.mp ha
    exact hs.round _ (hs.add (hx b hb) (hs.round _ (hy s (he ▸ List.mem_singleton_self s))))
  next =>
    unfold add combine at h
    split at h
    next =>
      obtain rfl := Except.ok.inj h
      intro a ha
      obtain ⟨k, hk⟩ := List.mem_iff_getElem?.mp ha
      obtain ⟨b, c, hb, hc, rfl⟩ := List.getElem?_zipWith_eq_some.mp hk
      exact hs.round _ (hs.add (hx b (List.mem_of_getElem? hb)) (hy c (List.mem_of_getElem? hc)))
    next => cases h

end Signs

end Tensor

end Minimization
