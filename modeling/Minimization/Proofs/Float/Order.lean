import Mathlib.Data.Prod.Lex
import Mathlib.Order.Compare
import Minimization.Proofs.Float.Signs

/-!
# The order of floats

Floats are compared by their signs, exponents and mantissas. `Unpacked.place?` puts these in a linear order
with a place for every float but the one that is not a number, and comparing floats is comparing places
(`Unpacked.compare_eq`). `Scalar.OrdersNumbers` is what remains of a linear order: numbers are in order, and
every comparison with what is not a number fails, so that only between numbers the negation of a comparison
is the opposite comparison. Sums keep what is not a number, and a sum with a finite summand adds no such
thing.
-/

namespace Minimization

open Float.Model (UnpackedFloat Format)
open Float.Model.UnpackedFloat

namespace Unpacked

/-! ## Places -/

/-- The place of an unpacked float among the others. What is not a number has none. -/
def place? : UnpackedFloat → Option (Int ×ₗ Int ×ₗ Int)
  | .notANumber => none
  | .infinity .negative => some (toLex (-2, toLex (0, 0)))
  | .finite .negative m e _ => some (toLex (-1, toLex (-e, -m)))
  | .zero _ => some (toLex (0, toLex (0, 0)))
  | .finite .positive m e _ => some (toLex (1, toLex (e, m)))
  | .infinity .positive => some (toLex (2, toLex (0, 0)))

theorem compare_natCast (m n : Nat) : compare (m : Int) n = compare m n := by
  rw [Int.compare_eq_ite_lt, Nat.compare_eq_ite_lt]
  simp only [Int.ofNat_lt]

theorem compare_neg (a b : Int) : compare (-a) (-b) = (compare a b).swap := by
  rw [Int.compare_swap, Int.compare_eq_ite_lt, Int.compare_eq_ite_lt]
  simp only [Int.neg_lt_neg_iff]

/-- Comparing is comparing places. -/
theorem compare_eq (u v : UnpackedFloat) :
    u.compare v = (place? u).bind fun p => (place? v).map fun q => compare p q := by
  rcases u with s | _ | s | ⟨s, m, e, hm⟩
  all_goals rcases v with t | _ | t | ⟨t, n, f, hn⟩
  all_goals try cases s
  all_goals try cases t
  -- Signs and infinities decide all cases but two finite floats of one sign.
  all_goals first | rfl | skip
  · show some ((compare e f).then (compare m n)).swap
      = some ((compare (-1 : Int) (-1)).then ((compare (-e) (-f)).then (compare (-m : Int) (-n))))
    rw [compare_neg e, compare_neg m, compare_natCast, ← Ordering.swap_then]
    rfl
  · show some ((compare e f).then (compare m n))
      = some ((compare (1 : Int) 1).then ((compare e f).then (compare (m : Int) n)))
    rw [compare_natCast]
    rfl

variable {u v : UnpackedFloat}

theorem le_iff : u.le v = true ↔ ∃ p q, place? u = some p ∧ place? v = some q ∧ p ≤ q := by
  unfold UnpackedFloat.le
  rw [compare_eq]
  rcases place? u with _ | p
  · simp
  rcases place? v with _ | q
  · simp
  show (compare p q).isLE = true ↔ _
  rw [← Ordering.ne_gt_iff_isLE]
  refine compare_le_iff_le.trans ?_
  simp

theorem lt_iff : u.lt v = true ↔ ∃ p q, place? u = some p ∧ place? v = some q ∧ p < q := by
  unfold UnpackedFloat.lt
  rw [compare_eq]
  rcases place? u with _ | p
  · simp
  rcases place? v with _ | q
  · simp
  show (some (compare p q) == some .lt) = true ↔ _
  rw [beq_iff_eq, Option.some_inj, compare_lt_iff_lt]
  simp

theorem place?_eq_none_iff : place? u = none ↔ u = .notANumber := by
  constructor
  · intro h
    rcases u with s | _ | s | ⟨s, m, e, hm⟩
    · cases s
      all_goals cases h
    · rfl
    · cases h
    · cases s
      all_goals cases h
  · rintro rfl
    rfl

theorem le_self_iff : u.le u = true ↔ u ≠ .notANumber := by
  rw [le_iff, ne_eq, ← place?_eq_none_iff]
  constructor
  · rintro ⟨p, -, hp, -, -⟩ h
    rw [h] at hp
    cases hp
  · intro h
    obtain ⟨p, hp⟩ := Option.ne_none_iff_exists'.mp h
    exact ⟨p, p, hp, hp, le_refl p⟩

/-! ## What is not a number -/

theorem fields_of_unpack_eq_notANumber {b : BitVec Format.binary64.numBits}
    (h : UnpackedFloat.unpack .binary64 b = .notANumber) : unpackExponent b = -1#_ ∧ unpackMantissa b ≠ 0#_ := by
  unfold UnpackedFloat.unpack at h
  dsimp only at h
  by_cases he : (unpackExponent b : BitVec 11) = -1#_
  · refine ⟨he, fun hm => ?_⟩
    rw [if_pos he, if_pos hm] at h
    cases h
  rw [if_neg he] at h
  by_cases hsmall : (unpackExponent b : BitVec 11) = 0#_
  · rw [if_pos hsmall] at h
    by_cases hm : (unpackMantissa b : BitVec 52) = 0#_
    · rw [dif_pos hm] at h
      cases h
    · rw [dif_neg hm] at h
      cases h
  · rw [if_neg hsmall] at h
    cases h

/-- Packing makes infinities, but nothing that is not a number. -/
theorem pack_eq_notANumber_iff : (Float.Model.pack u).unpack = .notANumber ↔ u = .notANumber := by
  constructor
  · intro h
    rcases u with s | _ | s | ⟨s, m, e, hm⟩
    · cases s
      all_goals cases h
    · rfl
    · cases s
      all_goals cases h
    · obtain ⟨he, hm'⟩ :=
        fields_of_unpack_eq_notANumber (b := UnpackedFloat.pack .binary64 (.finite s m e hm)) h
      unfold UnpackedFloat.pack at he hm'
      dsimp only at he hm'
      split at he
      next hover =>
        rw [if_pos hover, packedInfinity, unpackMantissa_packComponents] at hm'
        exact absurd rfl hm'
      next hover =>
        split at he
        next =>
          -- The biased exponent is below the one that is kept for what is not finite.
          rw [unpackExponent_packComponents] at he
          have hfield := congrArg BitVec.toNat he
          rw [BitVec.toNat_ofNat, show (-1#11).toNat = 2047 from rfl] at hfield
          omega
        next =>
          rw [unpackExponent_packComponents] at he
          cases he
  · rintro rfl
    rfl

theorem roundWithAccuracy_ne_notANumber (s : Sign) (m : Nat) (e : Int) (accuracy : Accuracy) :
    roundWithAccuracy .binary64 s m e accuracy ≠ .notANumber := by
  have hrounded (n : Nat) (f : Int) : (if h : n = 0 then UnpackedFloat.zero s
      else .finite s n f (Nat.pos_of_ne_zero h)) ≠ .notANumber := by
    by_cases h : n = 0
    · rw [dif_pos h]
      exact UnpackedFloat.noConfusion
    · rw [dif_neg h]
      exact UnpackedFloat.noConfusion
  exact hrounded _ _

theorem normalize_ne_notANumber (m e : Int) (s : Sign) :
    UnpackedFloat.normalize .binary64 m e s ≠ .notANumber := by
  unfold UnpackedFloat.normalize
  split
  · exact roundWithAccuracy_ne_notANumber _ _ _ _
  · exact nofun
  · exact roundWithAccuracy_ne_notANumber _ _ _ _

/-- A sum with a finite summand is a number exactly if the other summand is one. -/
theorem add_eq_notANumber_iff (hv : v.isFinite = true) :
    UnpackedFloat.add .binary64 u v = .notANumber ↔ u = .notANumber := by
  refine ⟨fun h => ?_, fun h => by rw [h]; rfl⟩
  rcases v with t | _ | t | ⟨t, n, f, hn⟩
  · cases hv
  · cases hv
  · rcases u with s | _ | s | _
    · cases h
    · rfl
    · cases s
      all_goals
        cases t
        all_goals cases h
    · cases h
  · rcases u with s | _ | s | _
    · cases h
    · rfl
    · cases h
    · exact absurd h (normalize_ne_notANumber _ _ _)

end Unpacked

namespace Scalar

variable {α : Type} [Scalar α] {a b : α}

/-! ## Numbers in order -/

/-- Something is a number if it can be compared with itself. -/
def IsNumber (a : α) : Prop := le a a = true

instance (a : α) : Decidable (IsNumber a) := inferInstanceAs (Decidable (_ = true))

/-- Comparisons put the numbers in order and fail wherever something is not a number. -/
structure OrdersNumbers (α : Type) [Scalar α] : Prop where
  isNumber : ∀ {a b : α}, le a b = true → IsNumber a ∧ IsNumber b
  total : ∀ {a b : α}, IsNumber a → IsNumber b → le a b = true ∨ le b a = true
  trans : ∀ {a b c : α}, le a b = true → le b c = true → le a c = true
  lt_iff : ∀ {a b : α}, lt a b = true ↔ le a b = true ∧ le b a = false

theorem isUndefined_eq_false_iff : isUndefined a = false ↔ IsNumber a := by
  rw [isUndefined, IsNumber, Bool.not_eq_false']

theorem isUndefined_iff : isUndefined a = true ↔ ¬IsNumber a := by
  rw [← isUndefined_eq_false_iff, Bool.not_eq_false]

namespace OrdersNumbers

variable (ho : OrdersNumbers α)
include ho

/-- Between numbers, and only there, the negation of a comparison is the opposite comparison. -/
theorem le_iff : le b a = true ↔ lt a b = false ∧ IsNumber a ∧ IsNumber b := by
  rw [← Bool.not_eq_true, ho.lt_iff]
  constructor
  · intro h
    obtain ⟨hb, ha⟩ := ho.isNumber h
    refine ⟨fun hlt => ?_, ha, hb⟩
    rw [hlt.2] at h
    cases h
  · rintro ⟨hlt, ha, hb⟩
    rcases hle : le b a with _ | _
    · exact absurd ⟨(ho.total ha hb).resolve_right (by rw [hle]; nofun), hle⟩ hlt
    · rfl

theorem lt_eq_false (h : ¬(IsNumber a ∧ IsNumber b)) : lt a b = false := by
  refine Bool.eq_false_iff.mpr fun hlt => h (ho.isNumber (ho.lt_iff.mp hlt).1)

theorem isNumber_of_lt (h : lt a b = true) : IsNumber a ∧ IsNumber b :=
  ho.isNumber (ho.lt_iff.mp h).1

end OrdersNumbers

/-! ## Floats -/

section Floats

variable {a b : Float}

theorem isNumber_float_iff : IsNumber a ↔ a.toModel.unpack ≠ .notANumber := by
  rw [IsNumber, le_float, Unpacked.le_self_iff]

/-- Comparisons of floats put the numbers in order. -/
theorem ordersNumbers_float : OrdersNumbers Float where
  isNumber {a b} h := by
    rw [le_float, Unpacked.le_iff] at h
    obtain ⟨p, q, hp, hq, -⟩ := h
    rw [IsNumber, IsNumber, le_float, le_float, Unpacked.le_iff, Unpacked.le_iff]
    exact ⟨⟨p, p, hp, hp, le_rfl⟩, ⟨q, q, hq, hq, le_rfl⟩⟩
  total {a b} ha hb := by
    rw [IsNumber, le_float, Unpacked.le_iff] at ha hb
    obtain ⟨p, -, hp, -, -⟩ := ha
    obtain ⟨q, -, hq, -, -⟩ := hb
    rw [le_float, le_float, Unpacked.le_iff, Unpacked.le_iff]
    exact (le_total p q).imp (fun h => ⟨p, q, hp, hq, h⟩) fun h => ⟨q, p, hq, hp, h⟩
  trans {a b c} hab hbc := by
    rw [le_float, Unpacked.le_iff] at hab hbc
    obtain ⟨p, q, hp, hq, hpq⟩ := hab
    obtain ⟨q', r, hq', hr, hqr⟩ := hbc
    obtain rfl : q = q' := Option.some_inj.mp (hq.symm.trans hq')
    rw [le_float, Unpacked.le_iff]
    exact ⟨p, r, hp, hr, hpq.trans hqr⟩
  lt_iff {a b} := by
    rw [← Bool.not_eq_true, lt_float, le_float, le_float, Unpacked.lt_iff, Unpacked.le_iff, Unpacked.le_iff]
    constructor
    · rintro ⟨p, q, hp, hq, hpq⟩
      refine ⟨⟨p, q, hp, hq, hpq.le⟩, ?_⟩
      rintro ⟨q', p', hq', hp', hqp⟩
      obtain rfl : p = p' := Option.some_inj.mp (hp.symm.trans hp')
      obtain rfl : q = q' := Option.some_inj.mp (hq.symm.trans hq')
      exact hpq.not_ge hqp
    · rintro ⟨⟨p, q, hp, hq, hpq⟩, hnot⟩
      exact ⟨p, q, hp, hq, lt_of_not_ge fun hqp => hnot ⟨q, p, hq, hp, hqp⟩⟩

/-- A sum is no number if its first summand is none. -/
theorem isNumber_of_add (h : IsNumber (a + b)) : IsNumber a := by
  rw [isNumber_float_iff] at h ⊢
  refine fun ha => h (Unpacked.pack_eq_notANumber_iff.mpr ?_)
  rw [ha]
  rfl

/-- A sum with a finite summand is a number exactly if the other summand is one. -/
theorem isNumber_add_iff (hb : isFinite b = true) : IsNumber (a + b) ↔ IsNumber a := by
  have hsum : (a + b).toModel.unpack
      = (Float.Model.pack (UnpackedFloat.add .binary64 a.toModel.unpack b.toModel.unpack)).unpack := rfl
  rw [isNumber_float_iff, isNumber_float_iff, hsum, Ne, Unpacked.pack_eq_notANumber_iff,
    Unpacked.add_eq_notANumber_iff hb]

end Floats

end Scalar

end Minimization
