import Minimization.Proofs.Float.Unpacked
import Minimization.Proofs.Tensor.Signs

/-!
# Floats keep signs

Laws of floats that descents rely on. Comparisons and the operations whose results are rounded once are
computed from unpacked floats, so that `Scalar.DiscernsZero` holds of floats. Single precision and powers
are not computed that way, so that `Scalar.KeepsSigns` is reduced to what has to be known of these two
(`Scalar.OpaqueKeepSigns`).
-/

namespace Minimization

open Float.Model (UnpackedFloat)

namespace Scalar

variable {a b : Float}

theorem lt_float (a b : Float) : lt a b = a.toModel.unpack.lt b.toModel.unpack := by
  show decide (decide (a.toModel.unpack.lt b.toModel.unpack = true) = true) = _
  rw [Bool.decide_eq_true, Bool.decide_eq_true]

theorem le_float (a b : Float) : le a b = a.toModel.unpack.le b.toModel.unpack := by
  show decide (decide (a.toModel.unpack.le b.toModel.unpack = true) = true) = _
  rw [Bool.decide_eq_true, Bool.decide_eq_true]

theorem unpack_zero : (zero : Float).toModel.unpack = .zero .positive := rfl

theorem unpack_one : (one : Float).toModel.unpack = Unpacked.one := rfl

theorem unpack_negligible :
    ∃ m e h, (Tensor.negligible : Float).toModel.unpack = .finite .positive m e h := ⟨_, _, _, rfl⟩

theorem same_zero_iff : same a zero = true ↔ ∃ s, a.toModel.unpack = .zero s := by
  rw [same, le_float, le_float, unpack_zero]
  constructor
  · intro h
    rcases ha : a.toModel.unpack with s | _ | s | ⟨s, m, e, hm⟩
    all_goals rw [ha] at h
    · cases s
      all_goals cases h
    · cases h
    · exact ⟨s, rfl⟩
    · cases s
      all_goals cases h
  · rintro ⟨s, hs⟩
    rw [hs]
    rfl

/-- Floats tell what is zero from what is not. -/
theorem discernsZero_float : DiscernsZero Float where
  negligible a h := by
    obtain ⟨s, hs⟩ := same_zero_iff.mp h
    obtain ⟨m, e, hm, hn⟩ := unpack_negligible
    rw [lt_float, hs, hn]
    rfl
  negative a h := by
    refine Bool.eq_false_iff.mpr fun hsame => ?_
    obtain ⟨s, hs⟩ := same_zero_iff.mp hsame
    rw [lt_float, hs, unpack_zero] at h
    cases h

theorem notNegative_float_iff : NotNegative a ↔ Unpacked.NotNegative a.toModel.unpack := by
  rw [NotNegative, lt_float, unpack_zero, Unpacked.notNegative_iff]

/-- The entries of an unpacked float are in range. -/
theorem fits_unpack {s : UnpackedFloat.Sign} {m : Nat} {e : Int} {h : 0 < m}
    (ha : a.toModel.unpack = .finite s m e h) : m < 2 ^ 53 ∧ -1074 ≤ e :=
  Unpacked.bounds_of_unpack ha

theorem same_zero_eq_false {u : UnpackedFloat} (h : Unpacked.Survives u)
    (ha : a.toModel.unpack = (Float.Model.pack u).unpack) : same a zero = false := by
  refine Bool.eq_false_iff.mpr fun hsame => ?_
  obtain ⟨s, hs⟩ := same_zero_iff.mp hsame
  exact h.pack_ne_zero s (ha.symm.trans hs)

theorem notNegative_of_le (h : le zero a = true) : NotNegative a := by
  rw [notNegative_float_iff]
  rw [le_float, unpack_zero] at h
  rcases ha : a.toModel.unpack with s | _ | s | ⟨s, m, e, hm⟩
  all_goals rw [ha] at h
  · cases s with
    | negative => cases h
    | positive => exact .infinity
  · exact .notANumber
  · exact .zero s
  · cases s with
    | negative => cases h
    | positive => exact .finite m e hm

theorem positive_of_lt (h : lt zero b = true) : Unpacked.Positive b.toModel.unpack := by
  rw [lt_float, unpack_zero] at h
  rcases hb : b.toModel.unpack with s | _ | s | ⟨s, m, e, hm⟩
  all_goals rw [hb] at h
  · cases s with
    | negative => cases h
    | positive => exact .infinity
  · cases h
  · cases h
  · cases s with
    | negative => cases h
    | positive => exact .finite m e hm (fits_unpack hb).1 (fits_unpack hb).2

theorem isFinite_of_lt_one (h : le zero a = true) (h' : lt a one = true) : isFinite a = true := by
  show a.toModel.unpack.isFinite = true
  rw [le_float, unpack_zero] at h
  rw [lt_float, unpack_one] at h'
  rcases ha : a.toModel.unpack with s | _ | s | ⟨s, m, e, hm⟩
  all_goals rw [ha] at h h'
  · cases s with
    | negative => cases h
    | positive => cases h'
  · cases h
  · rfl
  · rfl

/-- What has to be known of the operations on floats that are not computed from unpacked ones: single
precision keeps signs and zero, and a power of what lies between zero and one lies there as well. -/
structure OpaqueKeepSigns : Prop where
  single : ∀ a : Float, NotNegative a → NotNegative (round .single a)
  single_zero : round .single (zero : Float) = zero
  pow : ∀ (a : Float) (n : Nat), 1 ≤ n → le zero a = true → lt a one = true →
    le zero (pow a n) = true ∧ lt (pow a n) one = true

/-- Floats keep signs, if these operations do. -/
theorem keepsSigns_float (h : OpaqueKeepSigns) : KeepsSigns Float where
  of_le := notNegative_of_le
  round p a ha := by
    cases p with
    | single => exact h.single a ha
    | double => exact ha
  add ha hb := notNegative_float_iff.mpr
    ((notNegative_float_iff.mp ha).add (notNegative_float_iff.mp hb)).pack
  mul ha hb := notNegative_float_iff.mpr
    ((notNegative_float_iff.mp ha).mul (notNegative_float_iff.mp hb)).pack
  square a := notNegative_float_iff.mpr (Unpacked.notNegative_square _).pack
  mul_zero p a := by
    have hround : round p (zero : Float) = zero := by
      cases p with
      | single => exact h.single_zero
      | double => rfl
    rw [hround]
    exact notNegative_float_iff.mpr (Unpacked.notNegative_mul_zero _ _).pack
  sqrt ha := notNegative_float_iff.mpr (notNegative_float_iff.mp ha).sqrt.pack
  add_pos {a b} ha hb :=
    same_zero_eq_false (Unpacked.survives_add (notNegative_float_iff.mp ha)
      (fun h => (fits_unpack h).2) (positive_of_lt hb)) rfl
  complement {a} ha := by
    rw [lt_float, unpack_one] at ha
    obtain ⟨hsign, hsurvives⟩ := Unpacked.sub_one ha fun h => fits_unpack h
    exact ⟨notNegative_float_iff.mpr hsign.pack, same_zero_eq_false hsurvives rfl⟩
  power {a n} hn ha ha' := by
    obtain ⟨hle, hlt⟩ := h.pow a n hn ha ha'
    refine ⟨pow a n, ?_, hlt⟩
    rw [power, isFinite_of_lt_one hle hlt, Bool.not_true, Bool.and_false]
    rfl

end Scalar

end Minimization
