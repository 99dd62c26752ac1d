import Mathlib.Algebra.Ring.Nat
import Minimization.Scalar

/-!
# The signs of unpacked floats

The operations on floats unpack their operands into sign, mantissa and exponent, compute exactly on these,
round, and pack the result. `Unpacked.NotNegative` collects what is not below zero; it is kept by sums,
products and square roots, and by packing. `Unpacked.Survives` collects what does not become zero when it
is packed: a finite float does not whose mantissa fits and whose exponent is in range, and rounding a
positive mantissa gives such a float unless it has to cut off bits below the least exponent
(`survives_roundWithAccuracy`). Sums and differences of floats never have such bits.
-/

namespace Minimization

open Float.Model (UnpackedFloat Format)
open Float.Model.UnpackedFloat

namespace Unpacked

/-- What is not below zero: what is not a number, both zeros, and everything with a positive sign. -/
inductive NotNegative : UnpackedFloat → Prop
  | notANumber : NotNegative .notANumber
  | infinity : NotNegative (.infinity .positive)
  | zero (s : Sign) : NotNegative (.zero s)
  | finite (m : Nat) (e : Int) (h : 0 < m) : NotNegative (.finite .positive m e h)

/-- What does not become zero when it is packed. A finite float does not if its mantissa fits and its
exponent is not below the least one. -/
inductive Survives : UnpackedFloat → Prop
  | notANumber : Survives .notANumber
  | infinity (s : Sign) : Survives (.infinity s)
  | finite (s : Sign) (m : Nat) (e : Int) (h : 0 < m) (hm : m < 2 ^ 53) (he : -1074 ≤ e) :
      Survives (.finite s m e h)

theorem notNegative_iff {u : UnpackedFloat} : NotNegative u ↔ u.lt (.zero .positive) = false := by
  constructor
  · intro h
    cases h
    all_goals rfl
  · intro h
    rcases u with s | _ | s | ⟨s, m, e, hm⟩
    · cases s with
      | negative => cases h
      | positive => exact .infinity
    · exact .notANumber
    · exact .zero s
    · cases s with
      | negative => cases h
      | positive => exact .finite m e hm

/-! ## Packing -/

theorem ofBitVec_unpackSign (s : Sign) (e : BitVec 11) (m : BitVec 52) :
    Sign.ofBitVec (unpackSign (packComponents .binary64 s e m)) = s := by
  have h : unpackSign (packComponents .binary64 s e m) = s.toBitVec := by
    refine BitVec.eq_of_getLsbD_eq fun i hi => ?_
    obtain rfl : i = 0 := Nat.lt_one_iff.mp hi
    show (BitVec.cast _ (BitVec.extractLsb 63 63 (s.toBitVec ++ e ++ m))).getLsbD 0 = _
    rw [BitVec.getLsbD_cast, BitVec.getLsbD_extract, BitVec.getLsbD_append, BitVec.getLsbD_append]
    simp
  rw [h]
  cases s <;> rfl

/-- What the fields of a packed float say of it. Only a zero has a zero exponent and a zero mantissa. -/
inductive Reads (b : BitVec Format.binary64.numBits) : UnpackedFloat → Prop
  | infinity : Reads b (.infinity (Sign.ofBitVec (unpackSign b)))
  | notANumber : Reads b .notANumber
  | zero (he : unpackExponent b = 0#_) (hm : unpackMantissa b = 0#_) :
      Reads b (.zero (Sign.ofBitVec (unpackSign b)))
  | finite (m : Nat) (e : Int) (h : 0 < m) (hm : m < 2 ^ 53) (he : -1074 ≤ e) :
      Reads b (.finite (Sign.ofBitVec (unpackSign b)) m e h)

theorem reads_unpack (b : BitVec Format.binary64.numBits) :
    Reads b (UnpackedFloat.unpack .binary64 b) := by
  have hbias : (Format.binary64.exponentBias : Int) = 1023 := rfl
  have hbits : (Format.binary64.mantissaBitsWithoutImplicit : Int) = 52 := rfl
  unfold UnpackedFloat.unpack
  dsimp only
  by_cases hspecial : (unpackExponent b : BitVec 11) = -1#_
  · rw [if_pos hspecial]
    by_cases hm : (unpackMantissa b : BitVec 52) = 0#_
    · rw [if_pos hm]
      exact .infinity
    · rw [if_neg hm]
      exact .notANumber
  rw [if_neg hspecial]
  by_cases he : (unpackExponent b : BitVec 11) = 0#_
  · rw [if_pos he]
    by_cases hm : (unpackMantissa b : BitVec 52) = 0#_
    · rw [dif_pos hm]
      exact .zero he hm
    · rw [dif_neg hm]
      have hlt : (unpackMantissa b : BitVec 52).toNat < 2 ^ 52 := BitVec.isLt _
      exact .finite _ _ _ (by omega) (by omega)
  · rw [if_neg he]
    have hlt : (1#1 ++ unpackMantissa b : BitVec 53).toNat < 2 ^ 53 := BitVec.isLt _
    have hpos : 0 < (unpackExponent b : BitVec 11).toNat :=
      Nat.pos_of_ne_zero fun hzero => he (BitVec.eq_of_toNat_eq hzero)
    exact .finite _ _ _ hlt (by omega)

theorem notNegative_unpack {b : BitVec Format.binary64.numBits}
    (h : Sign.ofBitVec (unpackSign b) = .positive) : NotNegative (UnpackedFloat.unpack .binary64 b) := by
  have hreads := reads_unpack b
  generalize UnpackedFloat.unpack .binary64 b = u at hreads ⊢
  cases hreads with
  | infinity =>
    rw [h]
    exact .infinity
  | notANumber => exact .notANumber
  | zero => exact .zero _
  | finite m e hm =>
    rw [h]
    exact .finite m e hm

/-- Packing keeps the sign. -/
theorem NotNegative.pack {u : UnpackedFloat} (h : NotNegative u) :
    NotNegative (Float.Model.pack u).unpack := by
  cases h with
  | notANumber => exact .notANumber
  | infinity => exact .infinity
  | zero s =>
    cases s
    · exact .zero .negative
    · exact .zero .positive
  | finite m e hm =>
    obtain ⟨e', m', hpack⟩ : ∃ e' m',
        UnpackedFloat.pack .binary64 (.finite .positive m e hm)
          = packComponents .binary64 .positive e' m' := by
      unfold UnpackedFloat.pack
      dsimp only
      split
      · exact ⟨_, _, rfl⟩
      · split
        all_goals exact ⟨_, _, rfl⟩
    refine notNegative_unpack (b := UnpackedFloat.pack .binary64 (.finite .positive m e hm)) ?_
    rw [hpack, ofBitVec_unpackSign]

theorem fields_of_unpack_eq_zero {b : BitVec Format.binary64.numBits} {s : Sign}
    (h : UnpackedFloat.unpack .binary64 b = .zero s) : unpackExponent b = 0#_ ∧ unpackMantissa b = 0#_ := by
  have hreads := reads_unpack b
  rw [h] at hreads
  cases hreads with
  | zero he hm => exact ⟨he, hm⟩

theorem bounds_of_unpack {b : BitVec Format.binary64.numBits} {s : Sign} {m : Nat} {e : Int} {h : 0 < m}
    (hb : UnpackedFloat.unpack .binary64 b = .finite s m e h) : m < 2 ^ 53 ∧ -1074 ≤ e := by
  have hreads := reads_unpack b
  rw [hb] at hreads
  cases hreads with
  | finite _ _ _ hm he => exact ⟨hm, he⟩

/-- What survives is not zero when it is packed and unpacked again. -/
theorem Survives.pack_ne_zero {u : UnpackedFloat} (h : Survives u) (s : Sign) :
    (Float.Model.pack u).unpack ≠ .zero s := by
  cases h with
  | notANumber => exact nofun
  | infinity s' =>
    cases s'
    all_goals exact nofun
  | finite s' m e hm hlt hle =>
    intro hzero
    obtain ⟨he, hm'⟩ := fields_of_unpack_eq_zero (b := UnpackedFloat.pack .binary64 (.finite s' m e hm)) hzero
    have hbias : (Format.binary64.exponentBias : Int) = 1023 := rfl
    unfold UnpackedFloat.pack at he hm'
    dsimp only at he hm'
    split at he
    next =>
      rw [packedInfinity, unpackExponent_packComponents] at he
      cases he
    next hover =>
      rw [if_neg hover] at hm'
      split at he
      next =>
        -- The biased exponent is at least one, and it fits its field.
        rw [unpackExponent_packComponents] at he
        have hfield := congrArg BitVec.toNat he
        rw [BitVec.toNat_ofNat, BitVec.toNat_zero, hbias] at hfield
        rw [hbias] at hover
        omega
      next hsub =>
        -- The mantissa of a subnormal number fits its field.
        rw [if_neg hsub, unpackMantissa_packComponents] at hm'
        have hfield := congrArg BitVec.toNat hm'
        rw [BitVec.toNat_ofNat, BitVec.toNat_zero] at hfield
        have hne : m.log2 + 1 ≠ 53 := hsub
        have hlog : m.log2 < 53 := (Nat.log2_lt (Nat.ne_of_gt hm)).mpr hlt
        have hsmall : m < 2 ^ 52 := (Nat.log2_lt (Nat.ne_of_gt hm)).mp (by omega)
        omega

/-! ## Rounding -/

theorem mantissa_shiftRight (em : ExtendedMantissa) (n : Nat) :
    (em >>> n).mantissa = em.mantissa / 2 ^ n := by
  show (n.repeat ExtendedMantissa.shiftRightOne em).mantissa = _
  induction n with
  | zero => exact (Nat.div_one _).symm
  | succ n ih =>
    rw [Nat.repeat]
    show (n.repeat ExtendedMantissa.shiftRightOne em).mantissa / 2 = _
    rw [ih, Nat.div_div_eq_div_mul, Nat.pow_succ]

theorem mantissa_ofMantissaAndAccuracy (m : Nat) (accuracy : Accuracy) :
    (ExtendedMantissa.ofMantissaAndAccuracy m accuracy).mantissa = m := by
  rcases accuracy with _ | o
  · rfl
  · cases o <;> rfl

theorem mantissa_le_roundedMantissa (em : ExtendedMantissa) : em.mantissa ≤ em.roundedMantissa := by
  unfold ExtendedMantissa.roundedMantissa
  rcases em.accuracy with _ | o
  · exact Nat.le_refl _
  · cases o
    · exact Nat.le_refl _
    · exact Nat.le_add_right _ _
    · exact Nat.le_add_right _ _

/-- Shifting a mantissa to where it belongs leaves something of it, and no more than fits. -/
theorem shiftToTargetExponent_bounds {m : Nat} (hm : 0 < m) {e : Int} (he : -1074 ≤ e) (accuracy : Accuracy) :
    let r := shiftToTargetExponent .binary64 m e accuracy
    0 < r.1.mantissa ∧ r.1.mantissa < 2 ^ 53 ∧ -1074 ≤ r.2 := by
  have htarget : Format.binary64.targetExponent (Float.Model.totalExponent m e)
      = max (m.log2 + 1 + e - 53) (-1074) := rfl
  unfold shiftToTargetExponent shiftToExponent
  dsimp only
  rw [mantissa_shiftRight, mantissa_ofMantissaAndAccuracy, htarget]
  have hlt := Nat.lt_log2_self (n := m)
  have hge := Nat.log2_self_le (Nat.ne_of_gt hm)
  generalize hn : (max ((m.log2 : Int) + 1 + e - 53) (-1074) - e).toNat = n
  have hupper : m.log2 + 1 ≤ 53 + n := by omega
  have hlower : n ≤ m.log2 := by omega
  refine ⟨Nat.div_pos ?_ (Nat.two_pow_pos n), ?_, by omega⟩
  · exact Nat.le_trans (Nat.pow_le_pow_right (by decide) hlower) hge
  · rw [Nat.div_lt_iff_lt_mul (Nat.two_pow_pos n), ← Nat.pow_add]
    exact Nat.lt_of_lt_of_le hlt (Nat.pow_le_pow_right (by decide) hupper)

theorem notNegative_roundWithAccuracy (m : Nat) (e : Int) (accuracy : Accuracy) :
    NotNegative (roundWithAccuracy .binary64 .positive m e accuracy) := by
  -- What is rounded to comes with its sign, whatever its mantissa and its exponent are.
  have hrounded (n : Nat) (f : Int) : NotNegative (if h : n = 0 then .zero .positive
      else .finite .positive n f (Nat.pos_of_ne_zero h)) := by
    by_cases h : n = 0
    · rw [dif_pos h]
      exact .zero _
    · rw [dif_neg h]
      exact .finite _ _ _
  exact hrounded _ _

/-- Rounding does not underflow to zero what is a multiple of the least float. -/
theorem survives_roundWithAccuracy (s : Sign) {m : Nat} (hm : 0 < m) {e : Int} (he : -1074 ≤ e)
    (accuracy : Accuracy) : Survives (roundWithAccuracy .binary64 s m e accuracy) := by
  obtain ⟨hpos, -, hle⟩ := shiftToTargetExponent_bounds hm he accuracy
  obtain ⟨hpos', hlt', hle'⟩ := shiftToTargetExponent_bounds
    (Nat.lt_of_lt_of_le hpos (mantissa_le_roundedMantissa _)) hle .exact
  unfold roundWithAccuracy
  dsimp only
  rw [dif_neg (Nat.ne_of_gt hpos')]
  exact .finite _ _ _ _ hlt' hle'

theorem decreaseExponent_pos {m : Nat} (hm : 0 < m) (e t : Int) : 0 < (decreaseExponent m e t).1 := by
  show 0 < m <<< (e - t).toNat
  rw [Nat.shiftLeft_eq]
  exact Nat.mul_pos hm (Nat.two_pow_pos _)

theorem survives_normalize {m : Int} (hm : 0 < m) {e : Int} (he : -1074 ≤ e) (s : Sign) :
    Survives (UnpackedFloat.normalize .binary64 m e s) := by
  have htarget : Format.binary64.targetExponent (Float.Model.totalExponent m.toNat e)
      = max (m.toNat.log2 + 1 + e - 53) (-1074) := rfl
  unfold UnpackedFloat.normalize
  rw [show compare m 0 = .gt from Int.compare_eq_gt.mpr hm]
  show Survives (roundWithAccuracy .binary64 .positive
    (decreaseExponent m.toNat e _).1 (e - ((e - _).toNat : Int)) .exact)
  rw [htarget]
  exact survives_roundWithAccuracy _ (decreaseExponent_pos (by omega) _ _) (by omega) .exact

theorem notNegative_normalize {m : Int} (hm : 0 < m) (e : Int) (s : Sign) :
    NotNegative (UnpackedFloat.normalize .binary64 m e s) := by
  unfold UnpackedFloat.normalize
  rw [show compare m 0 = .gt from Int.compare_eq_gt.mpr hm]
  exact notNegative_roundWithAccuracy _ _ _

/-! ## Operations -/

variable {a b : UnpackedFloat}

theorem NotNegative.add (ha : NotNegative a) (hb : NotNegative b) : NotNegative (add .binary64 a b) := by
  cases ha with
  | notANumber => exact .notANumber
  | infinity =>
    cases hb with
    | notANumber => exact .notANumber
    | infinity | zero | finite => exact .infinity
  | zero s =>
    cases hb with
    | notANumber => exact .notANumber
    | infinity => exact .infinity
    | zero t =>
      cases s
      all_goals
        cases t
        all_goals exact .zero _
    | finite n f hn => exact .finite n f hn
  | finite m e hm =>
    cases hb with
    | notANumber => exact .notANumber
    | infinity => exact .infinity
    | zero t => exact .finite m e hm
    | finite n f hn =>
      refine notNegative_normalize (Int.add_pos ?_ ?_) _ _
      · exact Int.natCast_pos.mpr (decreaseExponent_pos hm _ _)
      · exact Int.natCast_pos.mpr (decreaseExponent_pos hn _ _)

theorem NotNegative.mul (ha : NotNegative a) (hb : NotNegative b) : NotNegative (mul .binary64 a b) := by
  cases ha with
  | notANumber => exact .notANumber
  | infinity =>
    cases hb with
    | notANumber | zero => exact .notANumber
    | infinity | finite => exact .infinity
  | zero s =>
    cases hb with
    | notANumber | infinity => exact .notANumber
    | zero | finite => exact .zero _
  | finite m e hm =>
    cases hb with
    | notANumber => exact .notANumber
    | infinity => exact .infinity
    | zero t => exact .zero _
    | finite n f hn => exact notNegative_roundWithAccuracy _ _ _

theorem notNegative_square (a : UnpackedFloat) : NotNegative (mul .binary64 a a) := by
  rcases a with s | _ | s | ⟨s, m, e, hm⟩
  · cases s
    all_goals exact .infinity
  · exact .notANumber
  · exact .zero _
  · cases s
    all_goals exact notNegative_roundWithAccuracy _ _ _

theorem notNegative_mul_zero (a : UnpackedFloat) (s : Sign) : NotNegative (mul .binary64 a (.zero s)) := by
  rcases a with t | _ | t | ⟨t, m, e, hm⟩
  · exact .notANumber
  · exact .notANumber
  · exact .zero _
  · exact .zero _

theorem NotNegative.sqrt (ha : NotNegative a) : NotNegative (sqrt .binary64 a) := by
  cases ha with
  | notANumber => exact .notANumber
  | infinity => exact .infinity
  | zero s => exact .zero s
  | finite m e hm => exact notNegative_roundWithAccuracy _ _ _

/-- A float with a positive sign, as it is unpacked. -/
inductive Positive : UnpackedFloat → Prop
  | infinity : Positive (.infinity .positive)
  | finite (m : Nat) (e : Int) (h : 0 < m) (hm : m < 2 ^ 53) (he : -1074 ≤ e) :
      Positive (.finite .positive m e h)

/-- Adding something positive to what is not below zero leaves something. -/
theorem survives_add (ha : NotNegative a) (hfits : ∀ {s m e h}, a = .finite s m e h → -1074 ≤ e)
    (hb : Positive b) : Survives (UnpackedFloat.add .binary64 a b) := by
  cases ha with
  | notANumber => exact .notANumber
  | infinity =>
    cases hb with
    | infinity | finite => exact .infinity _
  | zero s =>
    cases hb with
    | infinity => exact .infinity _
    | finite n f hn hlt hle => exact .finite _ n f hn hlt hle
  | finite m e hm =>
    cases hb with
    | infinity => exact .infinity _
    | finite n f hn hlt hle =>
      have he := hfits rfl
      refine survives_normalize (Int.add_pos ?_ ?_) (by omega) _
      · exact Int.natCast_pos.mpr (decreaseExponent_pos hm _ _)
      · exact Int.natCast_pos.mpr (decreaseExponent_pos hn _ _)

/-- The float one, with all bits of its mantissa. -/
def one : UnpackedFloat := .finite .positive (2 ^ 52) (-52) (by decide)

theorem exponent_lt_or_of_lt_one {m : Nat} {e : Int} {h : 0 < m}
    (hlt : (UnpackedFloat.finite .positive m e h).lt one = true) : e < -52 ∨ e = -52 ∧ m < 2 ^ 52 := by
  have hcompare : (some ((compare e (-52)).then (compare m (2 ^ 52))) == some Ordering.lt) = true := hlt
  rcases Ordering.then_eq_lt.mp (Option.some.inj (eq_of_beq hcompare)) with hlt | ⟨heq, hlt⟩
  · exact .inl (Int.compare_eq_lt.mp hlt)
  · exact .inr ⟨Int.compare_eq_eq.mp heq, Nat.compare_eq_lt.mp hlt⟩

/-- What is below one leaves something of it that is not below zero. -/
theorem sub_one (hlt : a.lt one = true) (hfits : ∀ {s m e h}, a = .finite s m e h → m < 2 ^ 53 ∧ -1074 ≤ e) :
    NotNegative (UnpackedFloat.sub .binary64 one a) ∧ Survives (UnpackedFloat.sub .binary64 one a) := by
  rcases a with s | _ | s | ⟨s, m, e, hm⟩
  · cases s with
    | negative => exact ⟨.infinity, .infinity _⟩
    | positive => cases hlt
  · cases hlt
  · exact ⟨.finite _ _ _, .finite _ _ _ _ (by decide) (by decide)⟩
  · obtain ⟨hfit, he⟩ := hfits rfl
    have hpos : (0 : Int) < (decreaseExponent (2 ^ 52) (-52) (min (-52) e)).1
        - s.apply (decreaseExponent m e (min (-52) e)).1 := by
      have hone : 0 < (decreaseExponent (2 ^ 52) (-52) (min (-52) e)).1 :=
        decreaseExponent_pos (by decide) _ _
      cases s with
      | negative =>
        show (0 : Int) < _ - -((decreaseExponent m e (min (-52) e)).1 : Int)
        omega
      | positive =>
        show (0 : Int) < ((2 ^ 52 <<< (-52 - min (-52) e).toNat : Nat) : Int)
          - ((m <<< (e - min (-52) e).toNat : Nat) : Int)
        rcases exponent_lt_or_of_lt_one hlt with hexponent | ⟨rfl, hmantissa⟩
        · -- One is shifted to the smaller exponent, where it exceeds every mantissa.
          rw [Int.min_eq_right (Int.le_of_lt hexponent), Int.sub_self, Nat.shiftLeft_eq, Nat.shiftLeft_eq,
            Int.toNat_zero, Nat.pow_zero, Nat.mul_one]
          have hshift : 2 ^ 1 ≤ 2 ^ (-52 - e).toNat := Nat.pow_le_pow_right (by decide) (by omega)
          omega
        · rw [Int.min_self, Int.sub_self, Nat.shiftLeft_eq, Nat.shiftLeft_eq, Int.toNat_zero,
            Nat.pow_zero, Nat.mul_one, Nat.mul_one]
          omega
    exact ⟨notNegative_normalize hpos _ _, survives_normalize hpos (by omega) _⟩

end Unpacked

end Minimization
