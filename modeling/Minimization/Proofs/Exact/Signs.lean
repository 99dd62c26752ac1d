import Minimization.Proofs.Exact.Vector
import Minimization.Proofs.Tensor.Signs

/-!
# Real numbers keep signs

Real numbers tell what is zero from what is not, and their arithmetic keeps signs. So whatever holds of
descents on numbers of that kind holds of them on real numbers.
-/

namespace Minimization

namespace Scalar

theorem notNegative_real_iff {a : ℝ} : NotNegative a ↔ 0 ≤ a := by
  rw [NotNegative, ExactScalar.zero_eq]
  show decide (a < 0) = false ↔ _
  rw [decide_eq_false_iff_not, not_lt]

theorem zero_le_real_iff {a : ℝ} : le zero a = true ↔ 0 ≤ a := by
  rw [ExactScalar.zero_eq]
  exact decide_eq_true_iff

theorem lt_one_real_iff {a : ℝ} : lt a one = true ↔ a < 1 := by
  rw [ExactScalar.one_eq]
  exact decide_eq_true_iff

theorem same_zero_real {a : ℝ} (h : a ≠ 0) : same a zero = false := by
  rw [ExactScalar.zero_eq]
  exact (ExactScalar.same_ofReal a 0).trans (decide_eq_false h)

/-- Real numbers keep signs. -/
theorem keepsSigns_real : KeepsSigns ℝ where
  of_le h := notNegative_real_iff.mpr (zero_le_real_iff.mp h)
  round _ _ h := h
  add h h' := notNegative_real_iff.mpr (add_nonneg (notNegative_real_iff.mp h) (notNegative_real_iff.mp h'))
  mul h h' := notNegative_real_iff.mpr (mul_nonneg (notNegative_real_iff.mp h) (notNegative_real_iff.mp h'))
  square a := notNegative_real_iff.mpr (mul_self_nonneg a)
  mul_zero _ a := by
    rw [ExactScalar.zero_eq]
    exact notNegative_real_iff.mpr (MulZeroClass.mul_zero a).ge
  sqrt _ := notNegative_real_iff.mpr (Real.sqrt_nonneg _)
  add_pos {a b} h h' := by
    rw [ExactScalar.zero_eq] at h'
    have hb : 0 < b := of_decide_eq_true h'
    exact same_zero_real (add_pos_of_nonneg_of_pos (notNegative_real_iff.mp h) hb).ne'
  complement {a} h := by
    have ha : 0 < (one : ℝ) - a := by
      rw [ExactScalar.one_eq]
      exact sub_pos.mpr (lt_one_real_iff.mp h)
    exact ⟨notNegative_real_iff.mpr ha.le, same_zero_real ha.ne'⟩
  power {a n} hn h h' := by
    refine ⟨a ^ n, ExactScalar.power_ofReal a n, lt_one_real_iff.mpr ?_⟩
    exact pow_lt_one₀ (zero_le_real_iff.mp h) (lt_one_real_iff.mp h') (Nat.ne_zero_of_lt hn)

/-- Real numbers tell what is zero from what is not. -/
theorem discernsZero_real : DiscernsZero ℝ where
  negligible a h := by
    rw [ExactScalar.zero_eq] at h
    obtain rfl : a = 0 := of_decide_eq_true ((ExactScalar.same_ofReal a 0).symm.trans h)
    exact decide_eq_true negligible_pos
  negative a h := by
    rw [ExactScalar.zero_eq] at h
    have ha : a < 0 := of_decide_eq_true h
    exact same_zero_real ha.ne

end Scalar

end Minimization
