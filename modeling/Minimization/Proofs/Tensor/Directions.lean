import Minimization.Proofs.Exact.Vector
import Minimization.Proofs.Tensor.Positions

/-!
# Arrays brought to norm one

Normalizing an array brings it to norm one, unless its norm is below a threshold. The result may lie on either
side of the threshold, and so may a multiple of the array; what holds all the same is proved for points
(`unit_unit`, `unit_neg`, `unit_smul`) and carried over to the arrays that represent them by
`Represents.normalizesTo`. The two operations on stored arrays, in place or not, are described together by
`NormalizesTo`.

Main result: `normalizesTo_direction`. Without rounding normalizing never fails, so that no reciprocal of zero
is taken; it divides by the norm, doing it again changes nothing, and only the direction of an array that is not
below the threshold counts.
-/

namespace Minimization.Tensor

open ExactScalar

/-- Normalizing the array makes another one, wherever it is stored, and normalizing it in place gives it the
same entries in its own precision. -/
def NormalizesTo {α : Type} [Scalar α] (p : Precision) (threshold : α) (x y : Tensor α) : Prop :=
  ∀ (s : Store α) (a : Handle), s.arrays[a]? = some x →
    (Call.normalize (.stored a) (.ok threshold)).Makes p s y ∧
      (Call.normalizeInPlace a (.ok threshold)).Changes p s a (y.convert x.precision)

variable {n : Nat} {shape : List Nat} {p : Precision} {threshold : ℝ} {x y : Tensor ℝ} {v : Point n}

/-- An array is normalized to the one that represents the direction of its point. -/
theorem Represents.normalizesTo (hx : x.Represents shape v) (h₀ : 0 < threshold)
    (hp : y.precision = p) (hy : y.Represents shape (unit threshold v)) :
    x.NormalizesTo p threshold y := by
  intro s a ha
  obtain ⟨made, hmade, hmadev⟩ := (hx.convert p).normalizeAbove h₀
  obtain ⟨changed, hchanged, hchangedv⟩ := hx.normalizeAbove h₀
  obtain rfl : made = y := hmadev.eq hy ((precision_of_normalizeAbove_ok hmade).trans hp.symm)
  obtain rfl : changed = made.convert x.precision :=
    hchangedv.eq_convert (precision_of_normalizeAbove_ok hchanged) hy
  exact ⟨Call.run_of_fetch (g := .fresh) rfl ha hmade, Call.run_of_fetch (g := .update a) rfl ha hchanged⟩

/-- A function of the coordinates is one of the entries. -/
theorem Represents.map (hx : x.Represents shape v) {f : ℝ → ℝ} {w : Point n} (hw : ∀ i, f (v i) = w i) :
    (x.map f).Represents shape w where
  shape_eq := hx.shape_eq
  entries_eq := by
    show x.entries.map f = _
    rw [hx.entries_eq, List.map_ofFn]
    exact congrArg List.ofFn (funext hw)

/-- The norm is the root of the sum of the squares. -/
theorem norm_eq_sqrt_sum (x : Tensor ℝ) : x.norm = √(x.entries.map (· ^ 2)).sum := by
  have hx := represents_toPoint (x := x) rfl rfl
  rw [hx.norm, EuclideanSpace.norm_eq, hx.entries_eq, List.map_ofFn, List.sum_ofFn]
  simp

/-- Normalizing an array divides it by its norm, which leaves the norm one, or leaves it as it is if the norm is
below the threshold. Normalizing the result changes nothing, whatever the threshold is; the opposite array is
normalized to the opposite one, and a positive multiple to the same one if neither of both is below the
threshold. A norm that has no reciprocal is below the threshold, so that none of this fails. -/
theorem normalizesTo_direction (h₀ : 0 < threshold) (p : Precision) (x : Tensor ℝ) :
    x.norm = √(x.entries.map (· ^ 2)).sum ∧
      ∃ y, x.NormalizesTo p threshold y ∧
        (threshold ≤ x.norm → y = (x.map (· / x.norm)).convert p ∧ y.norm = 1) ∧
        (x.norm < threshold → y = x.convert p) ∧
        (∀ e, Scalar.divide Scalar.one x.norm = .error e → x.norm < threshold) ∧
        y.NormalizesTo p threshold y ∧
        (x.map fun a => -a).NormalizesTo p threshold (y.map fun a => -a) ∧
        ∀ c, 0 < c → threshold ≤ x.norm → threshold ≤ (x.map (c * ·)).norm →
          (x.map (c * ·)).NormalizesTo p threshold y := by
  have hx := represents_toPoint (x := x) rfl rfl
  obtain ⟨y, hy, hyv⟩ := (hx.convert p).normalizeAbove h₀
  have hp : y.precision = p := precision_of_normalizeAbove_ok hy
  have hnorm : x.norm = ‖x.toPoint (volume x.shape)‖ := hx.norm
  refine ⟨x.norm_eq_sqrt_sum, y, hx.normalizesTo h₀ hp hyv, fun hle => ⟨?_, ?_⟩, fun hlt => ?_,
    fun e he => ?_, ?_, ?_, fun c hc hle hcle => ?_⟩
  · rw [hnorm] at hle ⊢
    refine hyv.eq_convert hp (hx.map fun i => ?_)
    rw [unit_of_le hle, PiLp.smul_apply, smul_eq_mul, div_eq_inv_mul]
  · rw [hnorm] at hle
    exact hyv.norm.trans (norm_unit h₀ hle)
  · rw [hnorm] at hlt
    rw [unit_of_lt hlt] at hyv
    exact hyv.eq_convert hp hx
  · -- Only zero has no reciprocal, and the threshold keeps it away.
    by_contra hle
    have hne : x.norm ≠ 0 := (h₀.trans_le (not_lt.mp hle)).ne'
    have hok := divide_ofReal (α := ℝ) 1 hne
    rw [← one_eq, ofReal_real, he] at hok
    cases hok
  · refine hyv.normalizesTo h₀ hp ?_
    rwa [unit_unit h₀]
  · refine (hx.map (w := -x.toPoint _) fun _ => rfl).normalizesTo h₀ hp ?_
    rw [unit_neg]
    exact hyv.map fun _ => rfl
  · have hcx := hx.map (f := (c * ·)) (w := c • x.toPoint _) fun _ => rfl
    have hcnorm : (x.map (c * ·)).norm = c * ‖x.toPoint (volume x.shape)‖ := by
      rw [hcx.norm, norm_smul, Real.norm_eq_abs, abs_of_pos hc, ofReal_real]
    rw [hnorm] at hle
    rw [hcnorm] at hcle
    refine hcx.normalizesTo h₀ hp ?_
    rwa [unit_smul hc hle hcle]

/-- A vector of norm five above a threshold of two. What it is normalized to has norm one, which is below the
threshold. -/
theorem normalizesTo_direction_three_four :
    let x : Tensor ℝ := ⟨[2], [3, 4], .double, rfl⟩
    (0 : ℝ) < 2 ∧ ∃ y : Tensor ℝ, x.NormalizesTo .double 2 y ∧ y.entries = [3 / 5, 4 / 5] ∧ y.norm = 1 ∧
      y.NormalizesTo .double 2 y ∧ (x.map fun a => -a).NormalizesTo .double 2 (y.map fun a => -a) ∧
      (x.map (1 / 2 * ·)).NormalizesTo .double 2 y := by
  intro x
  obtain ⟨hnorm, y, hy, hle, -, -, htwice, hneg, hmultiple⟩ := normalizesTo_direction two_pos .double x
  have hfive : x.norm = 5 := by
    rw [hnorm]
    show √([3, 4].map (· ^ 2)).sum = 5
    rw [Real.sqrt_eq_iff_mul_self_eq_of_pos (by norm_num)]
    norm_num
  have hhalf : (x.map (1 / 2 * ·)).norm = 5 / 2 := by
    rw [norm_eq_sqrt_sum]
    show √([1 / 2 * 3, 1 / 2 * 4].map (· ^ 2)).sum = 5 / 2
    rw [Real.sqrt_eq_iff_mul_self_eq_of_pos (by norm_num)]
    norm_num
  have habove : 2 ≤ x.norm := by rw [hfive]; norm_num
  obtain ⟨heq, hone⟩ := hle habove
  refine ⟨two_pos, y, hy, ?_, hone, htwice, hneg, hmultiple _ one_half_pos habove ?_⟩
  · rw [heq, hfive]
    rfl
  · rw [hhalf]
    norm_num

end Minimization.Tensor
