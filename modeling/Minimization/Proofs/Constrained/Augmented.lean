import Minimization.Constrained.Penalty
import Minimization.Proofs.Constrained.Landscape

/-!
# The augmented objective as a landscape

On real numbers the augmented objective of a problem realizes a landscape, `Landscape.augmented`:
its value and its gradient, two separate loops over the constraints, are the two halves of one
function with a field. A term of weight zero that the gradient leaves out is a multiple of zero.

The field is the first-order model of the value wherever the fields of the problem are those of its
functions, also where a constraint is just satisfied. `augmented_remainder_le` bounds the error of
the model by the errors of the models of the objective and of the constraints and by the square of
what the constraints change.
-/

namespace Minimization

open ExactScalar
open scoped RealInnerProductSpace

variable {n : Nat} {shape : List Nat}

/-! ## The term of a constraint -/

/-- What a constraint value adds to the augmented objective. -/
noncomputable def penaltyTerm (weight l t : ℝ) : ℝ := l * t + weight * max 0 t * t

/-- The factor of a constraint's gradient in the augmented gradient. -/
noncomputable def penaltySlope (weight l t : ℝ) : ℝ := l + Scalar.two * weight * max 0 t

/-- The slope of a penalty in the value of its constraint, without the case distinction that computes it. -/
theorem penaltySlope_eq (weight l t : ℝ) : penaltySlope weight l t = l + 2 * weight * max 0 t := by
  rw [penaltySlope, two_eq, ofReal_real]

/-- The square of the positive part is its own first-order model up to the square of the change, on
both sides of zero. -/
theorem abs_sq_positivePart_le (a b : ℝ) :
    |max 0 b * b - max 0 a * a - 2 * max 0 a * (b - a)| ≤ (b - a) ^ 2 := by
  rcases le_total a 0 with ha | ha <;> rcases le_total b 0 with hb | hb
  · rw [max_eq_left ha, max_eq_left hb]
    simpa using sq_nonneg (b - a)
  · rw [max_eq_left ha, max_eq_right hb, abs_le]
    constructor <;> nlinarith
  · rw [max_eq_right ha, max_eq_left hb, abs_le]
    constructor <;> nlinarith
  · rw [max_eq_right ha, max_eq_right hb, abs_le]
    constructor <;> nlinarith

/-- The slope is the first-order model of the term up to the square of the change. -/
theorem abs_penaltyTerm_sub_le (weight l a b : ℝ) :
    |penaltyTerm weight l b - penaltyTerm weight l a - penaltySlope weight l a * (b - a)|
      ≤ |weight| * (b - a) ^ 2 := by
  have h : penaltyTerm weight l b - penaltyTerm weight l a - penaltySlope weight l a * (b - a)
      = weight * (max 0 b * b - max 0 a * a - 2 * max 0 a * (b - a)) := by
    rw [penaltyTerm, penaltyTerm, penaltySlope_eq]
    ring
  rw [h, abs_mul]
  exact mul_le_mul_of_nonneg_left (abs_sq_positivePart_le a b) (abs_nonneg weight)

namespace Landscape

/-- The augmented objective of an objective and constraints with multipliers. -/
noncomputable def augmented (f : Landscape n) (gs : List (Landscape n)) (multipliers : List ℝ)
    (weight : ℝ) : Landscape n where
  value v := f.value v
    + ((multipliers.zip gs).map fun (l, g) => penaltyTerm weight l (g.value v)).sum
  field v := f.field v
    + ((multipliers.zip gs).map fun (l, g) => penaltySlope weight l (g.value v) • g.field v).sum

/-- What the constraints contribute to the error of the first-order model. -/
noncomputable def penaltyErrors (gs : List (Landscape n)) (multipliers : List ℝ) (weight : ℝ)
    (v w : Point n) : ℝ :=
  ((multipliers.zip gs).map fun (l, g) => |penaltySlope weight l (g.value v)| * |g.remainder v w|
    + |weight| * (g.value w - g.value v) ^ 2).sum

/-- The error of one constraint. -/
theorem abs_penalty_remainder_le (g : Landscape n) (weight l : ℝ) (v w : Point n) :
    |penaltyTerm weight l (g.value w) - penaltyTerm weight l (g.value v)
        - ⟪penaltySlope weight l (g.value v) • g.field v, w - v⟫|
      ≤ |penaltySlope weight l (g.value v)| * |g.remainder v w|
        + |weight| * (g.value w - g.value v) ^ 2 := by
  have h : penaltyTerm weight l (g.value w) - penaltyTerm weight l (g.value v)
        - ⟪penaltySlope weight l (g.value v) • g.field v, w - v⟫
      = penaltySlope weight l (g.value v) * g.remainder v w
        + (penaltyTerm weight l (g.value w) - penaltyTerm weight l (g.value v)
          - penaltySlope weight l (g.value v) * (g.value w - g.value v)) := by
    rw [real_inner_smul_left, remainder]
    ring
  rw [h]
  refine (abs_add_le _ _).trans (add_le_add ?_ (abs_penaltyTerm_sub_le weight l _ _))
  rw [abs_mul]

/-- The errors of the constraints add up, for any number of them. -/
theorem abs_penalties_remainder_le (lgs : List (ℝ × Landscape n)) (weight : ℝ) (v w : Point n) :
    |(lgs.map fun (l, g) => penaltyTerm weight l (g.value w)).sum
        - (lgs.map fun (l, g) => penaltyTerm weight l (g.value v)).sum
        - ⟪(lgs.map fun (l, g) => penaltySlope weight l (g.value v) • g.field v).sum, w - v⟫|
      ≤ (lgs.map fun (l, g) => |penaltySlope weight l (g.value v)| * |g.remainder v w|
        + |weight| * (g.value w - g.value v) ^ 2).sum := by
  induction lgs with
  | nil => simp
  | cons lg lgs ih =>
    obtain ⟨l, g⟩ := lg
    simp only [List.map_cons, List.sum_cons, inner_add_left]
    refine le_trans (le_of_eq_of_le (congrArg abs ?_) (abs_add_le _ _))
      (add_le_add (abs_penalty_remainder_le g weight l v w) ih)
    ring

/-- The remainder of the augmented objective is bounded term by term: that of the objective, and a bound for
each penalty on its own. The cases of the kink are settled in the bounds of single penalties. -/
theorem abs_augmented_remainder_le (f : Landscape n) (gs : List (Landscape n)) (multipliers : List ℝ)
    (weight : ℝ) (v w : Point n) :
    |(f.augmented gs multipliers weight).remainder v w|
      ≤ |f.remainder v w| + penaltyErrors gs multipliers weight v w := by
  refine le_trans (le_of_eq_of_le (congrArg abs ?_) (abs_add_le _ _))
    (add_le_add le_rfl (abs_penalties_remainder_le (multipliers.zip gs) weight v w))
  rw [remainder, remainder, augmented]
  simp only [inner_add_left]
  ring

end Landscape

/-! ## The loops -/

namespace Problem

variable {p : Problem Id ℝ} {f : Landscape n} {gs : List (Landscape n)}
  {cs : List (ScalarFunction Id ℝ × VectorFunction Id ℝ)} {x : Tensor ℝ} {v : Point n}

/-- The loop of the value adds the terms of the constraints. -/
theorem addPenalties_eq (weight : ℝ)
    (h : List.Forall₂ (fun c g => Landscape.RealizedBy g shape c.1 c.2) cs gs)
    (hx : x.Represents shape v) (multipliers : List ℝ) (acc : ℝ) :
    addPenalties weight x acc (multipliers.zip (cs.map Prod.fst)) =
      pure (acc + ((multipliers.zip gs).map fun (l, g) => penaltyTerm weight l (g.value v)).sum) := by
  induction h generalizing multipliers acc with
  | nil => simp [addPenalties]
  | @cons c g cs gs hc _ ih =>
    cases multipliers with
    | nil => simp [addPenalties]
    | cons l ls =>
      rw [List.map_cons, List.zip_cons_cons, addPenalties, hc.value hx, pure_bind,
        positivePart_ofReal, List.zip_cons_cons, List.map_cons, List.sum_cons]
      exact (ih ls _).trans (congrArg pure (add_assoc ..))

/-- The loop of the gradient adds the multiples of the constraints' fields, those of weight zero by
leaving them out. -/
theorem addPenaltyGradients_eq (weight : ℝ)
    (h : List.Forall₂ (fun c g => Landscape.RealizedBy g shape c.1 c.2) cs gs)
    (hx : x.Represents shape v) (multipliers : List ℝ) {acc : Tensor ℝ} {u : Point n}
    (hacc : acc.Represents shape u) :
    ∃ z, addPenaltyGradients weight x acc (multipliers.zip cs) = pure z ∧ z.Represents shape
      (u + ((multipliers.zip gs).map fun (l, g) =>
        penaltySlope weight l (g.value v) • g.field v).sum) := by
  induction h generalizing multipliers acc u with
  | nil => exact ⟨acc, by simp [addPenaltyGradients], by simpa using hacc⟩
  | @cons c g cs gs hc _ ih =>
    cases multipliers with
    | nil => exact ⟨acc, by simp [addPenaltyGradients], by simpa using hacc⟩
    | cons l ls =>
      obtain ⟨c, dc⟩ := c
      obtain ⟨dg, hdg, hdgr⟩ := hc.field hx
      rw [List.zip_cons_cons, List.zip_cons_cons, List.map_cons, List.sum_cons, ← add_assoc,
        addPenaltyGradients, hc.value hx, pure_bind]
      dsimp only
      have hw : l + Scalar.two * weight * Scalar.positivePart (ofReal (g.value v) : ℝ)
          = penaltySlope weight l (g.value v) := by
        rw [positivePart_ofReal, two_eq]
        rfl
      rw [hw]
      split
      next hz =>
        -- The term is left out, and its weight is zero.
        have hzero : penaltySlope weight l (g.value v) = 0 := by
          rw [zero_eq] at hz
          exact of_decide_eq_true ((same_ofReal _ _).symm.trans hz)
        rw [hzero, zero_smul, add_zero]
        exact ih ls hacc
      next =>
        obtain ⟨z, hz, hzr⟩ :=
          hacc.addInto ((hdgr.convert .double).scale (penaltySlope weight l (g.value v)))
        rw [ofReal_real] at hz
        rw [hdg, pure_bind, hz, Evaluation.lift_ok, pure_bind]
        exact ih ls hzr

/-- What is computed on arrays is the augmented objective of the landscape, constraint after constraint. -/
theorem Realizes.augmentedValue (hp : p.Realizes shape f gs) (hx : x.Represents shape v)
    (multipliers : List ℝ) (weight : ℝ) :
    p.augmentedValue multipliers weight x =
      pure ((f.augmented gs multipliers weight).value v) := by
  rw [Problem.augmentedValue, hp.objective.value hx, pure_bind, ← constraintPairs_fst]
  exact addPenalties_eq weight hp.constraints hx multipliers _

/-- So is what is computed as its gradient, the terms that are skipped for a zero weight included. -/
theorem Realizes.augmentedGradient (hp : p.Realizes shape f gs) (hx : x.Represents shape v)
    (q : Precision) (multipliers : List ℝ) (weight : ℝ) :
    ∃ g, p.augmentedGradient q multipliers weight x = pure g ∧
      g.Represents shape ((f.augmented gs multipliers weight).field v) := by
  obtain ⟨df, hdf, hdfr⟩ := hp.objective.field hx
  rw [Problem.augmentedGradient, hdf, pure_bind]
  exact addPenaltyGradients_eq weight hp.constraints hx multipliers (hdfr.convert q)

/-- The augmented objective of a problem, with one multiplier for every constraint. -/
theorem Realizes.augmented (hp : p.Realizes shape f gs) (q : Precision) {multipliers : Tensor ℝ}
    (hm : multipliers.shape = [gs.length]) (weight : ℝ) :
    ∃ L dL, p.augmented q multipliers weight = .ok L ∧ L.gradient = .ok (some dL) ∧
      (f.augmented gs multipliers.entries weight).RealizedBy shape L dL := by
  have hshape : ¬multipliers.shape ≠ [p.constraintCount] := by
    rw [hp.constraintCount_eq]
    exact not_not.mpr hm
  refine ⟨_, _, if_neg hshape, rfl, ?_, ?_⟩
  · intro x v hx
    rw [ScalarFunction.evaluate_ofNumber, hp.augmentedValue hx]
    rfl
  · intro x v hx
    exact hp.augmentedGradient hx q multipliers.entries weight

end Problem

/-- The augmented objective and its gradient, as a problem on real numbers gives them for one
multiplier per constraint and a weight of any sign: the error of the first-order model is at most
that of the objective, those of the constraints under their slopes, and the squares of what the
constraints change. -/
theorem augmented_remainder_le {p : Problem Id ℝ} {f : Landscape n} {gs : List (Landscape n)}
    (hp : p.Realizes shape f gs) (q : Precision) {multipliers : Tensor ℝ}
    (hm : multipliers.shape = [gs.length]) (weight : ℝ) :
    ∃ L dL, p.augmented q multipliers weight = .ok L ∧ L.gradient = .ok (some dL) ∧
      ∀ (x y : Tensor ℝ) (v w : Point n), x.Represents shape v → y.Represents shape w →
        ∃ Lx Ly g, L.evaluate x = pure Lx ∧ L.evaluate y = pure Ly ∧ dL.evaluate x = pure g ∧
          g.shape = shape ∧
          |Ly - Lx - ⟪g.toPoint n, w - v⟫| ≤ |f.remainder v w|
            + ((multipliers.entries.zip gs).map fun (l, c) =>
                |l + 2 * weight * max 0 (c.value v)| * |c.remainder v w|
                  + |weight| * (c.value w - c.value v) ^ 2).sum := by
  obtain ⟨L, dL, hL, hdL, hr⟩ := hp.augmented q hm weight
  refine ⟨L, dL, hL, hdL, ?_⟩
  intro x y v w hx hy
  obtain ⟨g, hg, hgr⟩ := hr.field hx
  refine ⟨_, _, g, hr.value hx, hr.value hy, hg, hgr.shape_eq, ?_⟩
  rw [hgr.toPoint_eq]
  have h := f.abs_augmented_remainder_le gs multipliers.entries weight v w
  simp only [Landscape.penaltyErrors, penaltySlope_eq] at h
  exact h

/-- The square of a coordinate where the coordinate is at most one, with a negative weight. -/
theorem augmented_remainder_le_square :
    let f : Landscape 1 := ⟨fun v => v 0 ^ 2, fun v => (2 : ℝ) • v⟩
    let g : Landscape 1 := ⟨fun v => v 0 - 1, fun _ => EuclideanSpace.single 0 1⟩
    let p := Problem.euclidean f [g] rfl
    let multipliers : Tensor ℝ := .vector .double [1 / 2]
    p.Realizes [1] f [g] ∧ multipliers.shape = [[g].length] ∧
    ∃ L dL, p.augmented .double multipliers (-3) = .ok L ∧ L.gradient = .ok (some dL) ∧
      ∀ (x y : Tensor ℝ) (v w : Point 1), x.Represents [1] v → y.Represents [1] w →
        ∃ Lx Ly g', L.evaluate x = pure Lx ∧ L.evaluate y = pure Ly ∧ dL.evaluate x = pure g' ∧
          g'.shape = [1] ∧
          |Ly - Lx - ⟪g'.toPoint 1, w - v⟫| ≤ |f.remainder v w|
            + ((multipliers.entries.zip [g]).map fun (l, c) =>
                |l + 2 * (-3) * max 0 (c.value v)| * |c.remainder v w|
                  + |(-3 : ℝ)| * (c.value w - c.value v) ^ 2).sum := by
  intro f g p multipliers
  have hp : p.Realizes [1] f [g] := Problem.realizes_euclidean f [g] rfl
  exact ⟨hp, rfl, augmented_remainder_le hp .double rfl (-3)⟩

end Minimization
