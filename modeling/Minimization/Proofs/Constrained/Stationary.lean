import Minimization.Constrained.Multipliers
import Minimization.Proofs.Constrained.Augmented

/-!
# Where the method of multipliers stands still

A state of the method of multipliers is fixed if the gradient of its augmented objective vanishes at
its point and the update of the multipliers returns them. The gradient weights and the update are
separate formulas; `isFixed_iff_isKKT` says that they fit together: with a positive weight the fixed
states are exactly the points that satisfy, with their multipliers, the conditions for a constrained
minimum. If objective and constraints lie above their first-order models, such a point is a minimum.
-/

namespace Minimization

open ExactScalar
open scoped RealInnerProductSpace

variable {n : Nat} {shape : List Nat}

/-- The first-order conditions for a minimum of `f` where every constraint is at most zero. -/
structure IsKKT (f : Landscape n) (gs : List (Landscape n)) (v : Point n) (multipliers : List ℝ) :
    Prop where
  stationary : f.field v + ((multipliers.zip gs).map fun (l, g) => l • g.field v).sum = 0
  feasible : ∀ g ∈ gs, g.value v ≤ 0
  nonneg : ∀ l ∈ multipliers, 0 ≤ l
  complementary : ∀ lg ∈ multipliers.zip gs, lg.1 * lg.2.value v = 0

/-- The multiplier of a constraint stays the same exactly if it is not negative, the constraint is
satisfied, and one of the two is zero. -/
theorem raise_eq_self_iff {weight l t : ℝ} (hw : 0 < weight) :
    max 0 (l + 2 * weight * t) = l ↔ 0 ≤ l ∧ t ≤ 0 ∧ l * t = 0 := by
  constructor
  · intro h
    have hl : 0 ≤ l := h ▸ le_max_left ..
    have ht : l + 2 * weight * t ≤ l := (le_max_right ..).trans_eq h
    have ht : t ≤ 0 := by nlinarith
    refine ⟨hl, ht, ?_⟩
    rcases le_total (l + 2 * weight * t) 0 with hs | hs
    · rw [max_eq_left hs] at h
      rw [← h, zero_mul]
    · rw [max_eq_right hs] at h
      have : t = 0 := by nlinarith
      rw [this, mul_zero]
  · rintro ⟨hl, ht, h⟩
    rcases mul_eq_zero.mp h with rfl | rfl
    · rw [zero_add, max_eq_left (mul_nonpos_of_nonneg_of_nonpos (by linarith) ht)]
    · rw [mul_zero, add_zero, max_eq_right hl]

theorem forall_mem_zip_fst {β γ : Type} {xs : List β} {ys : List γ} (h : xs.length = ys.length)
    {P : β → Prop} : (∀ xy ∈ xs.zip ys, P xy.1) ↔ ∀ x ∈ xs, P x := by
  rw [← List.forall_mem_map (f := Prod.fst), List.map_fst_zip h.le]

theorem forall_mem_zip_snd {β γ : Type} {xs : List β} {ys : List γ} (h : xs.length = ys.length)
    {P : γ → Prop} : (∀ xy ∈ xs.zip ys, P xy.2) ↔ ∀ y ∈ ys, P y := by
  rw [← List.forall_mem_map (f := Prod.snd), List.map_snd_zip h.ge]

namespace AugmentedLagrangian

/-- The update leaves all multipliers as they are exactly if it leaves each of them. -/
theorem raised_eq_self_iff {multipliers : List ℝ} {gs : List (Landscape n)} {v : Point n} {weight : ℝ}
    (hw : 0 < weight) (h : multipliers.length = gs.length) :
    raised multipliers weight (gs.map fun g => g.value v) = multipliers ↔
      ∀ lg ∈ multipliers.zip gs, 0 ≤ lg.1 ∧ lg.2.value v ≤ 0 ∧ lg.1 * lg.2.value v = 0 := by
  induction multipliers generalizing gs with
  | nil => simp [raised]
  | cons l ls ih =>
    cases gs with
    | nil => simp at h
    | cons g gs =>
      have hl : Scalar.max Scalar.zero (l + Scalar.two * weight * g.value v)
          = max 0 (l + 2 * weight * g.value v) := by
        rw [zero_eq, two_eq]
        exact max_ofReal _ _
      have ih := ih (Nat.succ.inj h)
      rw [raised] at ih ⊢
      rw [List.map_cons, List.zipWith_cons_cons, List.zip_cons_cons, List.cons.injEq, hl,
        raise_eq_self_iff hw, ih, List.forall_mem_cons]

end AugmentedLagrangian

namespace Landscape

/-- Where all constraints are satisfied the augmented field is that of the multipliers alone. -/
theorem augmented_field_of_feasible {f : Landscape n} {gs : List (Landscape n)} {v : Point n}
    {multipliers : List ℝ} (weight : ℝ) (h : ∀ lg ∈ multipliers.zip gs, lg.2.value v ≤ 0) :
    (f.augmented gs multipliers weight).field v
      = f.field v + ((multipliers.zip gs).map fun (l, g) => l • g.field v).sum := by
  show f.field v + _ = f.field v + _
  congr 2
  refine List.map_congr_left fun lg hmem => ?_
  show penaltySlope weight lg.1 (lg.2.value v) • _ = _
  rw [penaltySlope_eq, max_eq_left (h lg hmem), mul_zero, add_zero]

/-- Constraints that lie above their models and are satisfied at `w` do not let the multipliers'
field point towards `w`, if the multipliers are not negative and vanish where a constraint does not
hold with equality at `v`. -/
theorem inner_multipliers_nonpos {lgs : List (ℝ × Landscape n)} {v w : Point n}
    (hconv : ∀ lg ∈ lgs, lg.2.IsConvex) (hw : ∀ lg ∈ lgs, lg.2.value w ≤ 0)
    (hl : ∀ lg ∈ lgs, 0 ≤ lg.1) (hv : ∀ lg ∈ lgs, lg.1 * lg.2.value v = 0) :
    ⟪(lgs.map fun (l, g) => l • g.field v).sum, w - v⟫ ≤ 0 := by
  induction lgs with
  | nil => simp
  | cons lg lgs ih =>
    obtain ⟨l, g⟩ := lg
    simp only [List.forall_mem_cons] at hconv hw hl hv
    rw [List.map_cons, List.sum_cons, inner_add_left, real_inner_smul_left]
    have hrest := ih hconv.2 hw.2 hl.2 hv.2
    have hmodel : ⟪g.field v, w - v⟫ ≤ g.value w - g.value v := by
      linarith [hconv.1 v w]
    have hfirst : l * ⟪g.field v, w - v⟫ ≤ 0 :=
      calc l * ⟪g.field v, w - v⟫ ≤ l * (g.value w - g.value v) :=
            mul_le_mul_of_nonneg_left hmodel hl.1
        _ = l * g.value w := by rw [mul_sub, hv.1, sub_zero]
        _ ≤ 0 := mul_nonpos_of_nonneg_of_nonpos hl.1 hw.1
    linarith

end Landscape

/-- Under the first-order conditions no feasible point is below, if all functions lie above their
first-order models. -/
theorem IsKKT.le_of_feasible {f : Landscape n} {gs : List (Landscape n)} {v w : Point n}
    {multipliers : List ℝ} (h : IsKKT f gs v multipliers) (hlen : multipliers.length = gs.length)
    (hf : f.IsConvex) (hg : ∀ g ∈ gs, g.IsConvex) (hw : ∀ g ∈ gs, g.value w ≤ 0) :
    f.value v ≤ f.value w := by
  have hmodel := hf v w
  have hsum := Landscape.inner_multipliers_nonpos (v := v)
    ((forall_mem_zip_snd hlen).mpr hg) ((forall_mem_zip_snd hlen).mpr hw)
    ((forall_mem_zip_fst hlen).mpr h.nonneg) h.complementary
  have hzero : ⟪f.field v, w - v⟫
      + ⟪((multipliers.zip gs).map fun (l, g) => l • g.field v).sum, w - v⟫ = 0 := by
    rw [← inner_add_left, h.stationary, inner_zero_left]
  linarith

/-- An array represents the origin if and only if its entries are zero. -/
theorem Tensor.Represents.eq_zero_iff {g : Tensor ℝ} {u : Point n} (hg : g.Represents shape u) :
    u = 0 ↔ ∀ e ∈ g.entries, e = 0 := by
  rw [hg.entries_eq, List.forall_mem_ofFn_iff]
  constructor
  · rintro rfl i
    rfl
  · intro h
    ext i
    exact h i

namespace AugmentedLagrangian

/-- The augmented gradient of a state vanishes at its point, and the update returns its multipliers.
-/
def IsFixed (s : Setup Id ℝ) (st : State ℝ) : Prop :=
  ∃ L dL g gx, s.objective st = .ok L ∧ L.gradient = .ok (some dL) ∧
    dL.evaluate st.point = pure g ∧ (∀ e ∈ g.entries, e = 0) ∧
    s.problem.constraintValues st.point = pure gx ∧
    raised st.multipliers st.weight gx = st.multipliers

variable {s : Setup Id ℝ} {st : State ℝ} {f : Landscape n} {gs : List (Landscape n)} {v : Point n}

/-- A fixed state, read off the landscape of its objective. -/
theorem isFixed_iff (hp : s.problem.Realizes shape f gs) (hx : st.point.Represents shape v)
    (hlen : st.multipliers.length = gs.length) :
    IsFixed s st ↔ (f.augmented gs st.multipliers st.weight).field v = 0 ∧
      raised st.multipliers st.weight (gs.map fun g => g.value v) = st.multipliers := by
  have hshape : st.multiplierVector.shape = [gs.length] := by rw [← hlen]; rfl
  have hentries : st.multiplierVector.entries = st.multipliers := List.map_id _
  obtain ⟨L, dL, hL, hdL, hr⟩ := hp.augmented s.precision hshape st.weight
  obtain ⟨g, hg, hgr⟩ := hr.field hx
  have hvalues := hp.constraintValues hx
  rw [hentries] at hgr
  rw [hgr.eq_zero_iff]
  constructor
  · rintro ⟨L', dL', g', gx, hL', hdL', hg', hzero, hgx, hraised⟩
    obtain rfl : L = L' := Except.ok.inj (hL.symm.trans hL')
    obtain rfl : dL = dL' := Option.some.inj (Except.ok.inj (hdL.symm.trans hdL'))
    obtain rfl : g = g' := Evaluation.pure_inj.mp (hg.symm.trans hg')
    obtain rfl := Evaluation.pure_inj.mp (hvalues.symm.trans hgx)
    exact ⟨hzero, hraised⟩
  · rintro ⟨hzero, hraised⟩
    exact ⟨L, dL, g, _, hL, hdL, hg, hzero, hvalues, hraised⟩

/-- With a positive weight, the states at which the method of multipliers stands still are the
points that satisfy the first-order conditions with their multipliers. If objective and constraints
lie above their first-order models, no feasible point has a smaller objective. -/
theorem isFixed_iff_isKKT (hp : s.problem.Realizes shape f gs) (hx : st.point.Represents shape v)
    (hlen : st.multipliers.length = gs.length) (hw : 0 < st.weight) :
    (IsFixed s st ↔ IsKKT f gs v st.multipliers) ∧
      (IsFixed s st → f.IsConvex → (∀ g ∈ gs, g.IsConvex) →
        ∀ w, (∀ g ∈ gs, g.value w ≤ 0) → f.value v ≤ f.value w) := by
  have hiff : IsFixed s st ↔ IsKKT f gs v st.multipliers := by
    rw [isFixed_iff hp hx hlen, raised_eq_self_iff hw hlen]
    constructor
    · -- Where the update returns the multipliers the constraints hold, so no penalty is left.
      rintro ⟨hzero, h⟩
      have hfeasible : ∀ lg ∈ st.multipliers.zip gs, lg.2.value v ≤ 0 :=
        fun lg hmem => (h lg hmem).2.1
      rw [Landscape.augmented_field_of_feasible _ hfeasible] at hzero
      exact ⟨hzero, (forall_mem_zip_snd hlen).mp hfeasible,
        (forall_mem_zip_fst hlen).mp fun lg hmem => (h lg hmem).1, fun lg hmem => (h lg hmem).2.2⟩
    · intro h
      have hfeasible := (forall_mem_zip_snd hlen).mpr h.feasible
      have hnonneg := (forall_mem_zip_fst hlen).mpr h.nonneg
      rw [Landscape.augmented_field_of_feasible _ hfeasible]
      exact ⟨h.stationary, fun lg hmem =>
        ⟨hnonneg lg hmem, hfeasible lg hmem, h.complementary lg hmem⟩⟩
  exact ⟨hiff, fun h hf hg w hw => (hiff.mp h).le_of_feasible hlen hf hg hw⟩

/-- The square of a coordinate is smallest at one among the numbers that are at least one, and the
multiplier two belongs to it. -/
theorem isFixed_iff_isKKT_square :
    let f : Landscape 1 := ⟨fun v => v 0 ^ 2, fun v => (2 : ℝ) • v⟩
    let g : Landscape 1 := ⟨fun v => 1 - v 0, fun _ => -EuclideanSpace.single 0 1⟩
    let v : Point 1 := EuclideanSpace.single 0 1
    let s : Setup Id ℝ := ⟨.double, Problem.euclidean f [g] rfl, ⟨10, 1, 2, .none, .error .absent⟩⟩
    let st : State ℝ := ⟨.ofPoint .double v, [2], 1⟩
    (s.problem.Realizes [1] f [g] ∧ st.point.Represents [1] v ∧ st.multipliers.length = [g].length ∧
      0 < st.weight) ∧
    IsFixed s st ∧ ∀ w : Point 1, 1 - w 0 ≤ 0 → v 0 ^ 2 ≤ w 0 ^ 2 := by
  intro f g v s st
  have hp : s.problem.Realizes [1] f [g] := Problem.realizes_euclidean f [g] rfl
  have hx : st.point.Represents [1] v := Tensor.represents_ofPoint .double v
  obtain ⟨hiff, hmin⟩ := isFixed_iff_isKKT hp hx rfl one_pos
  have hkkt : IsKKT f [g] v st.multipliers := by
    refine ⟨?_, ?_, ?_, ?_⟩
    · show (2 : ℝ) • v + ([(2 : ℝ) • -v]).sum = 0
      simp
    · simp [g, v]
    · simp [st]
    · simp [st, g, v]
  have hf : f.IsConvex := by
    intro u w
    show u 0 ^ 2 + ⟪(2 : ℝ) • u, w - u⟫ ≤ w 0 ^ 2
    simp only [PiLp.inner_apply, Fin.sum_univ_one, RCLike.inner_apply, conj_trivial,
      PiLp.smul_apply, PiLp.sub_apply, smul_eq_mul]
    nlinarith [sq_nonneg (w 0 - u 0)]
  have hg : ∀ c ∈ [g], c.IsConvex := by
    intro c hc u w
    obtain rfl := List.mem_singleton.mp hc
    show 1 - u 0 + ⟪-EuclideanSpace.single 0 1, w - u⟫ ≤ 1 - w 0
    simp only [inner_neg_left, EuclideanSpace.inner_single_left, map_one, one_mul, PiLp.sub_apply]
    linarith
  have hfixed : IsFixed s st := hiff.mpr hkkt
  refine ⟨⟨hp, hx, rfl, one_pos⟩, hfixed, fun w hw => hmin hfixed hf hg w ?_⟩
  intro c hc
  obtain rfl := List.mem_singleton.mp hc
  exact hw

end AugmentedLagrangian

end Minimization
