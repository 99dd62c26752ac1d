import Minimization.Proofs.Constrained.Barrier

/-!
# What the barrier's multipliers balance

A snapshot of the barrier method holds the multipliers `-μ / gᵢ(x)` that the weight of the barrier
implies at its point. Where the gradient of a barrier `f - μ ∑ log (-gᵢ)` vanishes, they would balance
the gradients of objective and constraints. But the field that the inner descents follow is made of
directions of norm one, so that where it vanishes they balance these directions
(`LogBarrier.snapshot_balances`). To balance the gradients themselves each of them has to be rescaled
by the ratio of two norms; only where these norms agree nothing is to be done.
-/

namespace Minimization

open ExactScalar

variable {n : Nat} {shape : List Nat}

namespace Landscape

variable {f : Landscape n} {gs : List (Landscape n)} {v : Point n}

/-- The multipliers of constraints balance their fields with that of the objective. -/
def IsStationary (f : Landscape n) (gs : List (Landscape n)) (v : Point n) (multipliers : List ℝ) :
    Prop :=
  f.field v + (List.zipWith (fun l g => l • g.field v) multipliers gs).sum = 0

/-- Stationarity for multipliers that are a function of the constraints, as one sum over the constraints. -/
theorem isStationary_map {l : Landscape n → ℝ} :
    f.IsStationary gs v (gs.map l) ↔ f.field v + (gs.map fun g => l g • g.field v).sum = 0 := by
  rw [IsStationary, List.zipWith_map_left, List.zipWith_self]

/-- The function with its field brought to norm one. -/
noncomputable def directed (f : Landscape n) : Landscape n :=
  ⟨f.value, fun v => unit negligible (f.field v)⟩

/-- The same for the landscape whose gradients all have unit length, which the barrier method descends
along. -/
theorem isStationary_directed_map {l : Landscape n → ℝ} :
    f.directed.IsStationary (gs.map directed) v (gs.map l) ↔
      f.directed.field v + (gs.map fun g => l g • g.directed.field v).sum = 0 := by
  rw [IsStationary, List.zipWith_map, List.zipWith_self]

/-- A field that is not negligible is its norm times its direction. -/
theorem norm_smul_directed (hf : negligible ≤ ‖f.field v‖) :
    ‖f.field v‖ • f.directed.field v = f.field v := by
  have hpos : 0 < ‖f.field v‖ := negligible_pos.trans_le hf
  show ‖f.field v‖ • unit negligible (f.field v) = _
  rw [unit_of_le hf, smul_smul, mul_inv_cancel₀ hpos.ne', one_smul]

/-- Multipliers for directions of norm one, as multipliers for the fields themselves. -/
noncomputable def rescaled (f : Landscape n) (gs : List (Landscape n)) (v : Point n)
    (multipliers : List ℝ) : List ℝ :=
  List.zipWith (fun l g => l * (‖f.field v‖ / ‖g.field v‖)) multipliers gs

theorem rescaled_map (l : Landscape n → ℝ) :
    f.rescaled gs v (gs.map l) = gs.map fun g => l g * (‖f.field v‖ / ‖g.field v‖) := by
  rw [rescaled, List.zipWith_map_left, List.zipWith_self]

/-- Where all fields have the same norm nothing is rescaled. -/
theorem rescaled_map_of_norm_eq (hf : negligible ≤ ‖f.field v‖)
    (hg : ∀ g ∈ gs, ‖g.field v‖ = ‖f.field v‖) (l : Landscape n → ℝ) :
    f.rescaled gs v (gs.map l) = gs.map l := by
  rw [rescaled_map]
  refine List.map_congr_left fun g hmem => ?_
  rw [hg g hmem, div_self (negligible_pos.trans_le hf).ne', mul_one]

/-- Multipliers that balance the directions balance the fields once they are rescaled: the balance of
the directions is multiplied by the norm of the objective's field. -/
theorem isStationary_rescaled_map (hf : negligible ≤ ‖f.field v‖)
    (hg : ∀ g ∈ gs, negligible ≤ ‖g.field v‖) {l : Landscape n → ℝ}
    (h : f.directed.IsStationary (gs.map directed) v (gs.map l)) :
    f.IsStationary gs v (f.rescaled gs v (gs.map l)) := by
  have hterm : ∀ g ∈ gs, (l g * (‖f.field v‖ / ‖g.field v‖)) • g.field v
      = ‖f.field v‖ • l g • g.directed.field v := by
    intro g hmem
    have hpos : 0 < ‖g.field v‖ := negligible_pos.trans_le (hg g hmem)
    calc (l g * (‖f.field v‖ / ‖g.field v‖)) • g.field v
        = (l g * (‖f.field v‖ / ‖g.field v‖)) • ‖g.field v‖ • g.directed.field v := by
          rw [norm_smul_directed (hg g hmem)]
      _ = ‖f.field v‖ • l g • g.directed.field v := by
          rw [smul_smul, smul_smul, mul_assoc, div_mul_cancel₀ _ hpos.ne', mul_comm]
  rw [isStationary_directed_map] at h
  rw [rescaled_map, isStationary_map, List.map_congr_left hterm]
  calc f.field v + (gs.map fun g => ‖f.field v‖ • l g • g.directed.field v).sum
      = ‖f.field v‖ • f.directed.field v
        + ‖f.field v‖ • (gs.map fun g => l g • g.directed.field v).sum := by
        rw [norm_smul_directed hf, List.smul_sum, List.map_map]
        rfl
    _ = 0 := by rw [← smul_add, h, smul_zero]

/-- At strictly feasible points the field of the barrier vanishes where the multipliers that its weight
implies balance the directions. -/
theorem barrierField_eq_zero_iff (hv : StrictlyFeasible gs v) (weight : ℝ) :
    f.barrierField gs weight v = 0 ↔
      f.directed.IsStationary (gs.map directed) v (gs.map fun g => -weight / g.value v) := by
  have hpush : ∀ g ∈ gs, barrierPush weight (g.value v) • unit negligible (g.field v)
      = (-weight / g.value v) • g.directed.field v := by
    intro g hmem
    rw [barrierPush, if_pos (hv g hmem), neg_div]
    rfl
  rw [isStationary_directed_map, barrierField, List.map_congr_left hpush]
  rfl

end Landscape

namespace LogBarrier

variable {α : Type} [ExactScalar α] {s : Setup Id α} {f : Landscape n} {gs : List (Landscape n)}
  {x : Tensor α} {v : Point n}

/-- The gradient that an inner descent follows vanishes at a point. -/
def Setup.Rests (s : Setup Id α) (weight : α) (x : Tensor α) : Prop :=
  ∃ g, s.problem.barrierGradient s.precision weight x = pure g ∧ ∀ e ∈ g.entries, e = Scalar.zero

/-- An inner descent rests exactly where the field that it follows vanishes. -/
theorem Setup.rests_iff (hp : s.problem.Realizes shape f gs) (hx : x.Represents shape v)
    (weight : ℝ) : s.Rests (ofReal weight) x ↔ f.barrierField gs weight v = 0 := by
  obtain ⟨g, hg, hr⟩ := hp.barrierGradient hx s.precision weight
  have hentries : (∀ e ∈ g.entries, e = Scalar.zero) ↔ f.barrierField gs weight v = 0 := by
    rw [hr.entries_eq, List.forall_mem_ofFn_iff, zero_eq]
    constructor
    · intro h
      ext i
      exact ofReal_injective (h i)
    · intro h i
      rw [h]
      rfl
  rw [← hentries]
  constructor
  · rintro ⟨g', hg', hzero⟩
    obtain rfl : g = g' := Evaluation.pure_inj.mp (hg.symm.trans hg')
    exact hzero
  · intro hzero
    exact ⟨g, hg, hzero⟩

/-- The multipliers that a snapshot of a strictly feasible point holds. -/
theorem Setup.multipliers_of_snapshot (hp : s.problem.Realizes shape f gs)
    (hx : x.Represents shape v) (hv : StrictlyFeasible gs v) (weight : ℝ) :
    ∃ t, s.snapshot (ofReal weight) x = pure t ∧
      t.multipliers.entries = (gs.map fun g => -weight / g.value v).map ofReal := by
  unfold Setup.snapshot
  rw [hp.constraintValues hx, pure_bind, hp.objective.value hx, pure_bind, hp.barrier hx, pure_bind]
  refine ⟨_, rfl, ?_⟩
  dsimp only
  rw [impliedMultipliers_eq hv, Tensor.entries_vector, List.map_map]
  rfl

/-- At a strictly feasible point at which an inner descent rests, the multipliers of the snapshot
balance the directions of the gradients. Rescaled by the norms of the gradients they balance the
gradients themselves, and they do so as they are if all gradients have the same norm. -/
theorem snapshot_balances (hp : s.problem.Realizes shape f gs) (hx : x.Represents shape v)
    (hv : StrictlyFeasible gs v) (hf : negligible ≤ ‖f.field v‖)
    (hg : ∀ g ∈ gs, negligible ≤ ‖g.field v‖) {weight : ℝ} (hrests : s.Rests (ofReal weight) x) :
    ∃ t multipliers, s.snapshot (ofReal weight) x = pure t ∧
      t.multipliers.entries = multipliers.map ofReal ∧
      multipliers = gs.map (fun g => -weight / g.value v) ∧
      f.directed.IsStationary (gs.map Landscape.directed) v multipliers ∧
      f.IsStationary gs v (f.rescaled gs v multipliers) ∧
      ((∀ g ∈ gs, ‖g.field v‖ = ‖f.field v‖) → f.IsStationary gs v multipliers) := by
  obtain ⟨t, ht, hmultipliers⟩ := Setup.multipliers_of_snapshot hp hx hv weight
  have hbalance := (Landscape.barrierField_eq_zero_iff hv weight).mp
    ((Setup.rests_iff hp hx weight).mp hrests)
  have hrescaled := Landscape.isStationary_rescaled_map hf hg hbalance
  refine ⟨t, _, ht, hmultipliers, rfl, hbalance, hrescaled, fun hnorm => ?_⟩
  rwa [Landscape.rescaled_map_of_norm_eq hf hnorm] at hrescaled

end LogBarrier

/-! ## On a line -/

/-- A linear function of one coordinate. -/
noncomputable def Landscape.linear (a : ℝ) : Landscape 1 := ⟨fun v => a * v 0, fun _ => .single 0 a⟩

theorem Landscape.norm_linear (a : ℝ) (v : Point 1) : ‖(linear a).field v‖ = |a| := by
  show ‖(EuclideanSpace.single 0 a : Point 1)‖ = _
  rw [PiLp.norm_single, Real.norm_eq_abs]

/-- Where it is not negligible, the slope of a line is replaced by its sign. -/
theorem Landscape.directed_linear {a : ℝ} (ha : negligible ≤ |a|) (v : Point 1) :
    (linear a).directed.field v = .single 0 (|a|⁻¹ * a) := by
  show unit negligible ((linear a).field v) = _
  rw [unit_of_le (by rwa [norm_linear]), norm_linear]
  ext i
  obtain rfl : i = 0 := Subsingleton.elim i 0
  simp [linear]

theorem Landscape.negligible_le_linear {a : ℝ} (ha : 1 ≤ |a|) (v : Point 1) :
    negligible ≤ ‖(linear a).field v‖ := by
  rw [norm_linear]
  exact negligible_le_one.trans ha

namespace LogBarrier

/-- A barrier of weight one brings twice a coordinate to rest at one, among its positive values. -/
theorem rests_at_one :
    let v : Point 1 := .single 0 1
    let x : Tensor ℝ := .ofPoint .double v
    let s : Setup Id ℝ := ⟨.double, .euclidean (.linear 2) [.linear (-1)] rfl,
      ⟨1, 1, 1, .none, .error .absent⟩⟩
    s.problem.Realizes [1] (.linear 2) [.linear (-1)] ∧ x.Represents [1] v ∧
      StrictlyFeasible [.linear (-1)] v ∧ negligible ≤ ‖(Landscape.linear 2).field v‖ ∧
      (∀ g ∈ [Landscape.linear (-1)], negligible ≤ ‖g.field v‖) ∧ s.Rests 1 x := by
  intro v x s
  have hp : s.problem.Realizes [1] (.linear 2) [.linear (-1)] := Problem.realizes_euclidean _ _ rfl
  have hx : x.Represents [1] v := Tensor.represents_ofPoint .double v
  have hv : StrictlyFeasible [Landscape.linear (-1)] v := by
    refine List.forall_mem_singleton.mpr ?_
    simp [v, Landscape.linear]
  have hf : 1 ≤ |(2 : ℝ)| := by norm_num
  have hg : 1 ≤ |(-1 : ℝ)| := by norm_num
  refine ⟨hp, hx, hv, Landscape.negligible_le_linear hf v,
    List.forall_mem_singleton.mpr (Landscape.negligible_le_linear hg v), ?_⟩
  rw [← ofReal_real 1, Setup.rests_iff hp hx, Landscape.barrierField_eq_zero_iff hv,
    Landscape.isStationary_directed_map, List.map_singleton, List.sum_singleton,
    Landscape.directed_linear (negligible_le_one.trans hf),
    Landscape.directed_linear (negligible_le_one.trans hg)]
  ext i
  obtain rfl : i = 0 := Subsingleton.elim i 0
  simp [v, Landscape.linear]

/-- The multipliers of the snapshot do not balance the gradients there: the gradient of the objective
is twice as long as that of the constraint. -/
theorem snapshot_unbalanced :
    let v : Point 1 := .single 0 1
    let x : Tensor ℝ := .ofPoint .double v
    let s : Setup Id ℝ := ⟨.double, .euclidean (.linear 2) [.linear (-1)] rfl,
      ⟨1, 1, 1, .none, .error .absent⟩⟩
    (s.problem.Realizes [1] (.linear 2) [.linear (-1)] ∧ x.Represents [1] v ∧
      StrictlyFeasible [.linear (-1)] v ∧ negligible ≤ ‖(Landscape.linear 2).field v‖ ∧
      (∀ g ∈ [Landscape.linear (-1)], negligible ≤ ‖g.field v‖) ∧ s.Rests 1 x) ∧
    ∃ t, s.snapshot 1 x = pure t ∧ t.multipliers.entries = [1] ∧
      ¬(Landscape.linear 2).IsStationary [.linear (-1)] v t.multipliers.entries := by
  intro v x s
  obtain ⟨hp, hx, hv, hrest⟩ := rests_at_one
  obtain ⟨t, ht, hmultipliers⟩ := Setup.multipliers_of_snapshot hp hx hv 1
  have hone : t.multipliers.entries = [1] := by
    rw [hmultipliers]
    simp [Landscape.linear]
  refine ⟨⟨hp, hx, hv, hrest⟩, t, ht, hone, fun hbalance => ?_⟩
  -- In the only coordinate the balance is two minus one.
  rw [hone] at hbalance
  have h := congrArg (fun u : Point 1 => u 0) hbalance
  norm_num [Landscape.linear] at h

/-- What the multipliers of that snapshot balance. -/
theorem snapshot_balances_at_one :
    let v : Point 1 := .single 0 1
    let x : Tensor ℝ := .ofPoint .double v
    let s : Setup Id ℝ := ⟨.double, .euclidean (.linear 2) [.linear (-1)] rfl,
      ⟨1, 1, 1, .none, .error .absent⟩⟩
    (s.problem.Realizes [1] (.linear 2) [.linear (-1)] ∧ x.Represents [1] v ∧
      StrictlyFeasible [.linear (-1)] v ∧ negligible ≤ ‖(Landscape.linear 2).field v‖ ∧
      (∀ g ∈ [Landscape.linear (-1)], negligible ≤ ‖g.field v‖) ∧ s.Rests 1 x) ∧
    ∃ t, s.snapshot 1 x = pure t ∧ t.multipliers.entries = [1] ∧
      (Landscape.linear 2).directed.IsStationary [(Landscape.linear (-1)).directed] v [1] ∧
      (Landscape.linear 2).IsStationary [.linear (-1)] v
        ((Landscape.linear 2).rescaled [.linear (-1)] v [1]) := by
  intro v x s
  obtain ⟨hp, hx, hv, hf, hg, hrests⟩ := rests_at_one
  obtain ⟨t, multipliers, ht, hentries, hmultipliers, hdirected, hrescaled, -⟩ :=
    snapshot_balances hp hx hv hf hg (show s.Rests (ofReal (1 : ℝ)) x from hrests)
  obtain rfl : multipliers = [1] := by
    rw [hmultipliers]
    simp [Landscape.linear]
  exact ⟨⟨hp, hx, hv, hf, hg, hrests⟩, t, ht, hentries.trans (List.map_id _), hdirected, hrescaled⟩

end LogBarrier

end Minimization
