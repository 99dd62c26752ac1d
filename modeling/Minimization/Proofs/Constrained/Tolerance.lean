import Minimization.Proofs.Constrained.Inner
import Minimization.Proofs.Constrained.Outer

/-!
# Runs with a tolerance

A constrained solver with a tolerance makes the rounds that it makes without one, and ends after the
first one that `Settles`: `Setup.stops`. Whether a round settles can always be decided, since no inner
descent changes the shape of a point. So the run with a tolerance is the one without, cut off.

The tolerance enters a round behind everything else that it does (`round_withTolerance`), which is why two
runs that differ in it alone can be compared round by round. The comparison itself is that of schemes
(`Scheme.Stops`). On exact numbers what a round settles by is a bound of how far the point has moved, and
for the method of multipliers of every constraint value as well.
-/

namespace Minimization

variable {α : Type} [Scalar α]

/-! ## The end of a round -/

namespace Constrained

variable {σ ρ : Type} {advance : Constrained Id α ρ} {x : Tensor α} {y : ρ → Tensor α}
  {asked : ρ → α → α} {notice : ρ → α → α → Notice α} {next : ρ → σ} {c c' : Course α}

/-- Without a tolerance no round is the last one. -/
theorem settle_none_ok {st : σ} {done : Bool}
    (h : perform (advance >>= fun r => settle .none x (y r) (asked r) (notice r) (next r)) c
      = (.ok (st, done), c')) :
    done = false ∧ ∃ r, perform advance c = (.ok r, c') ∧ next r = st := by
  obtain ⟨r, c₁, hadvance, h⟩ := perform_bind_eq_ok.mp h
  obtain ⟨heq, rfl⟩ := perform_pure_eq_ok.mp h
  obtain ⟨hnext, hdone⟩ := Prod.mk.inj heq
  exact ⟨hdone.symm, r, hadvance, hnext⟩

/-- Without a tolerance a round fails only in its progress. -/
theorem settle_none_error {e : Failure}
    (h : perform (advance >>= fun r => settle .none x (y r) (asked r) (notice r) (next r)) c
      = (.error e, c')) : perform advance c = (.error e, c') := by
  rcases hadvance : perform advance c with ⟨e' | r, c₁⟩
  · rw [perform_bind_of_error hadvance] at h
    cases h
    rfl
  · rw [perform_bind_of_ok hadvance] at h
    cases congrArg Prod.fst h

end Constrained

/-- A scheme with a tolerance stops the one without after a round that settles, if it can be decided
whether one does. -/
theorem Scheme.Stops.of_settle {σ ρ : Type} {S S' : Scheme σ α} {settles : σ → σ → Prop} {t : α}
    {advance : Nat → σ → Constrained Id α ρ} {y : ρ → Tensor α} {asked : ρ → α → α}
    {notice : Nat → ρ → α → α → Notice α} {next : ρ → σ} (hopening : S'.opening = S.opening)
    (hlimit : S'.limit = S.limit) (hpoint : S'.point = S.point) (hreport : S'.report = S.report)
    (hfree : ∀ n st, S.round n st = advance n st >>= fun r =>
      Constrained.settle .none (S.point st) (y r) (asked r) (notice n r) (next r))
    (hround : ∀ n st, S'.round n st = advance n st >>= fun r =>
      Constrained.settle (.upTo t) (S.point st) (y r) (asked r) (notice n r) (next r))
    (hsettles : ∀ {n st r c c'}, perform (advance n st) c = (.ok r, c') →
      ∃ moved, (y r).dist (S.point st) = .ok moved ∧
        (settles st (next r) ↔ (Scalar.le moved t && Scalar.le (asked r moved) t) = true)) :
    S'.Stops S settles where
  opening_eq := hopening
  limit_eq := hlimit
  point_eq := hpoint
  report_eq := hreport
  endless {n st u next done v} h := by
    rw [hfree] at h
    exact (Constrained.settle_none_ok h).1
  failed {n st u e v} h := by
    rw [hfree] at h
    rw [hround]
    exact perform_bind_of_error (Constrained.settle_none_error h) _
  settled {n st u next done v} h hst := by
    rw [hfree] at h
    obtain ⟨-, r, hadvance, rfl⟩ := Constrained.settle_none_ok h
    obtain ⟨moved, hmoved, hiff⟩ := hsettles hadvance
    refine ⟨notice n r moved t, ?_⟩
    rw [hround, perform_bind_of_ok hadvance, Constrained.settle_upTo hmoved, if_pos (hiff.mp hst)]
  -- Otherwise the round hands on the state of the endless scheme, and tells nothing.
  unsettled {n st u next done v} h hst := by
    rw [hfree] at h
    obtain ⟨-, r, hadvance, rfl⟩ := Constrained.settle_none_ok h
    obtain ⟨moved, hmoved, hiff⟩ := hsettles hadvance
    rw [hround, perform_bind_of_ok hadvance, Constrained.settle_upTo hmoved,
      if_neg fun hle => hst (hiff.mpr hle)]

/-- An array is within a tolerance of another one. -/
def Tensor.IsNear (y x : Tensor α) (t : α) : Prop := ∃ moved, y.dist x = .ok moved ∧ Scalar.le moved t

theorem Tensor.isNear_iff {x y : Tensor α} {t moved : α} (h : y.dist x = .ok moved) :
    y.IsNear x t ↔ Scalar.le moved t := by
  constructor
  · rintro ⟨moved', h', hle⟩
    obtain rfl := Except.ok.inj (h.symm.trans h')
    exact hle
  · exact fun hle => ⟨moved, h, hle⟩

/-! ## Violations -/

/-- A largest number is at most a bound only if all of them are. -/
theorem foldl_max_le {xs : List ℝ} {a t : ℝ} (h : xs.foldl max a ≤ t) : a ≤ t ∧ ∀ y ∈ xs, y ≤ t := by
  induction xs generalizing a with
  | nil => exact ⟨h, nofun⟩
  | cons y xs ih =>
    obtain ⟨hmax, hxs⟩ := ih h
    have hy : y ≤ t := le_trans (le_max_right a y) hmax
    exact ⟨le_trans (le_max_left a y) hmax, List.forall_mem_cons.mpr ⟨hy, hxs⟩⟩

/-- On exact numbers the violation is not below any of the constraint values. -/
theorem Problem.le_of_violationOf_le {gs : List ℝ} {t : ℝ} (h : violationOf gs ≤ t) :
    ∀ g ∈ gs, g ≤ t := by
  cases gs with
  | nil => exact nofun
  | cons g gs =>
    have hmap : (g :: gs).map ExactScalar.ofReal = g :: gs :=
      (List.map_congr_left fun a _ => ExactScalar.ofReal_real a).trans (List.map_id _)
    have hlargest : Scalar.largest (g :: gs) = gs.foldl max g := by
      rw [← hmap]
      exact ExactScalar.largest_ofReal (α := ℝ) g gs
    have hviolation : violationOf (g :: gs) = max 0 (gs.foldl max g) := by
      show Scalar.positivePart (Scalar.largest (g :: gs)) = _
      rw [hlargest]
      exact ExactScalar.positivePart_ofReal (α := ℝ) _
    rw [hviolation] at h
    exact List.forall_mem_cons.mpr (foldl_max_le ((le_max_right 0 _).trans h))

/-! ## The method of multipliers -/

namespace AugmentedLagrangian

/-- The run with another tolerance. -/
def Setup.withTolerance (s : Setup Id α) (tolerance : Tolerance α) : Setup Id α :=
  { s with settings := { s.settings with tolerance } }

/-- A round settles if it moves the point, and if the next point violates the constraints, by no more
than the tolerance. -/
structure Setup.Settles (s : Setup Id α) (t : α) (st next : State α) : Prop where
  near : next.point.IsNear st.point t
  satisfied : ∃ gx, s.problem.constraintValues next.point = pure gx ∧
    Scalar.le (Problem.violationOf gx) t

/-- The progress of a round does not look at the tolerance, so two runs that differ in nothing else advance
alike. -/
theorem Setup.round_withTolerance (s : Setup Id α) (tolerance : Tolerance α) (number : Nat)
    (st : State α) :
    round (s.withTolerance tolerance) number st = s.advance number st >>= fun r =>
      Constrained.settle tolerance st.point r.1.point (fun _ => Problem.violationOf r.2)
        (fun moved => .multipliersSettled number moved (Problem.violationOf r.2)) r.1 :=
  round_eq (s.withTolerance tolerance) number st

/-- Where a round advances, it can be decided whether it settles. -/
theorem Setup.settles_iff {s : Setup Id α} {number : Nat} {st : State α} {r : State α × List α}
    {c c' : Course α} (h : perform (s.advance number st) c = (.ok r, c')) (t : α) :
    ∃ moved, r.1.point.dist st.point = .ok moved ∧
      (s.Settles t st r.1 ↔ (Scalar.le moved t && Scalar.le (Problem.violationOf r.2) t) = true) := by
  obtain ⟨objective, x, gx, c₁, c₂, c₃, notice, hobjective, -, hx, -, hgx, -, rfl⟩ := advance_ok h
  -- The descent keeps the shape, so that there is a distance to compare.
  have hshape : x.shape = st.point.shape := (descent_isAlong hobjective st.point).shape_eq hx
  obtain ⟨moved, hmoved⟩ := Tensor.dist_ok hshape
  refine ⟨moved, hmoved, ?_⟩
  rw [Bool.and_eq_true, ← Tensor.isNear_iff hmoved]
  constructor
  · rintro ⟨hnear, gx', hgx', hle⟩
    obtain rfl := Evaluation.pure_inj.mp (hgx.symm.trans hgx')
    exact ⟨hnear, hle⟩
  · rintro ⟨hnear, hle⟩
    exact ⟨hnear, gx, hgx, hle⟩

/-- The run with a tolerance stops the one without after a round that settles. -/
theorem Setup.stops (s : Setup Id α) (t : α) (guess : Tensor α) :
    Scheme.Stops ((s.withTolerance (.upTo t)).scheme guess) ((s.withTolerance .none).scheme guess)
      (s.Settles t) :=
  .of_settle rfl rfl rfl rfl (s.round_withTolerance .none) (s.round_withTolerance (.upTo t))
    fun h => settles_iff h t

/-- On exact numbers no constraint has a value above the tolerance where a round settles. -/
theorem Setup.Settles.le {s : Setup Id ℝ} {t : ℝ} {st next : State ℝ} (h : s.Settles t st next) :
    ∃ gx, s.problem.constraintValues next.point = pure gx ∧ ∀ g ∈ gx, g ≤ t := by
  obtain ⟨gx, hgx, hle⟩ := h.satisfied
  exact ⟨gx, hgx, Problem.le_of_violationOf_le (of_decide_eq_true hle)⟩

end AugmentedLagrangian

/-! ## The barrier method -/

namespace LogBarrier

/-- The run with another tolerance. -/
def Setup.withTolerance (s : Setup Id α) (tolerance : Tolerance α) : Setup Id α :=
  { s with settings := { s.settings with tolerance } }

/-- A round settles if it moves the point by no more than the tolerance. -/
def Settles (t : α) (st next : State α) : Prop := next.point.IsNear st.point t

/-- Nor does it here. -/
theorem Setup.round_withTolerance (s : Setup Id α) (tolerance : Tolerance α) (number : Nat)
    (st : State α) :
    round (s.withTolerance tolerance) number st = s.advance number st >>= fun next =>
      Constrained.settle tolerance st.point next.point id (.barrierSettled number) next :=
  round_eq (s.withTolerance tolerance) number st

/-- What a round settles by is what is compared at its end. -/
theorem settles_iff {s : Setup Id α} {number : Nat} {st next : State α} {c c' : Course α}
    (h : perform (s.advance number st) c = (.ok next, c')) (t : α) :
    ∃ moved, next.point.dist st.point = .ok moved ∧
      (Settles t st next ↔ (Scalar.le moved t && Scalar.le (id moved) t) = true) := by
  obtain ⟨c₁, c₂, c₃, notice, hx, -⟩ := advance_ok h
  have hshape : next.point.shape = st.point.shape :=
    (descent_isAlong s st.weight st.point).shape_eq hx
  obtain ⟨moved, hmoved⟩ := Tensor.dist_ok hshape
  refine ⟨moved, hmoved, ?_⟩
  rw [id, Bool.and_self]
  exact Tensor.isNear_iff hmoved

/-- A run with a tolerance is the run without one, stopped at the first round that settles. -/
theorem Setup.stops (s : Setup Id α) (t : α) (guess : Tensor α) :
    Scheme.Stops ((s.withTolerance (.upTo t)).scheme guess) ((s.withTolerance .none).scheme guess)
      (Settles t) :=
  .of_settle rfl rfl rfl rfl (s.round_withTolerance .none) (s.round_withTolerance (.upTo t))
    fun h => settles_iff h t

end LogBarrier

/-! ## Runs -/

theorem AugmentedLagrangian.Setup.minimize_cut (s : Setup Id α) (t : α) (guess : Tensor α)
    (c : Course α) :
    ((s.withTolerance .none).scheme guess).Cut (s.Settles t) c (perform
      (minimize s.precision s.problem (.ok { s.settings with tolerance := .upTo t }) guess) c) := by
  have hcut := (s.stops t guess).cut c
  rw [← minimize_eq_run] at hcut
  exact hcut

theorem LogBarrier.Setup.minimize_cut (s : Setup Id α) (t : α) (guess : Tensor α) (c : Course α) :
    ((s.withTolerance .none).scheme guess).Cut (Settles t) c (perform
      (minimize s.precision s.problem (.ok { s.settings with tolerance := .upTo t }) guess) c) := by
  have hcut := (s.stops t guess).cut c
  rw [← minimize_eq_run] at hcut
  exact hcut

/-- Both constrained solvers with a tolerance make the run that they make without one, cut off after the
first round that settles: they return the point of that round, and they report the multipliers and the
weight that this run has then. If no round settles the two runs are the same, and one that does not fail
ends after the greatest number of rounds. On exact numbers, a point that the method of multipliers
returns after a round that settles has no constraint value above the tolerance. -/
theorem minimize_withTolerance_cut :
    (∀ {α : Type} [Scalar α] (s : AugmentedLagrangian.Setup Id α) (t : α) (guess : Tensor α)
      (c : Course α),
      let S := (s.withTolerance .none).scheme guess
      S.run = AugmentedLagrangian.minimize s.precision s.problem
        (.ok { s.settings with tolerance := .none }) guess ∧
      (∀ x v, perform S.run c = (.ok x, v) →
        ∃ p, S.Stands c s.settings.maxRounds.toNat p ∧ x = p.1.point ∧
          v = { p.2 with report := ⟨p.1.multipliers, p.1.weight, s.settings.maxRounds.toNat⟩ }) ∧
      S.Cut (s.Settles t) c (perform (AugmentedLagrangian.minimize s.precision s.problem
        (.ok { s.settings with tolerance := .upTo t }) guess) c)) ∧
    (∀ {α : Type} [Scalar α] (s : LogBarrier.Setup Id α) (t : α) (guess : Tensor α) (c : Course α),
      let S := (s.withTolerance .none).scheme guess
      S.run = LogBarrier.minimize s.precision s.problem
        (.ok { s.settings with tolerance := .none }) guess ∧
      (∀ x v, perform S.run c = (.ok x, v) →
        ∃ p, S.Stands c s.settings.maxRounds.toNat p ∧ x = p.1.point ∧
          v = { p.2 with report := ⟨[], p.1.weight, s.settings.maxRounds.toNat⟩ }) ∧
      S.Cut (LogBarrier.Settles t) c (perform (LogBarrier.minimize s.precision s.problem
        (.ok { s.settings with tolerance := .upTo t }) guess) c)) ∧
    ∀ (s : AugmentedLagrangian.Setup Id ℝ) (t : ℝ) (guess x : Tensor ℝ) (c v : Course ℝ),
      perform (AugmentedLagrangian.minimize s.precision s.problem
        (.ok { s.settings with tolerance := .upTo t }) guess) c = (.ok x, v) →
      ((s.withTolerance .none).scheme guess).Unsettled (s.Settles t) c s.settings.maxRounds.toNat ∨
        ∃ gx, s.problem.constraintValues x = pure gx ∧ ∀ g ∈ gx, g ≤ t := by
  refine ⟨fun s t guess c => ⟨?_, fun x v h => (s.stops t guess).run_ok h, s.minimize_cut t guess c⟩,
    fun s t guess c => ⟨?_, fun x v h => (s.stops t guess).run_ok h, s.minimize_cut t guess c⟩,
    fun s t guess x c v h => ?_⟩
  · exact (AugmentedLagrangian.minimize_eq_run (s.withTolerance .none) guess).symm
  · exact (LogBarrier.minimize_eq_run (s.withTolerance .none) guess).symm
  · have hcut := s.minimize_cut t guess c
    rw [h] at hcut
    generalize ho : (Except.ok x, v) = o at hcut
    cases hcut with
    | settled _ _ _ hsettles _ =>
      obtain rfl := Except.ok.inj (congrArg Prod.fst ho)
      exact .inr hsettles.le
    | unsettled hunsettled => exact .inl hunsettled

end Minimization
