import Minimization.Proofs.Constrained.Tolerance
import Minimization.Proofs.Float.Order

/-!
# Violations where constraint values are not numbers

A problem, a snapshot and a round of the method of multipliers reduce the constraint values at a point to
one number in the same way: the largest value where it is positive, and zero where it is not. The largest
of some values is not a number if one of them is none, and such a largest value is not positive either. So
the violation is an upper bound of the values if all of them are numbers, but zero if one of them is not,
whatever the others are (`Problem.IsViolation`), and a run with a tolerance may then end at a point where
another constraint is violated.
-/

namespace Minimization

open Scalar (IsNumber OrdersNumbers)

variable {α : Type} [Scalar α]

/-! ## The largest of some numbers -/

namespace Scalar

/-- A maximum is one of its numbers, even if one of them is not a number. -/
theorem max_eq_or (a b : α) : Scalar.max a b = a ∨ Scalar.max a b = b := by
  unfold Scalar.max
  split
  next => exact .inl rfl
  next => exact .inr rfl

theorem foldl_max_mem (a : α) (as : List α) : as.foldl Scalar.max a ∈ a :: as := by
  induction as generalizing a with
  | nil => exact List.mem_singleton_self a
  | cons b as ih =>
    rcases List.mem_cons.mp (ih (Scalar.max a b)) with h | h
    · rw [List.foldl_cons, h]
      rcases max_eq_or a b with hmax | hmax
      · rw [hmax]
        exact List.mem_cons_self ..
      · rw [hmax]
        exact List.mem_cons_of_mem _ (List.mem_cons_self ..)
    · exact List.mem_cons_of_mem _ (List.mem_cons_of_mem _ h)

namespace OrdersNumbers

variable (ho : OrdersNumbers α) {a b : α} {as : List α}
include ho

/-- A maximum of two is a number exactly if both are, on whichever side what is not a number stands. -/
theorem isNumber_max_iff : IsNumber (Scalar.max a b) ↔ IsNumber a ∧ IsNumber b := by
  unfold Scalar.max
  by_cases ha : IsNumber a
  · rw [isUndefined_eq_false_iff.mpr ha, Bool.or_false]
    split
    next h => exact ⟨fun _ => ho.isNumber h |>.symm, And.left⟩
    next => exact ⟨fun hb => ⟨ha, hb⟩, And.right⟩
  · rw [isUndefined_iff.mpr ha, Bool.or_true, if_pos rfl]
    exact ⟨fun h => absurd h ha, And.left⟩

theorem le_max (ha : IsNumber a) (hb : IsNumber b) :
    le a (Scalar.max a b) = true ∧ le b (Scalar.max a b) = true := by
  unfold Scalar.max
  rw [isUndefined_eq_false_iff.mpr ha, Bool.or_false]
  split
  next h => exact ⟨ha, h⟩
  next h => exact ⟨(ho.total ha hb).resolve_right h, hb⟩

/-- The largest of some values is a number if all of them are. -/
theorem isNumber_foldl_max_iff : IsNumber (as.foldl Scalar.max a) ↔ ∀ g ∈ a :: as, IsNumber g := by
  induction as generalizing a with
  | nil => simp
  | cons b as ih =>
    rw [List.foldl_cons, ih]
    simp only [List.forall_mem_cons, ho.isNumber_max_iff, and_assoc]

/-- Among numbers the largest one is found in whatever order they come. -/
theorem le_foldl_max (h : ∀ g ∈ a :: as, IsNumber g) :
    ∀ g ∈ a :: as, le g (as.foldl Scalar.max a) = true := by
  induction as generalizing a with
  | nil =>
    intro g hg
    obtain rfl := List.mem_singleton.mp hg
    exact h g hg
  | cons b as ih =>
    simp only [List.forall_mem_cons] at h
    obtain ⟨ha, hb, has⟩ := h
    have hmax := ih (List.forall_mem_cons.mpr ⟨ho.isNumber_max_iff.mpr ⟨ha, hb⟩, has⟩)
    rw [List.forall_mem_cons] at hmax
    obtain ⟨hle, hle'⟩ := ho.le_max ha hb
    simp only [List.forall_mem_cons]
    exact ⟨ho.trans hle hmax.1, ho.trans hle' hmax.1, hmax.2⟩

end OrdersNumbers

end Scalar

/-! ## Violations -/

/-- A number is the violation of some constraint values: zero if one of them is not a number, and
otherwise the largest of them and of zero. -/
structure Problem.IsViolation (v : α) (gs : List α) : Prop where
  of_undefined : (∃ g ∈ gs, ¬IsNumber g) → v = Scalar.zero
  zero_le : Scalar.le Scalar.zero v = true
  le : (∀ g ∈ gs, IsNumber g) → ∀ g ∈ gs, Scalar.le g v = true
  eq_zero_or_mem : v = Scalar.zero ∨ v ∈ gs

theorem Problem.isViolation (ho : OrdersNumbers α) (hzero : IsNumber (Scalar.zero : α)) (gs : List α) :
    IsViolation (violationOf gs) gs := by
  rcases gs with _ | ⟨g, gs⟩
  · exact ⟨fun _ => rfl, hzero, nofun, .inl rfl⟩
  have hviolation : violationOf (g :: gs) = Scalar.positivePart (gs.foldl Scalar.max g) := rfl
  rw [hviolation]
  unfold Scalar.positivePart
  split
  next h =>
    refine ⟨fun hundefined => ?_, (ho.lt_iff.mp h).1, ho.le_foldl_max, .inr (Scalar.foldl_max_mem g gs)⟩
    -- What is above zero is a number.
    obtain ⟨g', hmem, hg'⟩ := hundefined
    exact absurd (ho.isNumber_foldl_max_iff.mp (ho.isNumber_of_lt h).2 g' hmem) hg'
  next h =>
    refine ⟨fun _ => rfl, hzero, fun hnumbers g' hmem => ?_, .inl rfl⟩
    exact ho.trans (ho.le_foldl_max hnumbers g' hmem)
      (ho.le_iff.mpr ⟨Bool.eq_false_iff.mpr h, hzero, ho.isNumber_foldl_max_iff.mpr hnumbers⟩)

/-! ## Rounds with a tolerance -/

namespace AugmentedLagrangian

/-- A round with a tolerance is the last one exactly if neither its move nor the violation at the next
point is above the tolerance. -/
theorem round_withTolerance_ok {s : Setup Id α} {t : α} {number : Nat} {st next : State α} {done : Bool}
    {c c' : Course α} (h : perform (round (s.withTolerance (.upTo t)) number st) c = (.ok (next, done), c')) :
    ∃ gs moved, s.problem.constraintValues next.point = pure gs ∧ next.point.dist st.point = .ok moved ∧
      done = (Scalar.le moved t && Scalar.le (Problem.violationOf gs) t) := by
  rw [Setup.round_withTolerance] at h
  obtain ⟨r, c₁, hadvance, h⟩ := perform_bind_eq_ok.mp h
  obtain ⟨moved, hmoved, -⟩ := Setup.settles_iff hadvance t
  obtain ⟨objective, x, gs, _, _, _, notice, -, -, -, -, hgs, -, rfl⟩ := advance_ok hadvance
  rw [Constrained.settle_upTo hmoved] at h
  dsimp only at h hmoved
  split at h
  next hle =>
    cases h
    exact ⟨gs, moved, hgs, hmoved, hle.symm⟩
  next hle =>
    cases h
    exact ⟨gs, moved, hgs, hmoved, (Bool.eq_false_iff.mpr hle).symm⟩

end AugmentedLagrangian

/-- At every point the violation of a problem, that of a snapshot of it and the one that a round of the
method of multipliers compares with its tolerance are one number. It is an upper bound of the constraint
values if all of them are numbers, and zero otherwise. So where the method ends early, no constraint has
a value above the tolerance, or some constraint has none. -/
theorem violations_agree (p : Problem Id Float) (x : Tensor Float) {gs : List Float}
    (h : p.constraintValues x = pure gs) :
    ∃ v, Problem.IsViolation v gs ∧ p.violation x = pure v ∧
      (∀ snapshot : Snapshot Float, snapshot.constraints = .vector .double gs → snapshot.violation = v) ∧
      ∀ s : AugmentedLagrangian.Setup Id Float, s.problem = p → ∀ t,
        (∀ number st next done c c', next.point = x →
          perform (AugmentedLagrangian.round (s.withTolerance (.upTo t)) number st) c = (.ok (next, done), c') →
          ∃ moved, x.dist st.point = .ok moved ∧ done = (Scalar.le moved t && Scalar.le v t)) ∧
        ∀ guess c c', perform (AugmentedLagrangian.minimize s.precision p
            (.ok { s.settings with tolerance := .upTo t }) guess) c = (.ok x, c') →
          ((s.withTolerance .none).scheme guess).Unsettled (s.Settles t) c s.settings.maxRounds.toNat ∨
            Scalar.le v t = true ∧ ((∃ g ∈ gs, ¬IsNumber g) ∨ ∀ g ∈ gs, Scalar.le g t = true) := by
  have ho := Scalar.ordersNumbers_float
  have hv : Problem.IsViolation (Problem.violationOf gs) gs := Problem.isViolation ho (by decide) gs
  refine ⟨Problem.violationOf gs, hv, ?_, fun snapshot hsnapshot => ?_, ?_⟩
  · unfold Problem.violation
    rw [h]
    rfl
  · rw [Snapshot.violation, hsnapshot, Tensor.entries_vector_of_round Scalar.roundsOnce_float.double]
  rintro s rfl t
  refine ⟨?_, fun guess c c' hrun => ?_⟩
  · rintro number st next done c c' rfl hround
    obtain ⟨gs', moved, hgs', hmoved, hdone⟩ := AugmentedLagrangian.round_withTolerance_ok hround
    obtain rfl := Evaluation.pure_inj.mp (h.symm.trans hgs')
    exact ⟨moved, hmoved, hdone⟩
  · have hcut := s.minimize_cut t guess c
    rw [hrun] at hcut
    generalize ho' : (Except.ok x, c') = o at hcut
    cases hcut with
    | settled _ _ _ hsettles _ =>
      obtain rfl := Except.ok.inj (congrArg Prod.fst ho')
      obtain ⟨gs', hgs', hle⟩ := hsettles.satisfied
      obtain rfl := Evaluation.pure_inj.mp (h.symm.trans hgs')
      refine .inr ⟨hle, ?_⟩
      -- The violation is an upper bound only of values that are numbers.
      by_cases hnumbers : ∀ g ∈ gs, IsNumber g
      · exact .inr fun g hg => ho.trans (hv.le hnumbers g hg) hle
      · push Not at hnumbers
        exact .inl hnumbers
    | unsettled hunsettled => exact .inl hunsettled

/-! ## An undefined constraint beside a violated one -/

/-- A square to be minimized under a constraint that is never a number and another one that is never
satisfied. -/
def Problem.halfDefined : Problem Id Float where
  dimension := .int 1
  objective := .plain (some fun x => do
    let a ← x.get 0
    return .ofNumber (a * a))
  gradient := .field (some fun x => return x.scale Scalar.two)
  constraints := [.plain (some fun _ => pure (.ofNumber (Scalar.zero / Scalar.zero))),
    .plain (some fun _ => pure (.ofNumber (Scalar.nat 5)))]
  constraintGradients := [.field (some fun x => return x.scale Scalar.zero),
    .field (some fun x => return x.scale Scalar.zero)]
  one_le_dimension := Value.isBelow_one
  length_gradients := rfl

theorem Problem.constraintValues_halfDefined (x : Tensor Float) :
    halfDefined.constraintValues x = pure [Scalar.zero / Scalar.zero, Scalar.nat 5] := rfl

/-- The violations at zero, one constraint of which is not a number. -/
theorem violations_agree_halfDefined :
    let p := Problem.halfDefined
    let x : Tensor Float := .vector .double [Scalar.zero]
    let gs : List Float := [Scalar.zero / Scalar.zero, Scalar.nat 5]
    p.constraintValues x = pure gs ∧
    ∃ v, Problem.IsViolation v gs ∧ p.violation x = pure v ∧
      (∀ snapshot : Snapshot Float, snapshot.constraints = .vector .double gs → snapshot.violation = v) ∧
      ∀ s : AugmentedLagrangian.Setup Id Float, s.problem = p → ∀ t,
        (∀ number st next done c c', next.point = x →
          perform (AugmentedLagrangian.round (s.withTolerance (.upTo t)) number st) c = (.ok (next, done), c') →
          ∃ moved, x.dist st.point = .ok moved ∧ done = (Scalar.le moved t && Scalar.le v t)) ∧
        ∀ guess c c', perform (AugmentedLagrangian.minimize s.precision p
            (.ok { s.settings with tolerance := .upTo t }) guess) c = (.ok x, c') →
          ((s.withTolerance .none).scheme guess).Unsettled (s.Settles t) c s.settings.maxRounds.toNat ∨
            Scalar.le v t = true ∧ ((∃ g ∈ gs, ¬IsNumber g) ∨ ∀ g ∈ gs, Scalar.le g t = true) := by
  intro p x gs
  exact ⟨rfl, violations_agree p x (Problem.constraintValues_halfDefined x)⟩

/-- The method of multipliers with a tolerance of one half ends after the first of ten rounds, at a point
where a constraint has the value five and the violation is zero. -/
theorem minimize_settles_violated :
    let inner : GradientDescent.Settings Float :=
      ⟨Scalar.one, Scalar.half, Scalar.decimal 12 1, Scalar.decimal 1 8, Scalar.decimal 1 2, 1, 20⟩
    let settings : AugmentedLagrangian.Settings Float :=
      ⟨10, Scalar.one, Scalar.decimal 101 2, .upTo Scalar.half, .ok inner⟩
    let c : Course Float := ⟨⟨[], Scalar.zero, 0⟩, none, none, []⟩
    ∃ x c', perform (AugmentedLagrangian.minimize .double Problem.halfDefined (.ok settings)
        (.vector .double [Scalar.zero])) c = (.ok x, c') ∧ c'.report.iterations = 1 ∧
      Problem.halfDefined.violation x = pure Scalar.zero ∧
      ∃ gs, Problem.halfDefined.constraintValues x = pure gs ∧ Scalar.nat 5 ∈ gs ∧
        Scalar.le (Scalar.nat 5) (Scalar.half : Float) = false := by
  intro inner settings c
  have hok : (perform (AugmentedLagrangian.minimize .double Problem.halfDefined (.ok settings)
      (.vector .double [Scalar.zero])) c).1.isOk = true := by decide +kernel
  have hrounds : (perform (AugmentedLagrangian.minimize .double Problem.halfDefined (.ok settings)
      (.vector .double [Scalar.zero])) c).2.report.iterations = 1 := by decide +kernel
  rcases hrun : perform (AugmentedLagrangian.minimize .double Problem.halfDefined (.ok settings)
      (.vector .double [Scalar.zero])) c with ⟨e | x, c'⟩
  · rw [hrun] at hok
    cases hok
  · rw [hrun] at hrounds
    have hviolation : Problem.IsViolation
        (Problem.violationOf [Scalar.zero / Scalar.zero, (Scalar.nat 5 : Float)]) _ :=
      Problem.isViolation Scalar.ordersNumbers_float (by decide) _
    have hzero := hviolation.of_undefined ⟨_, List.mem_cons_self .., by decide⟩
    refine ⟨x, c', rfl, hrounds, ?_, _, Problem.constraintValues_halfDefined x, by simp, by decide⟩
    unfold Problem.violation
    rw [Problem.constraintValues_halfDefined, pure_bind, hzero]

end Minimization
