import Minimization.Proofs.Constrained.Outer
import Minimization.Proofs.Descent.Budget
import Minimization.Proofs.Problem.Evaluations

/-!
# The budget of a constrained run

A constrained run whose functions have an answer at every array of the shape of its guess
(`Problem.Answers`) succeeds: there is one multiplier for every constraint, all points have that shape, and
its inner descents succeed. Every round makes one inner descent, which has a budget of its own, and there
are no more rounds than the limit allows. `Course.Conducts` follows from part to part which inner descents
have been made, by the histories and the notices that they leave.
-/

namespace Minimization

variable {m : Type → Type} [Monad m] {ω : Type} [Stateful m ω] {α β : Type}

/-- In every world that `I` holds of, and without leaving such worlds, the functions of a problem have an
answer at every array of a shape: the objective and the constraints a number, and their gradients an array
of that shape. -/
structure Problem.Answers [Scalar α] (I : ω → Prop) (p : Problem m α) (shape : List Nat) : Prop where
  objective : ∀ x : Tensor α, x.shape = shape → Succeeds I (p.objective.evaluate x) fun _ => True
  gradient : ∀ x : Tensor α, x.shape = shape → Succeeds I (p.gradient.evaluate x) fun g => g.shape = shape
  constraints : ∀ g ∈ p.constraints, ∀ x : Tensor α, x.shape = shape →
    Succeeds I (g.evaluate x) fun _ => True
  constraintGradients : ∀ g ∈ p.constraintGradients, ∀ x : Tensor α, x.shape = shape →
    Succeeds I (g.evaluate x) fun g => g.shape = shape

/-! ## Inner descents -/

/-- The run is that of an inner descent with its budget. -/
def Course.Spends [Scalar α] (inner : GradientDescent.Setup m α → Prop) (r : Run α) : Prop :=
  ∃ g x es visits y u v, ∃ c : Course α,
    inner g ∧ GradientDescent.Budget g x (c.innerRun, u) es visits y (r, v)

/-- Since a course, the inner descents were made that left these runs. They add their histories, if any
are kept, and each of them tells of its end once. -/
structure Course.Conducts [Scalar α] (I : ω → Prop) (inner : GradientDescent.Setup m α → Prop)
    (runs : List (Run α)) (c : Course α) (w : Course α × ω) : Prop where
  each : ∀ r ∈ runs, Course.Spends inner r
  histories : w.1.histories = c.histories.map fun hs => hs ++ runs.flatMap fun r => r.history.toList
  endings : w.1.notices.countP Notice.isEnding = c.notices.countP Notice.isEnding + runs.length
  world : I w.2

variable [Scalar α]

namespace Course.Conducts

variable {I : ω → Prop} {inner : GradientDescent.Setup m α → Prop} {runs : List (Run α)} {c : Course α}
  {w : Course α × ω} {E : Course α × ω → Prop}

/-- No inner descent has been made where a run starts. -/
theorem refl (hw : I w.2) : w.1.Conducts I inner [] w where
  each := nofun
  histories := by simp
  endings := rfl
  world := hw

variable (h : c.Conducts I inner runs w)
include h

/-- An evaluation between two inner descents makes none. -/
theorem evaluate {e : Evaluation m β} {Q : β → Prop} (he : Succeeds I e Q) :
    Leaves (Constrained.evaluate e : Constrained m α β) w (fun b w' => Q b ∧ c.Conducts I inner runs w')
      E := by
  obtain ⟨b, v, hb, hQ, hv⟩ := he.exists_ok h.world
  have heval : attempt (Constrained.evaluate e : Constrained m α β) w = (.ok b, w.1, v) := by
    rw [attempt_constrained_evaluate, hb]
  exact .of_ok heval ⟨hQ, h.each, h.histories, h.endings, hv⟩

theorem notify {n : Notice α} (hn : n.isEnding = false) :
    Leaves (Constrained.notify (m := m) n) w (fun _ w' => c.Conducts I inner runs w') E := by
  refine .of_ok (attempt_constrained_notify n w) ⟨h.each, h.histories, ?_, h.world⟩
  show (w.1.notices ++ [n]).countP Notice.isEnding = _
  rw [List.countP_append, h.endings, List.countP_singleton, hn]
  rfl

theorem snapshot {take : Evaluation m (Snapshot α)} {Q : Snapshot α → Prop} (htake : Succeeds I take Q) :
    Leaves (Constrained.snapshot take) w (fun _ w' => c.Conducts I inner runs w') E := by
  rcases hw : w.1.trace with _ | ts
  · exact .of_ok (attempt_snapshot_none hw) h
  · obtain ⟨t, v, ht, -, hv⟩ := htake.exists_ok h.world
    have hsnapshot : attempt (Constrained.snapshot take) w = _ :=
      attempt_snapshot (Option.isSome_of_eq_some hw)
    rw [ht] at hsnapshot
    exact .of_ok hsnapshot ⟨h.each, h.histories, h.endings, hv⟩

/-- An inner descent whose functions have an answer everywhere is made, within its budget. -/
theorem descend (hz : Scalar.DiscernsZero α) {g : GradientDescent.Setup m α} (hg : inner g) {x : Tensor α}
    (hf : Answering I g.before g.loss g.gradient x.shape) {d : Descent m α (Tensor α)}
    (hd : ∀ v, attempt d v = attempt (GradientDescent.run g x) v) :
    Leaves (Constrained.descend d) w (fun y w' => y.shape = x.shape ∧
      ∃ r, c.Conducts I inner (runs ++ [r]) w') E := by
  obtain ⟨es, visits, y, ⟨r, v⟩, hbudget, hv⟩ :=
    GradientDescent.exists_budget hz hf (w := (w.1.innerRun, w.2)) h.world
  have hdescend := attempt_descend d w
  rw [hd, hbudget.ended] at hdescend
  refine .of_ok hdescend ⟨GradientDescent.shape_of_run_ok hbudget.ended, r, fun r' hr' => ?_, ?_, ?_, hv⟩
  · rcases List.mem_append.mp hr' with hr' | hr'
    · exact h.each r' hr'
    · obtain rfl := List.mem_singleton.mp hr'
      exact ⟨g, x, es, visits, y, w.2, v, w.1, hg, hbudget⟩
  · show w.1.histories.map (fun hs => hs ++ r.history.toList) = _
    rw [h.histories, Option.map_map]
    simp [Function.comp_def]
  · obtain ⟨told, htold, hcount⟩ := hbudget.told
    have hnotices : r.notices = told := htold
    show (w.1.notices ++ r.notices).countP Notice.isEnding = _
    rw [List.countP_append, h.endings, hnotices, hcount, List.length_append, List.length_singleton,
      Nat.add_assoc]

/-- The end of a round makes none either. It only fails if the tolerance cannot be compared with. -/
theorem settle {σ : Type} {tolerance : Tolerance α} (ht : tolerance ≠ .incomparable)
    {x y : Tensor α} (hshape : y.shape = x.shape) (asked : α → α) {n : α → α → Notice α}
    (hn : ∀ a b, (n a b).isEnding = false) (next : σ) :
    Leaves (Constrained.settle (m := m) tolerance x y asked n next) w
      (fun r w' => r.1 = next ∧ c.Conducts I inner runs w') E := by
  obtain ⟨moved, hmoved⟩ := Tensor.dist_ok hshape
  unfold Constrained.settle
  split
  · exact .pure ⟨rfl, h⟩
  · obtain ⟨within, hwithin⟩ : ∃ within, Constrained.within tolerance moved (asked moved) = .ok within := by
      cases tolerance with
      | none => exact ⟨none, rfl⟩
      | upTo t => exact ⟨_, rfl⟩
      | incomparable => exact absurd rfl ht
    rw [hmoved]
    refine .bind_of_ok (attempt_lift _ w) ?_
    rw [hwithin]
    refine .bind_of_ok (attempt_lift _ w) ?_
    rcases within with _ | t
    · exact .pure ⟨rfl, h⟩
    · exact .bind (h.notify (hn moved t)) fun _ _ h => .pure ⟨rfl, h⟩

end Course.Conducts

/-- As many inner descents were made as rounds, and no more rounds than the limit allows. -/
def Course.Conducts.Within (I : ω → Prop) (inner : GradientDescent.Setup m α → Prop) (c : Course α)
    (w : Course α × ω) (made limit : Nat) : Prop :=
  ∃ runs, c.Conducts I inner runs w ∧ runs.length = made ∧ made ≤ limit

/-- Rounds that each make one inner descent, and keep a condition on their states, make as many inner
descents as there are rounds. -/
theorem Course.Conducts.rounds {σ : Type} {I : ω → Prop} {inner : GradientDescent.Setup m α → Prop}
    {J : σ → Prop} {round : Nat → σ → Constrained m α (σ × Bool)}
    {c : Course α} {E : Course α × ω → Prop}
    (hround : ∀ {runs w st}, c.Conducts I inner runs w → J st →
      Leaves (round (runs.length + 1) st) w (fun r w' => J r.1 ∧
        ∃ run, c.Conducts I inner (runs ++ [run]) w') E)
    (left : Nat) : ∀ {runs w}, c.Conducts I inner runs w → ∀ {st}, J st →
      Leaves (Constrained.rounds round left runs.length st) w (fun r w' =>
        Within I inner c w' r.1 (runs.length + left)) E := by
  -- By induction on the rounds that may follow: the number of the next round is that of the runs so far.
  induction left with
  | zero =>
    intro runs w h st hst
    exact .pure ⟨runs, h, rfl, Nat.le_refl _⟩
  | succ left ih =>
    intro runs w h st hst
    unfold Constrained.rounds
    refine .bind (hround h hst) ?_
    rintro r w' ⟨hr, run, h⟩
    have hlength : (runs ++ [run]).length = runs.length + 1 := List.length_append
    dsimp only
    split
    · exact .pure ⟨_, h, hlength, by omega⟩
    · have hrest := ih h hr
      rw [hlength, Nat.add_right_comm, Nat.add_assoc] at hrest
      exact hrest

/-- What is told of rounds is set at the end. -/
theorem Course.Conducts.Within.conclude {I : ω → Prop} {inner : GradientDescent.Setup m α → Prop}
    {c : Course α} {w : Course α × ω} {limit : Nat} {report : ConstrainedReport α}
    (h : Within I inner c w report.iterations limit) :
    Within I inner c ({ w.1 with report }, w.2) report.iterations limit := by
  obtain ⟨runs, hruns, hlength, hle⟩ := h
  exact ⟨runs, ⟨hruns.each, hruns.histories, hruns.endings, hruns.world⟩, hlength, hle⟩

omit [Scalar α] in
/-- A function as a rule answers a number wherever the function has a value. -/
theorem ScalarFunction.succeeds_asRule {I : ω → Prop} {f : ScalarFunction m α} {x : Tensor α}
    (h : Succeeds I (f.evaluate x) fun _ => True) :
    Succeeds I (f.asRule x) fun a => ∃ v, a = .ofNumber v :=
  .bind h fun v _ => .pure ⟨v, rfl⟩

variable {I : ω → Prop}

/-! ## The method of multipliers -/

namespace AugmentedLagrangian

/-- A state with a point of a shape and with one multiplier for every constraint. -/
structure State.Fits (st : State α) (shape : List Nat) (constraints : Nat) : Prop where
  point : st.point.shape = shape
  multipliers : st.multipliers.length = constraints

/-- The inner descent of a state along its objective. -/
def Setup.innerSetup (s : Setup m α) (settings : GradientDescent.Settings α) (st : State α)
    (objective : ScalarFunction m α) : GradientDescent.Setup m α :=
  ⟨"GradientDescent", s.precision, settings, objective.asRule,
    (VectorFunction.field (some
      (s.problem.augmentedGradient s.precision st.multiplierVector.entries st.weight))).evaluate, pure ()⟩

/-- The descent is an inner descent of some state. -/
def Setup.IsInner (s : Setup m α) (settings : GradientDescent.Settings α)
    (g : GradientDescent.Setup m α) : Prop :=
  ∃ st objective, s.objective st = .ok objective ∧ g = s.innerSetup settings st objective

section Parts

variable {s : Setup m α} {settings : GradientDescent.Settings α} {shape : List Nat} {st : State α}
  {objective : ScalarFunction m α}

/-- One multiplier for every constraint is all that the augmented objective asks for. -/
theorem State.Fits.exists_objective (hst : st.Fits shape s.problem.constraints.length) :
    ∃ objective, s.objective st = .ok objective :=
  ⟨_, if_neg (not_not_intro (congrArg (fun n => [n]) hst.multipliers))⟩

/-- The inner descent of a round is a gradient descent along the augmented objective of its state. -/
theorem attempt_descent (hobjective : s.objective st = .ok objective)
    (hinner : s.settings.inner = .ok settings) (x : Tensor α) (w : Run α × ω) :
    attempt (s.descent objective x) w
      = attempt (GradientDescent.run (s.innerSetup settings st objective) x) w := by
  unfold Setup.descent
  rw [Problem.gradient_augmented hobjective, hinner, attempt_bind_of_ok (attempt_lift _ w),
    attempt_bind_of_ok (attempt_lift _ w)]
  rfl

variable (hp : s.problem.Answers I shape)
include hp

theorem succeeds_evaluate (hobjective : s.objective st = .ok objective) {x : Tensor α}
    (hx : x.shape = shape) : Succeeds I (objective.evaluate x) fun _ => True :=
  .congr (Problem.attempt_evaluate_augmented hobjective x)
    (Problem.succeeds_augmentedValue (hp.objective x hx) fun g hg => hp.constraints g hg x hx)

/-- If the functions of the problem have answers everywhere, so have those that an inner descent is
handed. -/
theorem answering_inner (hobjective : s.objective st = .ok objective) :
    Answering I (s.innerSetup settings st objective).before (s.innerSetup settings st objective).loss
      (s.innerSetup settings st objective).gradient shape where
  before := .pure trivial
  loss x hx := ScalarFunction.succeeds_asRule (succeeds_evaluate hp hobjective hx)
  gradient x hx := by
    subst hx
    exact .congr (Problem.attempt_evaluate_field _ x)
      (Problem.succeeds_augmentedGradient (fun g hg => hp.constraints g hg x rfl) (hp.gradient x rfl)
        fun g hg => hp.constraintGradients g hg x rfl)

theorem succeeds_snapshot (hobjective : s.objective st = .ok objective) {x : Tensor α}
    (hx : x.shape = shape) : Succeeds I (s.snapshot st objective x) fun _ => True :=
  .bind (hp.objective x hx) fun _ _ =>
    .bind (Problem.succeeds_constraintValues fun g hg => hp.constraints g hg x hx) fun _ _ =>
      .bind (succeeds_evaluate hp hobjective hx) fun _ _ => .pure trivial

variable (hz : Scalar.DiscernsZero α) (hinner : s.settings.inner = .ok settings)
  (ht : s.settings.tolerance ≠ .incomparable)
include hz hinner ht

/-- A round adds one inner descent to those that were made, and leaves one multiplier for every
constraint. -/
theorem round_conducts {runs : List (Run α)} {c : Course α} {w : Course α × ω}
    {E : Course α × ω → Prop} (h : c.Conducts I (s.IsInner settings) runs w)
    (hst : st.Fits shape s.problem.constraints.length) (number : Nat) :
    Leaves (round s number st) w (fun r w' => r.1.Fits shape s.problem.constraints.length ∧
      ∃ run, c.Conducts I (s.IsInner settings) (runs ++ [run]) w') E := by
  obtain ⟨objective, hobjective⟩ := hst.exists_objective
  unfold round
  rw [hobjective]
  refine .bind_of_ok (attempt_lift _ w) ?_
  refine .bind (h.snapshot (succeeds_snapshot hp hobjective hst.point)) fun _ w h => ?_
  have hf : Answering I _ _ (s.innerSetup settings st objective).gradient st.point.shape :=
    hst.point ▸ answering_inner hp hobjective
  refine .bind (h.descend hz ⟨st, objective, hobjective, rfl⟩ hf
    (attempt_descent hobjective hinner st.point)) fun y w hy => ?_
  obtain ⟨hy, r, h⟩ := hy
  have hy := hy.trans hst.point
  refine .bind (h.snapshot (succeeds_snapshot hp hobjective hy)) fun _ w h => ?_
  refine .bind (h.evaluate (Problem.succeeds_constraintValues fun g hg => hp.constraints g hg y hy))
    fun gx w hgx => ?_
  obtain ⟨hgx, h⟩ := hgx
  refine .bind (h.evaluate (hp.objective y hy)) fun fx w hfx => ?_
  refine .bind (hfx.2.notify rfl) fun _ w h => ?_
  have hfits : State.Fits ⟨y, raised st.multipliers st.weight gx, st.weight * s.settings.growth⟩ shape
      s.problem.constraints.length := by
    refine ⟨hy, ?_⟩
    rw [raised, List.length_zipWith, hst.multipliers, hgx, Nat.min_self]
  -- Whether the round settles or not, it leaves the state it has made.
  have hsettle := h.settle (m := m) ht (hy.trans hst.point.symm) (fun _ => Problem.violationOf gx)
    (n := fun moved => .multipliersSettled number moved (Problem.violationOf gx)) (fun _ _ => rfl)
    (⟨y, raised st.multipliers st.weight gx, st.weight * s.settings.growth⟩ : State α) (E := E)
  exact hsettle.mono (fun r w' hr => ⟨hr.1 ▸ hfits, _, hr.2⟩) fun _ => id

/-- A run from a state makes one inner descent in every round. -/
theorem rounds_conducts {st : State α} (hst : st.Fits shape s.problem.constraints.length)
    {w : Course α × ω} (hw : I w.2) {E : Course α × ω → Prop} :
    Leaves (Constrained.rounds (round s) s.settings.maxRounds.toNat 0 st) w (fun r w' =>
      Course.Conducts.Within I (s.IsInner settings) w.1 w' r.1 s.settings.maxRounds.toNat) E := by
  have hround {runs : List (Run α)} {v : Course α × ω} {st : State α}
      (h : w.1.Conducts I (s.IsInner settings) runs v) (hst : st.Fits shape s.problem.constraints.length) :=
    round_conducts hp hz hinner ht h hst (runs.length + 1) (E := E)
  have h := Course.Conducts.rounds hround s.settings.maxRounds.toNat
    (.refl hw) hst
  rw [List.length_nil, Nat.zero_add] at h
  exact h

end Parts

/-- The method of multipliers succeeds, and makes one inner descent in every round. -/
theorem exists_conducts (hz : Scalar.DiscernsZero α) {q : Precision} {p : Problem m α}
    {h : Settings α} {settings : GradientDescent.Settings α} {guess : Tensor α}
    (hp : p.Answers I guess.shape) (hdimension : (Value.int guess.size).agrees p.dimension = true)
    (hinner : h.inner = .ok settings) (ht : h.tolerance ≠ .incomparable) {w : Course α × ω} (hw : I w.2) :
    ∃ y w', attempt (minimize q p (.ok h) guess) w = (.ok y, w') ∧
      Course.Conducts.Within I (Setup.IsInner ⟨q, p, h⟩ settings) w.1 w' w'.1.report.iterations
        h.maxRounds.toNat := by
  have hstart : checkStart p guess = .ok () := if_pos hdimension
  have hfits : State.Fits ⟨guess.convert q, p.constraints.map fun _ => Scalar.zero, h.initialWeight⟩
      guess.shape p.constraints.length := ⟨rfl, List.length_map _⟩
  refine Leaves.exists_ok ?_
  unfold minimize
  rw [hstart]
  refine .bind_of_ok (attempt_lift _ w) (.bind_of_ok (attempt_lift _ w) ?_)
  exact .bind (rounds_conducts (s := ⟨q, p, h⟩) hp hz hinner ht hfits hw) fun r w' hr =>
    .bind_of_ok (attempt_conclude _ w') (.pure hr.conclude)

end AugmentedLagrangian

/-! ## The barrier method -/

namespace LogBarrier

/-- The inner descent for a barrier weight. -/
def Setup.innerSetup (s : Setup m α) (settings : GradientDescent.Settings α) (weight : α) :
    GradientDescent.Setup m α :=
  ⟨"GradientDescent", s.precision, settings, (s.problem.barrier s.precision weight).asRule,
    s.problem.barrierGradient s.precision weight, pure ()⟩

/-- The descent is an inner descent for some barrier weight. -/
def Setup.IsInner (s : Setup m α) (settings : GradientDescent.Settings α)
    (g : GradientDescent.Setup m α) : Prop :=
  ∃ weight, g = s.innerSetup settings weight

section Parts

variable {s : Setup m α} {settings : GradientDescent.Settings α} {shape : List Nat}

/-- The inner descent of a round is a gradient descent along the loss with its barrier. -/
theorem attempt_descent (hinner : s.settings.inner = .ok settings) (weight : α) (x : Tensor α)
    (w : Run α × ω) :
    attempt (s.descent weight x) w = attempt (GradientDescent.run (s.innerSetup settings weight) x) w := by
  unfold Setup.descent
  rw [hinner, attempt_bind_of_ok (attempt_lift _ w)]
  rfl

variable (hp : s.problem.Answers I shape)
include hp

theorem succeeds_evaluate (weight : α) {x : Tensor α} (hx : x.shape = shape) :
    Succeeds I ((s.problem.barrier s.precision weight).evaluate x) fun _ => True :=
  .congr (Problem.attempt_evaluate_barrier x)
    (Problem.succeeds_barrierValue (hp.objective x hx) fun g hg => hp.constraints g hg x hx)

theorem succeeds_snapshot (weight : α) {x : Tensor α} (hx : x.shape = shape) :
    Succeeds I (s.snapshot weight x) fun _ => True :=
  .bind (Problem.succeeds_constraintValues fun g hg => hp.constraints g hg x hx) fun _ _ =>
    .bind (hp.objective x hx) fun _ _ => .bind (succeeds_evaluate hp weight hx) fun _ _ => .pure trivial

/-- No inner descent is made to see whether a point is feasible. -/
theorem tellInfeasible_conducts {inner : GradientDescent.Setup m α → Prop} {runs : List (Run α)}
    {c : Course α} {w : Course α × ω} {E : Course α × ω → Prop} (h : c.Conducts I inner runs w)
    (number : Option Nat) (told : Bool) {x : Tensor α} (hx : x.shape = shape) :
    Leaves (s.tellInfeasible number told x) w (fun _ w' => c.Conducts I inner runs w') E := by
  unfold Setup.tellInfeasible
  split
  · exact .pure h
  · refine .bind (h.evaluate (Problem.succeeds_constraintValues fun g hg => hp.constraints g hg x hx))
      fun gx w ⟨_, h⟩ => ?_
    dsimp only
    split
    · exact .bind (h.notify rfl) fun _ _ h => .pure h
    · exact .pure h

variable (hz : Scalar.DiscernsZero α)
include hz

/-- If the functions of the problem have answers everywhere, so have those that an inner descent is handed.
The direction of a gradient exists because numbers tell what is zero from what is not. -/
theorem answering_inner (weight : α) :
    Answering I (s.innerSetup settings weight).before (s.innerSetup settings weight).loss
      (s.innerSetup settings weight).gradient shape where
  before := .pure trivial
  loss x hx := ScalarFunction.succeeds_asRule (succeeds_evaluate hp weight hx)
  gradient x hx := by
    subst hx
    exact Problem.succeeds_barrierGradient (fun g hg => hp.constraints g hg x rfl) (hp.gradient x rfl)
      (fun g hg => hp.constraintGradients g hg x rfl) hz

variable (hinner : s.settings.inner = .ok settings) (ht : s.settings.tolerance ≠ .incomparable)
include hinner ht

/-- A round adds one inner descent to those that were made. -/
theorem round_conducts {runs : List (Run α)} {c : Course α} {w : Course α × ω}
    {E : Course α × ω → Prop} (h : c.Conducts I (s.IsInner settings) runs w) {st : State α}
    (hst : st.point.shape = shape) (number : Nat) :
    Leaves (round s number st) w (fun r w' => r.1.point.shape = shape ∧
      ∃ run, c.Conducts I (s.IsInner settings) (runs ++ [run]) w') E := by
  unfold round
  have hf : Answering I _ _ (s.innerSetup settings st.weight).gradient st.point.shape :=
    hst ▸ answering_inner hp hz st.weight
  refine .bind (h.descend hz ⟨st.weight, rfl⟩ hf (attempt_descent hinner st.weight st.point))
    fun y w hy => ?_
  obtain ⟨hy, r, h⟩ := hy
  have hy := hy.trans hst
  refine .bind (h.snapshot (succeeds_snapshot hp st.weight hy)) fun _ w h => ?_
  refine .bind (tellInfeasible_conducts hp h _ _ hy) fun told w h => ?_
  refine .bind (h.evaluate (hp.objective y hy)) fun fx w hfx => ?_
  refine .bind (hfx.2.notify rfl) fun _ w h => ?_
  have hsettle := h.settle (m := m) ht (hy.trans hst.symm) id (n := .barrierSettled number) (fun _ _ => rfl)
    (⟨y, st.weight * s.settings.decay, told⟩ : State α) (E := E)
  exact hsettle.mono (fun r w' hr => ⟨hr.1 ▸ hy, _, hr.2⟩) fun _ => id

/-- A run from a state makes one inner descent in every round. -/
theorem rounds_conducts {st : State α} (hst : st.point.shape = shape) {c : Course α} {w : Course α × ω}
    (h₀ : c.Conducts I (s.IsInner settings) [] w) {E : Course α × ω → Prop} :
    Leaves (Constrained.rounds (round s) s.settings.maxRounds.toNat 0 st) w (fun r w' =>
      Course.Conducts.Within I (s.IsInner settings) c w' r.1 s.settings.maxRounds.toNat) E := by
  have hround {runs : List (Run α)} {v : Course α × ω} {st : State α}
      (h : c.Conducts I (s.IsInner settings) runs v) (hst : st.point.shape = shape) :=
    round_conducts hp hz hinner ht h hst (runs.length + 1) (E := E)
  have h := Course.Conducts.rounds hround s.settings.maxRounds.toNat h₀ hst
  rw [List.length_nil, Nat.zero_add] at h
  exact h

end Parts

/-- The barrier method succeeds, and makes one inner descent in every round. -/
theorem exists_conducts (hz : Scalar.DiscernsZero α) {q : Precision} {p : Problem m α}
    {h : Settings α} {settings : GradientDescent.Settings α} {guess : Tensor α}
    (hp : p.Answers I guess.shape) (hdimension : (Value.int guess.size).agrees p.dimension = true)
    (hinner : h.inner = .ok settings) (ht : h.tolerance ≠ .incomparable) {w : Course α × ω} (hw : I w.2) :
    ∃ y w', attempt (minimize q p (.ok h) guess) w = (.ok y, w') ∧
      Course.Conducts.Within I (Setup.IsInner ⟨q, p, h⟩ settings) w.1 w' w'.1.report.iterations
        h.maxRounds.toNat := by
  have hstart : checkStart p guess = .ok () := if_pos hdimension
  have hguess : (guess.convert q).shape = guess.shape := rfl
  refine Leaves.exists_ok ?_
  unfold minimize
  rw [hstart]
  refine .bind_of_ok (attempt_lift _ w) (.bind_of_ok (attempt_lift _ w) ?_)
  exact .bind (tellInfeasible_conducts (s := ⟨q, p, h⟩) hp (.refl hw) _ _ hguess) fun told w h₀ =>
    .bind (h₀.snapshot (succeeds_snapshot (s := ⟨q, p, h⟩) hp _ hguess)) fun _ w h₀ =>
      .bind (rounds_conducts (s := ⟨q, p, h⟩) hp hz hinner ht hguess h₀) fun r w' hr =>
        .bind_of_ok (attempt_conclude _ w') (.pure hr.conclude)

end LogBarrier

end Minimization
