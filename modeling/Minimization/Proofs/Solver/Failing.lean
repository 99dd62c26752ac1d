import Minimization.Proofs.Constrained.Budget
import Minimization.Proofs.Constrained.Desk
import Minimization.Proofs.Constrained.Failing
import Minimization.Proofs.Exact.Signs
import Minimization.Proofs.Float.Signs
import Minimization.Proofs.Solver.Shelf

/-!
# Runs that fail

What a run leaves that fails somewhere in its evaluations, for every solver: its report and its records,
the initial guess among the arrays of its caller, and the stores of parameters that the solver holds. Where
the functions leave a part of the world alone, so does the run.

A run may also fail late, when much has been reported and recorded. The sum of the squares, with a gradient
that answers once and then fails, is enough to see it (`Problem.squares`): a descent makes one iteration and
fails in the second, and a constrained solver whose inner descents make one iteration each completes a round
and fails in the descent of the next one (`Constrained.attempt_rounds_of_second`).
-/

namespace Minimization

variable {m : Type → Type} [Monad m] {ω : Type} [Stateful m ω] {α : Type}

/-- A part of the world is the same. -/
def Unchanged {σ : Type} (part : ω → σ) (u v : ω) : Prop := part v = part u

instance {σ : Type} (part : ω → σ) : Std.Refl (Unchanged part) where
  refl _ := rfl

instance {σ : Type} (part : ω → σ) : Trans (Unchanged part) (Unchanged part) (Unchanged part) where
  trans h h' := Eq.trans h' h

omit [Monad m] in
theorem checkStart_of_not_agrees {p : Problem m α} {guess : Tensor α}
    (h : (Value.int guess.size).agrees p.dimension = false) :
    checkStart p guess = .error (.size (.start guess.size p.dimension.display)) := by
  rw [checkStart, h]
  rfl

/-! ## The caller's arrays -/

/-- A run that is handed a place on a desk fails as it does with the initial guess itself, and leaves every
array that was on the desk, in whatever way the functions treat the arrays that they are handed. -/
def FailsOnDesk {β : Type} (run : Manners α → Nat → Placing (Tensor α) m β) (guess : Tensor α) (w : ω)
    (e : Failure) (w' : ω) : Prop :=
  ∀ (k : Manners α) (desk : List (Tensor α)) (place : Nat), desk[place]? = some guess →
    ∃ later, attempt (run k place) (desk, w) = (.error e, later, w') ∧ desk <+: later

/-- A run that goes on from any desk as it does without one fails there as well. -/
theorem failsOnDesk_of_simulates {β γ : Type} {run : Manners α → Nat → Placing (Tensor α) m γ}
    {c : ExceptT Failure m β} {guess : Tensor α} {w w' : ω} {e : Failure}
    {Q : List (Tensor α) → List (Tensor α) → γ → β → Prop} (herror : attempt c w = (.error e, w'))
    (h : ∀ {k desk place}, desk[place]? = some guess → Simulates desk desk (run k place) c (Q desk)) :
    FailsOnDesk run guess w e w' :=
  fun _ _ _ hplace => (h hplace).of_error herror

/-! ## Stores -/

/-- A computation on a shelf that fails does so without it, and leaves the stores that were there. -/
theorem Mirrors.of_error {β : Type} {shelf later : Shelf} {c' : Shelving m β} {c : ExceptT Failure m β}
    {w w' : ω} {e : Failure} (h : Mirrors shelf c' c)
    (hfailed : attempt c' (shelf, w) = (.error e, later, w')) :
    attempt c w = (.error e, w') ∧ shelf <+: later := by
  obtain ⟨more, hattempt⟩ := h shelf w (List.prefix_refl shelf)
  obtain ⟨herror, hrest⟩ := Prod.mk.inj (hattempt.symm.trans hfailed)
  obtain ⟨hlater, hworld⟩ := Prod.mk.inj hrest
  exact ⟨Prod.ext herror hworld, more, hlater⟩

/-! ## Functions whose gradient answers once -/

section Once

/-- Computations that count how often a gradient is asked for, beside a flag that they leave alone. -/
abbrev Counting : Type → Type := StateT (Nat × Bool) Id

/-- The gradient has been asked for so often, and the flag is up. -/
def AskedFor (n : Nat) (w : (Nat × Bool) × Unit) : Prop := w = ((n, true), ())

/-- The flag, which the functions leave as it is. -/
def flag (w : (Nat × Bool) × Unit) : Bool := w.1.2

variable {α : Type} [Scalar α]

/-- The sum of the squares. -/
def squares : Rule Counting α :=
  fun x => pure (.ofNumber ((x.entries.map fun a => a * a).foldl (· + ·) Scalar.zero))

/-- Its gradient, which answers the first time that it is asked for, and fails from then on. -/
def doublingOnce : Field Counting α :=
  fun x => ExceptT.mk fun w =>
    (if w.1 = 0 then .ok (x.scale Scalar.two) else .error .noMember, w.1 + 1, w.2)

/-- The two as a problem without constraints. -/
def Problem.squares : Problem Counting α where
  dimension := .int 1
  objective := .plain (some Minimization.squares)
  gradient := .field (some doublingOnce)
  constraints := []
  constraintGradients := []
  one_le_dimension := Value.isBelow_one
  length_gradients := rfl

theorem Problem.squares_respects : (Problem.squares (α := α)).Respects (Unchanged flag) where
  objective _ _ := rfl
  gradient _ _ := rfl
  constraints := nofun
  constraintGradients := nofun

/-- The functions have the answers that one iteration needs. -/
theorem answeringOnce_doublingOnce (shape : List Nat) :
    AnsweringOnce (AskedFor 0) (AskedFor 1) (pure ()) squares (doublingOnce (α := α)) shape where
  before := .pure trivial
  trial _ _ := .pure ⟨_, rfl⟩
  loss _ _ := .pure ⟨_, rfl⟩
  gradient x w hx hw := by
    subst hw
    exact .of_ok rfl ⟨hx, rfl⟩

/-! ### Descents -/

namespace GradientDescent

/-- A gradient descent that makes one step, and that fails at the next gradient. -/
theorem run_doublingOnce (hz : Scalar.DiscernsZero α) {h : Settings α}
    (hlarge : ∀ t : Tensor α, Scalar.le t.norm h.terminationStep = false) (hmax : h.maxSteps = 2)
    (q : Precision) (guess : Tensor α) (r : Run α) :
    let s : Setup Counting α := ⟨"GradientDescent", q, h, squares, doublingOnce, pure ()⟩
    ∃ t r', attempt (iteration s (guess.convert q) h.initialStep) (r, (0, true), ())
        = (.ok t, r', (1, true), ()) ∧
      attempt (run s guess) (r, (0, true), ()) = (.error .noMember, r', (2, true), ()) := by
  intro s
  obtain ⟨⟨t, y⟩, ⟨r', u⟩, hfirst, -, hu⟩ := (leaves_iteration (s := s)
    (answeringOnce_doublingOnce guess.shape) hz (x := guess.convert q) rfl h.initialStep
    (w := (r, (0, true), ())) rfl).exists_ok
  obtain rfl : u = ((1, true), ()) := hu
  have hsecond (a : α) :
      attempt (iteration s y a) (r', (1, true), ()) = (.error .noMember, r', (2, true), ()) := rfl
  refine ⟨_, r', hfirst, attempt_bind_of_error ?_ _⟩
  rw [show (s.settings.maxSteps - 1).toNat = 1 by rw [show s.settings.maxSteps = 2 from hmax]; rfl]
  unfold iterate
  rw [attempt_bind_of_ok hfirst]
  dsimp only
  rw [hlarge, if_neg Bool.false_ne_true]
  unfold iterate
  exact attempt_bind_of_error (hsecond _) _

end GradientDescent

namespace Adam

/-- A moment descent that makes one step, and that fails at the next gradient. -/
theorem run_doublingOnce (hs : Scalar.KeepsSigns α) {h : Settings α} (hh : h.IsProper)
    (hlarge : ∀ t : Tensor α, Scalar.le t.norm h.terminationStep = false) (hmax : h.maxSteps = 2)
    (q : Precision) (guess : Tensor α) (r : Run α) :
    let s : Setup Counting α := ⟨q, h, squares, doublingOnce, pure ()⟩
    ∃ t r', attempt (iteration s 1 (guess.convert q) (.start (guess.convert q))) (r, (0, true), ())
        = (.ok t, r', (1, true), ()) ∧
      attempt (run s guess) (r, (0, true), ()) = (.error .noMember, r', (2, true), ()) := by
  intro s
  obtain ⟨⟨ms, l, y⟩, ⟨r', u⟩, hfirst, -, hu⟩ := (leaves_iteration (s := s)
    (answeringOnce_doublingOnce guess.shape) hs hh (Nat.le_refl 1) (x := guess.convert q) rfl
    (Moments.fits_start hs (x := guess.convert q) rfl) (w := (r, (0, true), ())) rfl).exists_ok
  obtain rfl : u = ((1, true), ()) := hu
  have hsecond :
      attempt (iteration s 2 y ms) (r', (1, true), ()) = (.error .noMember, r', (2, true), ()) := rfl
  obtain ⟨e, hlength, he⟩ := leadsTo_of_iteration_ok hfirst
  obtain ⟨_, step, -, -, -, -, hstep⟩ := he.made.moved
  refine ⟨_, r', hfirst, attempt_bind_of_error ?_ _⟩
  rw [show (s.settings.maxSteps - 1).toNat = 1 by rw [show s.settings.maxSteps = 2 from hmax]; rfl]
  unfold iterate
  rw [attempt_bind_of_ok hfirst]
  dsimp only
  rw [hlength, hstep, hlarge, if_neg Bool.false_ne_true]
  unfold iterate
  exact attempt_bind_of_error hsecond _

end Adam

/-! ### Constrained runs -/

omit [Scalar α] in
/-- Rounds fail in the second one if the first one is not the last one. -/
theorem Constrained.attempt_rounds_of_second {m : Type → Type} [Monad m] {ω : Type} [Stateful m ω]
    {σ : Type} {round : Nat → σ → Constrained m α (σ × Bool)} {st st' : σ} {w v w' : Course α × ω}
    {e : Failure} (hfirst : attempt (round 1 st) w = (.ok (st', false), v))
    (hsecond : attempt (round 2 st') v = (.error e, w')) {limit : Nat} (hlimit : 2 ≤ limit) :
    attempt (Constrained.rounds round limit 0 st) w = (.error e, w') := by
  obtain ⟨left, rfl⟩ := Nat.exists_eq_add_of_le' hlimit
  unfold Constrained.rounds
  rw [attempt_bind_of_ok hfirst]
  dsimp only
  rw [if_neg Bool.false_ne_true]
  unfold Constrained.rounds
  exact attempt_bind_of_error hsecond _

/-- The course of a run that starts and that keeps records. -/
def Course.fresh : Course α := ⟨⟨[], Scalar.zero, 0⟩, some [], some [], []⟩

/-- A course that was fresh shows all that has been added. -/
theorem Course.extend_fresh_injective {d d' : Segment α}
    (h : (fresh : Course α).extend d = fresh.extend d') : d = d' := by
  obtain ⟨ts, hs, ns⟩ := d
  obtain ⟨ts', hs', ns'⟩ := d'
  obtain ⟨-, hts, hhs, hns⟩ := (Course.mk.injEq ..).mp h
  obtain rfl : ts = ts' := Option.some.inj hts
  obtain rfl : hs = hs' := Option.some.inj hhs
  obtain rfl : ns = ns' := hns
  rfl

section Constrained

variable (hz : Scalar.DiscernsZero α) {inner : GradientDescent.Settings α} (hmax : inner.maxSteps = 1)
include hz hmax

namespace AugmentedLagrangian

/-- The method of multipliers with descents of one step. -/
def Setup.stepwise (q : Precision) (rounds : Int) (weight growth : α) (inner : GradientDescent.Settings α) :
    Setup Counting α :=
  ⟨q, .squares, ⟨rounds, weight, growth, .none, .ok inner⟩⟩

variable (q : Precision) (rounds : Int) (weight growth : α)

omit hz hmax in
/-- Without constraints an inner descent asks for the gradient of the objective alone. -/
theorem answeringOnce_inner {st : State α} (hst : st.multipliers = []) {f : ScalarFunction Counting α}
    (hf : (Setup.stepwise q rounds weight growth inner).objective st = .ok f) (shape : List Nat) :
    let g := (Setup.stepwise q rounds weight growth inner).innerSetup inner st f
    AnsweringOnce (AskedFor 0) (AskedFor 1) g.before g.loss g.gradient shape := by
  obtain ⟨x, _, c⟩ := st
  obtain rfl : _ = [] := hst
  have hloss (I : (Nat × Bool) × Unit → Prop) (y : Tensor α) :
      Succeeds I (f.asRule y) fun a => ∃ v, a = .ofNumber v := by
    obtain rfl := Except.ok.inj hf
    exact .of_exists_ok fun w hw => ⟨_, w, rfl, ⟨_, rfl⟩, hw⟩
  refine ⟨.pure trivial, fun y _ => hloss _ y, fun y _ => hloss _ y, fun y w hy hw => ?_⟩
  subst hw
  exact .of_ok rfl ⟨hy, rfl⟩

/-- The first round is completed: its descent of one step asks for the gradient once. -/
theorem round_first (x : Tensor α) (c : α) : ∃ y c' course,
    attempt (round (Setup.stepwise q rounds weight growth inner) 1 ⟨x, [], c⟩) (Course.fresh, (0, true), ())
      = (.ok (⟨y, [], c'⟩, false), course, (1, true), ()) := by
  let s : Setup Counting α := .stepwise q rounds weight growth inner
  obtain ⟨f, hf⟩ : ∃ f, s.objective ⟨x, [], c⟩ = .ok f := ⟨_, rfl⟩
  obtain ⟨t, hsnapshot⟩ : ∃ t, attempt (Constrained.snapshot (s.snapshot ⟨x, [], c⟩ f x))
      (Course.fresh, (0, true), ()) = (.ok (), Course.fresh.addSnapshot t, (0, true), ()) := by
    obtain rfl := Except.ok.inj hf
    exact ⟨_, rfl⟩
  obtain ⟨y, r, _, hrun, rfl⟩ := GradientDescent.run_once
    (w := ((Course.fresh.addSnapshot t).innerRun, (0, true), ())) hz
    (answeringOnce_inner q rounds weight growth rfl hf x.shape) hmax rfl
  have hdescend : attempt (Constrained.descend (s.descent f x)) (Course.fresh.addSnapshot t, (0, true), ())
      = (.ok y, (Course.fresh.addSnapshot t).addRun r, (1, true), ()) := by
    rw [attempt_descend, attempt_descent hf rfl, hrun]
  unfold round
  rw [show (Setup.stepwise q rounds weight growth inner).objective ⟨x, [], c⟩ = .ok f from hf,
    attempt_bind_of_ok (attempt_lift _ _), attempt_bind_of_ok hsnapshot, attempt_bind_of_ok hdescend]
  obtain rfl := Except.ok.inj hf
  exact ⟨y, _, _, rfl⟩

omit hz in
/-- The second one takes its first snapshot, and then fails in its descent. -/
theorem round_second (x : Tensor α) (c : α) (d : Segment α) : ∃ t ns,
    attempt (round (Setup.stepwise q rounds weight growth inner) 2 ⟨x, [], c⟩)
        (⟨Course.fresh.report, some d.trace, some d.histories, d.notices⟩, (1, true), ())
      = (.error .noMember,
        ⟨Course.fresh.report, some (d.trace ++ [t]), some d.histories, ns⟩, (2, true), ()) := by
  obtain ⟨_, _, _, _, _, _, _⟩ := inner
  obtain rfl : _ = _ := hmax
  exact ⟨_, _, rfl⟩

/-- Its second round fails at the gradient, behind three snapshots and a history. -/
theorem minimize_stepwise (hrounds : 2 ≤ rounds) (guess : Tensor α) (hguess : guess.size = 1) :
    ∃ d, attempt (minimize q .squares (.ok (Setup.stepwise q rounds weight growth inner).settings) guess)
        (Course.fresh, (0, true), ()) = (.error .noMember, Course.fresh.extend d, (2, true), ()) ∧
      d.trace.length = 3 ∧ d.histories.length = 1 := by
  obtain ⟨y, c, course, hfirst⟩ := round_first hz hmax q rounds weight growth (guess.convert q) weight
  obtain ⟨d, hd, hcourse⟩ := (round_leaves 1 _ _).ok hfirst
  obtain ⟨htrace, hhistories⟩ := hd.length_eq rfl rfl
  obtain rfl : course = Course.fresh.extend d := hcourse
  obtain ⟨t, ns, hsecond⟩ := round_second hmax q rounds weight growth y c d
  refine ⟨⟨d.trace ++ [t], d.histories, ns⟩, ?_, by rw [List.length_append, htrace]; rfl, hhistories⟩
  have hstart : checkStart (Problem.squares (α := α)) guess = .ok () := if_pos (by rw [hguess]; rfl)
  unfold minimize
  rw [hstart, attempt_bind_of_ok (attempt_lift _ _), attempt_bind_of_ok (attempt_lift _ _)]
  unfold run
  refine attempt_bind_of_error (Constrained.attempt_rounds_of_second hfirst hsecond ?_) _
  show 2 ≤ rounds.toNat
  omega

end AugmentedLagrangian

namespace LogBarrier

/-- The barrier method with descents of one step. -/
def Setup.stepwise (q : Precision) (rounds : Int) (weight decay : α) (inner : GradientDescent.Settings α) :
    Setup Counting α :=
  ⟨q, .squares, ⟨rounds, weight, decay, .none, .ok inner⟩⟩

variable (q : Precision) (rounds : Int) (weight decay : α)

omit hmax in
/-- Without constraints an inner descent follows the normalized gradient of the objective. -/
theorem answeringOnce_inner (c : α) (shape : List Nat) :
    let g := (Setup.stepwise q rounds weight decay inner).innerSetup inner c
    AnsweringOnce (AskedFor 0) (AskedFor 1) g.before g.loss g.gradient shape := by
  intro g
  have hloss (I : (Nat × Bool) × Unit → Prop) (y : Tensor α) :
      Succeeds I (g.loss y) fun a => ∃ v, a = .ofNumber v :=
    .of_exists_ok fun w hw => ⟨_, w, rfl, ⟨_, rfl⟩, hw⟩
  refine ⟨.pure trivial, fun y _ => hloss _ y, fun y _ => hloss _ y, fun y w hy hw => ?_⟩
  subst hw
  obtain ⟨d, hd, hshape⟩ := Tensor.normalize_of_discernsZero hz q (y.scale Scalar.two)
  have hgradient : attempt (VectorFunction.evaluate (.field (some doublingOnce)) y) ((0, true), ())
      = (.ok (y.scale Scalar.two), (1, true), ()) := rfl
  refine .bind_of_ok hgradient (.bind_of_ok (attempt_lift_eq_ok.mpr ⟨hd, rfl⟩) ?_)
  exact .pure ⟨hshape.trans hy, rfl⟩

/-- The first round is completed: its descent of one step asks for the gradient once. -/
theorem round_first (x : Tensor α) (c : α) (t : Snapshot α) : ∃ y c' course,
    attempt (round (Setup.stepwise q rounds weight decay inner) 1 ⟨x, c, false⟩)
        (Course.fresh.addSnapshot t, (0, true), ())
      = (.ok (⟨y, c', false⟩, false), course, (1, true), ()) := by
  let s : Setup Counting α := .stepwise q rounds weight decay inner
  obtain ⟨y, r, _, hrun, rfl⟩ := GradientDescent.run_once (s := s.innerSetup inner c)
    (w := ((Course.fresh.addSnapshot t).innerRun, (0, true), ())) hz
    (answeringOnce_inner hz q rounds weight decay c x.shape) hmax rfl
  have hdescend : attempt (Constrained.descend (s.descent c x)) (Course.fresh.addSnapshot t, (0, true), ())
      = (.ok y, (Course.fresh.addSnapshot t).addRun r, (1, true), ()) := by
    rw [attempt_descend, attempt_descent rfl, hrun]
  unfold round
  rw [attempt_bind_of_ok hdescend]
  exact ⟨y, _, _, rfl⟩

omit hz in
/-- The second one starts with its descent, and fails there. -/
theorem round_second (x : Tensor α) (c : α) (t : Snapshot α) (d : Segment α) : ∃ ns,
    attempt (round (Setup.stepwise q rounds weight decay inner) 2 ⟨x, c, false⟩)
        (⟨Course.fresh.report, some (t :: d.trace), some d.histories, d.notices⟩, (1, true), ())
      = (.error .noMember,
        ⟨Course.fresh.report, some (t :: d.trace), some d.histories, ns⟩, (2, true), ()) := by
  obtain ⟨_, _, _, _, _, _, _⟩ := inner
  obtain rfl : _ = _ := hmax
  exact ⟨_, rfl⟩

/-- Its second round fails at the gradient, behind two snapshots and a history. -/
theorem minimize_stepwise (hrounds : 2 ≤ rounds) (guess : Tensor α) (hguess : guess.size = 1) :
    ∃ d, attempt (minimize q .squares (.ok (Setup.stepwise q rounds weight decay inner).settings) guess)
        (Course.fresh, (0, true), ()) = (.error .noMember, Course.fresh.extend d, (2, true), ()) ∧
      d.trace.length = 2 ∧ d.histories.length = 1 := by
  obtain ⟨t, hsnapshot⟩ : ∃ t, attempt (Constrained.snapshot
      ((Setup.stepwise q rounds weight decay inner).snapshot weight (guess.convert q)))
      (Course.fresh, (0, true), ()) = (.ok (), Course.fresh.addSnapshot t, (0, true), ()) := ⟨_, rfl⟩
  obtain ⟨y, c, course, hfirst⟩ := round_first hz hmax q rounds weight decay (guess.convert q) weight t
  obtain ⟨d, hd, hcourse⟩ := (round_leaves 1 _ _).ok hfirst
  obtain ⟨htrace, hhistories⟩ := hd.length_eq rfl rfl
  obtain rfl : course = (Course.fresh.addSnapshot t).extend d := hcourse
  obtain ⟨ns, hsecond⟩ := round_second hmax q rounds weight decay y c t d
  refine ⟨⟨t :: d.trace, d.histories, ns⟩, ?_, by rw [List.length_cons, htrace], hhistories⟩
  have hstart : checkStart (Problem.squares (α := α)) guess = .ok () := if_pos (by rw [hguess]; rfl)
  unfold minimize
  rw [hstart, attempt_bind_of_ok (attempt_lift _ _), attempt_bind_of_ok (attempt_lift _ _)]
  unfold run
  refine (attempt_bind_of_ok (b := false) rfl _).trans ((attempt_bind_of_ok hsnapshot _).trans ?_)
  refine attempt_bind_of_error (Constrained.attempt_rounds_of_second hfirst hsecond ?_) _
  show 2 ≤ rounds.toNat
  omega

end LogBarrier

end Constrained

end Once

/-! ## Runs -/

/-- A gradient that is handed places answers what it answers to the arrays in them. -/
theorem answers_answer {k : Manners α} {desk : List (Tensor α)} (gradient : Field m α) :
    Answers desk (k.answer · gradient) gradient :=
  fun hkept hown hx => .answer hkept hown hx gradient

variable [Scalar α]

/-- What a run leaves that fails, wherever it does.

A descent reports the loss of before, the step size of its last completed iteration, and the number of
iterations of before unless it was the loss behind the last one that failed (`Aborted`). A constrained
solver leaves its report; its records have grown by the snapshots and the inner histories of the rounds
that it has completed, and by those of the part that it has made of the next one (`Interrupted`), in
numbers that differ by no more than one round in the making. The arrays of its caller are what they were,
the initial guess among them (`FailsOnDesk`), and so is every part of the world that the functions leave
alone, and every store of parameters that there was, those of the solver and of its inner descents above
all. A guess with another number of entries than the problem has dimensions is refused before anything else
happens. -/
theorem run_error_leaves :
    (∀ (s : GradientDescent.Setup m α) (guess : Tensor α) (w w' : Run α × ω) (e : Failure),
      attempt (GradientDescent.run s guess) w = (.error e, w') →
      (∃ es, Aborted (GradientDescent.Makes s) (fun q => GradientDescent.iteration s q.point q.state)
        s.loss ⟨s.settings.initialStep, guess.convert s.precision, w.1, w.2⟩ es e w') ∧
      FailsOnDesk (fun k => GradientDescent.runAt s k (k.answer · s.gradient)) guess w e w' ∧
      ∀ {σ : Type} (part : ω → σ), Keeps (Unchanged part) s.before →
        (∀ x, Keeps (Unchanged part) (s.loss x)) → (∀ x, Keeps (Unchanged part) (s.gradient x)) →
        part w'.2 = part w.2) ∧
    (∀ (s : Adam.Setup m α) (guess : Tensor α) (w w' : Run α × ω) (e : Failure),
      attempt (Adam.run s guess) w = (.error e, w') →
      (∃ es, Aborted (Adam.Makes s) (fun q => Adam.iteration s q.state.1 q.point q.state.2) s.loss
        ⟨(1, .start (guess.convert s.precision)), guess.convert s.precision, w.1, w.2⟩ es e w') ∧
      FailsOnDesk (fun k => Adam.runAt s k (k.answer · s.gradient)) guess w e w' ∧
      ∀ {σ : Type} (part : ω → σ), Keeps (Unchanged part) s.before →
        (∀ x, Keeps (Unchanged part) (s.loss x)) → (∀ x, Keeps (Unchanged part) (s.gradient x)) →
        part w'.2 = part w.2) ∧
    (∀ (s : AugmentedLagrangian.Setup m α) (guess : Tensor α) (w w' : Course α × ω) (e : Failure),
      attempt (AugmentedLagrangian.minimize s.precision s.problem (.ok s.settings) guess) w
        = (.error e, w') →
      w'.1.report = w.1.report ∧
      (∃ d, s.Interrupted guess w e w' d ∧ w'.1 = w.1.extend d ∧
        (w.1.trace.isSome → w.1.histories.isSome →
          2 * d.histories.length ≤ d.trace.length + 1 ∧ d.trace.length ≤ 2 * d.histories.length + 1)) ∧
      FailsOnDesk (AugmentedLagrangian.minimizeAt s.precision s.problem (.ok s.settings)) guess w e w' ∧
      ∀ {σ : Type} (part : ω → σ), s.problem.Respects (Unchanged part) → part w'.2 = part w.2) ∧
    (∀ (s : LogBarrier.Setup m α) (guess : Tensor α) (w w' : Course α × ω) (e : Failure),
      attempt (LogBarrier.minimize s.precision s.problem (.ok s.settings) guess) w = (.error e, w') →
      w'.1.report = w.1.report ∧
      (∃ d, s.Interrupted guess w e w' d ∧ w'.1 = w.1.extend d ∧
        (w.1.trace.isSome → w.1.histories.isSome →
          d.histories.length ≤ d.trace.length ∧ d.trace.length ≤ d.histories.length + 1)) ∧
      FailsOnDesk (LogBarrier.minimizeAt s.precision s.problem (.ok s.settings)) guess w e w' ∧
      ∀ {σ : Type} (part : ω → σ), s.problem.Respects (Unchanged part) → part w'.2 = part w.2) ∧
    (∀ (s : Placed) (shelf later : Shelf) (solver : Solver) (p : Precision) (guess : Tensor Float)
      (e : Failure), s.Holds shelf solver →
      (∀ (publish : Evaluation m Unit) (loss : Rule m Float) (gradient : Field m Float)
        (w w' : Run Float × ω),
        attempt (s.descend p publish loss gradient guess) (shelf, w) = (.error e, later, w') →
        attempt (solver.descend p publish loss gradient guess) w = (.error e, w') ∧
          shelf <+: later ∧ s.Holds later solver) ∧
      ∀ (problem : Problem m Float) (w w' : Course Float × ω),
        attempt (s.solve p problem guess) (shelf, w) = (.error e, later, w') →
        attempt (solver.solve p problem guess) w = (.error e, w') ∧
          shelf <+: later ∧ s.Holds later solver) ∧
    ∀ (q : Precision) (p : Problem m α) (guess : Tensor α) (w : Course α × ω),
      (Value.int guess.size).agrees p.dimension = false →
      let refusal : Failure := .size (.start guess.size p.dimension.display)
      (∀ settings, attempt (AugmentedLagrangian.minimize q p settings guess) w = (.error refusal, w)) ∧
      ∀ settings, attempt (LogBarrier.minimize q p settings guess) w = (.error refusal, w) := by
  refine ⟨fun s guess w w' e h => ⟨GradientDescent.aborted_of_run_error h, ?_, fun part hb hl hg => ?_⟩,
    fun s guess w w' e h => ⟨Adam.aborted_of_run_error h, ?_, fun part hb hl hg => ?_⟩,
    fun s guess w w' e h => ?_, fun s guess w w' e h => ?_, fun s shelf later solver p guess e hs => ?_,
    fun q p guess w h => ⟨fun settings => ?_, fun settings => ?_⟩⟩
  · exact failsOnDesk_of_simulates h (GradientDescent.runAt_simulates (answers_answer _) (List.prefix_refl _))
  · have hkept : part (attempt (GradientDescent.run s guess) w).2.2 = part w.2 :=
      keeps_of_descends (GradientDescent.run_descends s guess) hb hl hg w
    rwa [h] at hkept
  · exact failsOnDesk_of_simulates h (Adam.runAt_simulates (answers_answer _) (List.prefix_refl _))
  · have hkept : part (attempt (Adam.run s guess) w).2.2 = part w.2 :=
      keeps_of_descends (Adam.run_descends s guess) hb hl hg w
    rwa [h] at hkept
  · obtain ⟨d, hd, hgrown⟩ := AugmentedLagrangian.interrupted_of_minimize_error h
    refine ⟨by rw [hgrown]; rfl, ⟨d, hd, hgrown, hd.balanced⟩, ?_, fun part hp => ?_⟩
    · exact failsOnDesk_of_simulates h fun hplace =>
        AugmentedLagrangian.minimizeAt_simulates (List.prefix_refl _) hplace _ _ _
    · have hkept := AugmentedLagrangian.keeps_minimize hp guess w
      rwa [h] at hkept
  · obtain ⟨d, hd, hgrown⟩ := LogBarrier.interrupted_of_minimize_error h
    refine ⟨by rw [hgrown]; rfl, ⟨d, hd, hgrown, hd.balanced⟩, ?_, fun part hp => ?_⟩
    · exact failsOnDesk_of_simulates h fun hplace =>
        LogBarrier.minimizeAt_simulates (List.prefix_refl _) hplace _ _ _
    · have hkept := LogBarrier.keeps_minimize hp guess w
      rwa [h] at hkept
  · refine ⟨fun publish loss gradient w w' h => ?_, fun problem w w' h => ?_⟩
    · obtain ⟨herror, hlater⟩ := (Placed.descend_mirrors hs p publish loss gradient guess).of_error h
      exact ⟨herror, hlater, hs.mono hlater⟩
    · obtain ⟨herror, hlater⟩ := (Placed.solve_mirrors hs p problem guess).of_error h
      exact ⟨herror, hlater, hs.mono hlater⟩
  · unfold AugmentedLagrangian.minimize
    rw [checkStart_of_not_agrees h]
    exact attempt_bind_of_error (attempt_lift _ _) _
  · unfold LogBarrier.minimize
    rw [checkStart_of_not_agrees h]
    exact attempt_bind_of_error (attempt_lift _ _) _

/-- Runs that fail when the gradient is asked for once more: descents behind their first step, the
constrained solvers behind their first round. -/
theorem run_error_leaves_later :
    let guess : Tensor ℝ := .vector .double [1]
    let settings : GradientDescent.Settings ℝ := ⟨1, 1 / 2, 6 / 5, -1, 1 / 100, 2, 20⟩
    let single : GradientDescent.Settings ℝ := ⟨1, 1 / 2, 6 / 5, -1, 1 / 100, 1, 20⟩
    let run : Run ℝ := ⟨⟨0, 0, 0⟩, some .empty, []⟩
    let descent : GradientDescent.Setup Counting ℝ :=
      ⟨"GradientDescent", .double, settings, squares, doublingOnce, pure ()⟩
    let moments : Adam.Setup Counting ℝ :=
      ⟨.double, ⟨1 / 100, 9 / 10, 99 / 100, 1 / 100, -1, 2⟩, squares, doublingOnce, pure ()⟩
    let multipliers : AugmentedLagrangian.Setup Counting ℝ := .stepwise .double 2 1 (101 / 100) single
    let barrier : LogBarrier.Setup Counting ℝ := .stepwise .double 2 1 (1 / 10) single
    (∃ w', attempt (GradientDescent.run descent guess) (run, (0, true), ()) = (.error .noMember, w') ∧
      w'.2 = ((2, true), ()) ∧
      (∃ es, es ≠ [] ∧ Aborted (GradientDescent.Makes descent)
        (fun q => GradientDescent.iteration descent q.point q.state) squares ⟨1, guess, run, (0, true), ()⟩ es
        .noMember w') ∧
      FailsOnDesk (fun k => GradientDescent.runAt descent k (k.answer · doublingOnce)) guess
        (run, (0, true), ()) .noMember w' ∧ flag w'.2 = true) ∧
    (∃ w', attempt (Adam.run moments guess) (run, (0, true), ()) = (.error .noMember, w') ∧
      w'.2 = ((2, true), ()) ∧
      (∃ es, es ≠ [] ∧ Aborted (Adam.Makes moments)
        (fun q => Adam.iteration moments q.state.1 q.point q.state.2) squares
        ⟨(1, .start guess), guess, run, (0, true), ()⟩ es .noMember w') ∧
      FailsOnDesk (fun k => Adam.runAt moments k (k.answer · doublingOnce)) guess
        (run, (0, true), ()) .noMember w' ∧ flag w'.2 = true) ∧
    (∃ d, attempt (AugmentedLagrangian.minimize .double .squares (.ok multipliers.settings) guess)
        (.fresh, (0, true), ()) = (.error .noMember, Course.fresh.extend d, (2, true), ()) ∧
      d.trace.length = 3 ∧ d.histories.length = 1 ∧
      multipliers.Interrupted guess (.fresh, (0, true), ()) .noMember
        (Course.fresh.extend d, (2, true), ()) d ∧
      FailsOnDesk (AugmentedLagrangian.minimizeAt .double .squares (.ok multipliers.settings)) guess
        (Course.fresh, (0, true), ()) .noMember (Course.fresh.extend d, (2, true), ()) ∧
      flag ((2, true), ()) = flag ((0, true), ())) ∧
    (∃ d, attempt (LogBarrier.minimize .double .squares (.ok barrier.settings) guess)
        (.fresh, (0, true), ()) = (.error .noMember, Course.fresh.extend d, (2, true), ()) ∧
      d.trace.length = 2 ∧ d.histories.length = 1 ∧
      barrier.Interrupted guess (.fresh, (0, true), ()) .noMember
        (Course.fresh.extend d, (2, true), ()) d ∧
      FailsOnDesk (LogBarrier.minimizeAt .double .squares (.ok barrier.settings)) guess
        (Course.fresh, (0, true), ()) .noMember (Course.fresh.extend d, (2, true), ()) ∧
      flag ((2, true), ()) = flag ((0, true), ())) ∧
    (let guess : Tensor Float := .vector .double [1.0]
     let shelf : Shelf := [Parameters.augmentedLagrangian, [(Parameters.maxIterations, .int 1)]]
     let solver : Solver := .ofKind .augmentedLagrangian none (some [(Parameters.maxIterations, .int 1)])
     let placed : Placed := ⟨.augmentedLagrangian, 0, some 1⟩
     ∃ later w', attempt (placed.solve (m := Counting) .double .squares guess)
        (shelf, Course.fresh, (0, true), ()) = (.error .noMember, later, w') ∧ w'.2 = ((2, true), ()) ∧
      shelf <+: later ∧ placed.Holds later solver) ∧
    attempt (AugmentedLagrangian.minimize .double .squares (.ok multipliers.settings)
      (.vector .double [1, 1])) (.fresh, (0, true), ())
        = (.error (.size (.start 2 "1")), .fresh, (0, true), ()) := by
  intro guess settings single run descent moments multipliers barrier
  have hlarge (t : Tensor ℝ) : Scalar.le t.norm (-1) = false :=
    decide_eq_false (not_le.mpr (lt_of_lt_of_le neg_one_lt_zero (Real.sqrt_nonneg _)))
  have hproper : moments.settings.IsProper := by
    refine ⟨⟨Scalar.zero_le_real_iff.mpr ?_, Scalar.lt_one_real_iff.mpr ?_⟩,
      ⟨Scalar.zero_le_real_iff.mpr ?_, Scalar.lt_one_real_iff.mpr ?_⟩, ?_⟩
    · norm_num [moments]
    · norm_num [moments]
    · norm_num [moments]
    · norm_num [moments]
    · rw [ExactScalar.zero_eq]
      exact decide_eq_true (by norm_num [moments])
  refine ⟨?_, ?_, ?_, ?_, ?_, ?_⟩
  · obtain ⟨t, r, hfirst, hrun⟩ :=
      GradientDescent.run_doublingOnce Scalar.discernsZero_real hlarge (h := settings) rfl .double guess run
    obtain ⟨⟨es, hes⟩, hdesk, hpart⟩ := run_error_leaves.1 descent guess _ _ _ hrun
    exact ⟨_, hrun, rfl, ⟨es, hes.ne_nil hfirst, hes⟩, hdesk,
      hpart flag (fun _ => rfl) (fun _ _ => rfl) fun _ _ => rfl⟩
  · obtain ⟨t, r, hfirst, hrun⟩ :=
      Adam.run_doublingOnce Scalar.keepsSigns_real hproper hlarge rfl .double guess run
    obtain ⟨⟨es, hes⟩, hdesk, hpart⟩ := run_error_leaves.2.1 moments guess _ _ _ hrun
    exact ⟨_, hrun, rfl, ⟨es, hes.ne_nil hfirst, hes⟩, hdesk,
      hpart flag (fun _ => rfl) (fun _ _ => rfl) fun _ _ => rfl⟩
  · obtain ⟨d, hrun, htrace, hhistories⟩ := AugmentedLagrangian.minimize_stepwise Scalar.discernsZero_real
      (rfl : single.maxSteps = 1) .double 2 1 (101 / 100) (Int.le_refl 2) guess rfl
    obtain ⟨-, ⟨d', hd, hgrown, -⟩, hdesk, hpart⟩ := run_error_leaves.2.2.1 multipliers guess _ _ _ hrun
    obtain rfl := Course.extend_fresh_injective hgrown
    exact ⟨d, hrun, htrace, hhistories, hd, hdesk, hpart flag Problem.squares_respects⟩
  · obtain ⟨d, hrun, htrace, hhistories⟩ := LogBarrier.minimize_stepwise Scalar.discernsZero_real
      (rfl : single.maxSteps = 1) .double 2 1 (1 / 10) (Int.le_refl 2) guess rfl
    obtain ⟨-, ⟨d', hd, hgrown, -⟩, hdesk, hpart⟩ := run_error_leaves.2.2.2.1 barrier guess _ _ _ hrun
    obtain rfl := Course.extend_fresh_injective hgrown
    exact ⟨d, hrun, htrace, hhistories, hd, hdesk, hpart flag Problem.squares_respects⟩
  · obtain ⟨inner, hinner, hmax⟩ : ∃ inner, GradientDescent.settingsOf
        (Fields.set [(Parameters.maxIterations, .int 1)] Parameters.initialStep (.real 1.0)) = .ok inner ∧
        inner.maxSteps = 1 := ⟨_, rfl, rfl⟩
    intro guess shelf solver placed
    let settings := (AugmentedLagrangian.Setup.stepwise .double 80 1.0 1.01 inner).settings
    obtain ⟨d, hrun, -⟩ := AugmentedLagrangian.minimize_stepwise Scalar.discernsZero_float hmax .double 80
      1.0 1.01 (by omega) guess rfl
    have hholds : placed.Holds shelf solver :=
      ⟨rfl, ⟨_, rfl, rfl⟩, fun _ => ⟨1, _, rfl, rfl, rfl⟩⟩
    have hsolve : solver.solve (m := Counting) .double .squares guess
        = AugmentedLagrangian.minimize .double .squares (.ok settings) guess := by
      obtain rfl := Except.ok.inj hinner
      rfl
    obtain ⟨more, hshelf⟩ := Placed.solve_mirrors hholds .double (.squares : Problem Counting Float) guess
      shelf (Course.fresh, (0, true), ()) (List.prefix_refl shelf)
    rw [hsolve, hrun] at hshelf
    obtain ⟨-, hlater, hheld⟩ :=
      ((run_error_leaves (α := ℝ)).2.2.2.2.1 placed shelf _ solver .double guess _ hholds).2 _ _ _ hshelf
    exact ⟨_, _, hshelf, rfl, hlater, hheld⟩
  · exact (run_error_leaves.2.2.2.2.2 .double .squares (.vector .double [1, 1]) _ rfl).1 _

end Minimization
