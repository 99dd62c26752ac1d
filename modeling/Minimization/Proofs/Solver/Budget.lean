import Minimization.Proofs.Constrained.Budget
import Minimization.Proofs.Exact.Signs
import Minimization.Proofs.Float.Signs
import Minimization.Proofs.Random.Publishing

/-!
# Runs within their budget

Every run ends, and within a budget that its limits give, for every solver whose functions have an answer
everywhere, infinities and what is not a number included. Nothing is assumed of the functions beyond that,
and of numbers no more than what keeps an operation from having no result: that they tell what is zero from
what is not, and for a moment descent that arithmetic keeps signs. Floats and real numbers do so.
-/

namespace Minimization

variable {m : Type → Type} [Monad m] {ω : Type} [Stateful m ω] {α : Type} [Scalar α]

/-- Every run ends within its budget. A descent whose functions have an answer everywhere makes the first
number of iterations, at least one, that reaches its limit or ends with a small step, and evaluates its
functions as often as its iterations and their shrinks say; on floats nothing has to be known for that
beyond the operations that are not computed from unpacked ones. A constrained solver makes one such descent
in every round, and no more rounds than its limit allows. -/
theorem run_within_budget (I : ω → Prop) :
    (Scalar.DiscernsZero α → ∀ (s : GradientDescent.Setup m α) (guess : Tensor α) (w : Run α × ω),
      Answering I s.before s.loss s.gradient guess.shape → I w.2 →
      ∃ es visits y w', GradientDescent.Budget s guess w es visits y w') ∧
    (Scalar.KeepsSigns α → ∀ (s : Adam.Setup m α) (guess : Tensor α) (w : Run α × ω),
      s.settings.IsProper → Answering I s.before s.loss s.gradient guess.shape → I w.2 →
      ∃ es visits y w', Adam.Budget s guess w es visits y w') ∧
    (Scalar.DiscernsZero α → ∀ (s : AugmentedLagrangian.Setup m α) (inner : GradientDescent.Settings α)
      (guess : Tensor α) (w : Course α × ω), s.problem.Answers I guess.shape →
      (Value.int guess.size).agrees s.problem.dimension = true → s.settings.inner = .ok inner →
      s.settings.tolerance ≠ .incomparable → I w.2 →
      ∃ y w', attempt (AugmentedLagrangian.minimize s.precision s.problem (.ok s.settings) guess) w
          = (.ok y, w') ∧
        Course.Conducts.Within I (s.IsInner inner) w.1 w' w'.1.report.iterations
          s.settings.maxRounds.toNat) ∧
    (Scalar.DiscernsZero α → ∀ (s : LogBarrier.Setup m α) (inner : GradientDescent.Settings α)
      (guess : Tensor α) (w : Course α × ω), s.problem.Answers I guess.shape →
      (Value.int guess.size).agrees s.problem.dimension = true → s.settings.inner = .ok inner →
      s.settings.tolerance ≠ .incomparable → I w.2 →
      ∃ y w', attempt (LogBarrier.minimize s.precision s.problem (.ok s.settings) guess) w
          = (.ok y, w') ∧
        Course.Conducts.Within I (s.IsInner inner) w.1 w' w'.1.report.iterations
          s.settings.maxRounds.toNat) ∧
    (Scalar.OpaqueKeepSigns → ∀ (s : Adam.Setup m Float) (guess : Tensor Float) (w : Run Float × ω),
      s.settings.IsProper → Answering I s.before s.loss s.gradient guess.shape → I w.2 →
      ∃ es visits y w', Adam.Budget s guess w es visits y w') := by
  have hmoments {β : Type} [Scalar β] (hs : Scalar.KeepsSigns β) (s : Adam.Setup m β) (guess : Tensor β)
      (w : Run β × ω) (hh : s.settings.IsProper)
      (hf : Answering I s.before s.loss s.gradient guess.shape) (hw : I w.2) :
      ∃ es visits y w', Adam.Budget s guess w es visits y w' := by
    obtain ⟨es, visits, y, w', hbudget, -⟩ := Adam.exists_budget hs hh hf hw
    exact ⟨es, visits, y, w', hbudget⟩
  refine ⟨fun hz s guess w hf hw => ?_, hmoments,
    fun hz s inner guess w hp hdimension hinner ht hw =>
      AugmentedLagrangian.exists_conducts hz hp hdimension hinner ht hw,
    fun hz s inner guess w hp hdimension hinner ht hw =>
      LogBarrier.exists_conducts hz hp hdimension hinner ht hw,
    fun hs => hmoments (Scalar.keepsSigns_float hs)⟩
  obtain ⟨es, visits, y, w', hbudget, -⟩ := GradientDescent.exists_budget hz hf hw
  exact ⟨es, visits, y, w', hbudget⟩

/-- An objective that is never a number: a stochastic descent on floats that publishes numbers, a moment
descent on floats, and both constrained solvers. A moment descent on real numbers. -/
theorem run_within_budget_undefined :
    let undefined : Float := Scalar.infinity - Scalar.infinity
    let settings : GradientDescent.Settings Float := ⟨1.0, 0.5, 1.2, 0.0, 0.01, 0, 20⟩
    let publish : Evaluation (StateT Random.Station Id) Unit :=
      discard (Random.Station.publish fun _ _ _ _ => [])
    let descent : GradientDescent.Setup (StateT Random.Station Id) Float :=
      ⟨"StochasticGradientDescent", .double, settings, fun _ => pure (.ofNumber undefined),
        fun x => pure x, publish⟩
    let moments : Adam.Setup Id ℝ :=
      ⟨.double, ⟨1, Scalar.half, Scalar.half, 1, 0, 100⟩, fun _ => pure (.ofNumber 0), fun x => pure x,
        pure ()⟩
    let rounding : Adam.Setup Id Float :=
      ⟨.single, ⟨1.0, Scalar.decimal 9 1, Scalar.decimal 999 3, Scalar.decimal 1 9, 0.0, 100⟩,
        fun _ => pure (.ofNumber undefined), fun x => pure x, pure ()⟩
    let problem : Problem Id Float :=
      ⟨.int 1, .plain (some fun _ => pure (.ofNumber undefined)), .field (some fun x => pure x),
        [.plain (some fun _ => pure (.ofNumber undefined))], [.field (some fun x => pure x)], rfl, rfl⟩
    let multipliers : AugmentedLagrangian.Setup Id Float :=
      ⟨.double, problem, ⟨80, 1.0, 1.01, .none, .ok settings⟩⟩
    let barrier : LogBarrier.Setup Id Float := ⟨.double, problem, ⟨-1, 8.0, 0.95, .none, .ok settings⟩⟩
    let guess : Tensor Float := .vector .double [1.0]
    let start : Tensor ℝ := .vector .double [1]
    let station : Random.Station := ⟨.unseeded, .holding (.int 0)⟩
    let report : Report Float := ⟨0.0, 0.0, 0⟩
    let c : Course Float × Unit := (⟨⟨[], 9.0, 4⟩, some [], some [], []⟩, ())
    (∃ es visits y w',
      GradientDescent.Budget descent guess (⟨report, none, []⟩, station, ()) es visits y w') ∧
    (∃ es visits y w', Adam.Budget moments start (⟨⟨0, 0, 0⟩, none, []⟩, ()) es visits y w') ∧
    (∃ y w', attempt (AugmentedLagrangian.minimize .double problem (.ok multipliers.settings) guess) c
        = (.ok y, w') ∧
      Course.Conducts.Within (fun _ => True) (multipliers.IsInner settings) c.1 w'
        w'.1.report.iterations 80) ∧
    (∃ y w', attempt (LogBarrier.minimize .double problem (.ok barrier.settings) guess) c = (.ok y, w') ∧
      Course.Conducts.Within (fun _ => True) (barrier.IsInner settings) c.1 w' w'.1.report.iterations 0) ∧
    (Scalar.OpaqueKeepSigns →
      ∃ es visits y w', Adam.Budget rounding guess (⟨report, none, []⟩, ()) es visits y w') := by
  intro undefined settings publish descent moments rounding problem multipliers barrier guess start station
    report c
  have hready : station.IsReady fun _ _ _ _ => [] := ⟨⟨_, rfl⟩, nofun⟩
  have hdescent : Answering (fun w : Random.Station × Unit => w.1.IsReady fun _ _ _ _ => [])
      descent.before descent.loss descent.gradient guess.shape :=
    ⟨Random.Station.succeeds_publish _, fun _ _ => .pure ⟨_, rfl⟩, fun _ hx => .pure hx⟩
  have hmoments : Answering (fun _ : Unit => True) moments.before moments.loss moments.gradient
      start.shape := ⟨.pure trivial, fun _ _ => .pure ⟨_, rfl⟩, fun _ hx => .pure hx⟩
  have hhalf : (Scalar.half : ℝ) = 1 / 2 := by
    show ((5 : Nat) : ℝ) / 10 ^ 1 = _
    norm_num
  have hdecay : Scalar.le Scalar.zero (Scalar.half : ℝ) = true ∧
      Scalar.lt (Scalar.half : ℝ) Scalar.one = true := by
    rw [Scalar.zero_le_real_iff, Scalar.lt_one_real_iff, hhalf]
    norm_num
  have hguard : Scalar.lt Scalar.zero (1 : ℝ) = true := by
    rw [ExactScalar.zero_eq]
    exact decide_eq_true zero_lt_one
  have hrounding : Answering (fun _ : Unit => True) rounding.before rounding.loss rounding.gradient
      guess.shape := ⟨.pure trivial, fun _ _ => .pure ⟨_, rfl⟩, fun _ hx => .pure hx⟩
  have hproper : rounding.settings.IsProper := by
    refine ⟨?_, ?_, ?_⟩
    · show Scalar.le Scalar.zero (Scalar.decimal 9 1 : Float) = true ∧ Scalar.lt _ Scalar.one = true
      decide +kernel
    · show Scalar.le Scalar.zero (Scalar.decimal 999 3 : Float) = true ∧ Scalar.lt _ Scalar.one = true
      decide +kernel
    · show Scalar.lt Scalar.zero (Scalar.decimal 1 9 : Float) = true
      decide +kernel
  have hproblem : problem.Answers (fun _ : Unit => True) guess.shape := by
    refine ⟨fun _ _ _ _ => .of_ok rfl ⟨trivial, trivial⟩, fun _ hx _ _ => .of_ok rfl ⟨hx, trivial⟩,
      fun g hg _ _ _ _ => ?_, fun g hg _ hx _ _ => ?_⟩
    · obtain rfl := List.mem_singleton.mp hg
      exact .of_ok rfl ⟨trivial, trivial⟩
    · obtain rfl := List.mem_singleton.mp hg
      exact .of_ok rfl ⟨hx, trivial⟩
  exact ⟨(run_within_budget _).1 Scalar.discernsZero_float descent guess _ hdescent hready,
    (run_within_budget _).2.1 Scalar.keepsSigns_real moments start _ ⟨hdecay, hdecay, hguard⟩ hmoments
      trivial,
    (run_within_budget _).2.2.1 Scalar.discernsZero_float multipliers settings guess c hproblem rfl rfl nofun
      trivial,
    (run_within_budget _).2.2.2.1 Scalar.discernsZero_float barrier settings guess c hproblem rfl rfl nofun
      trivial,
    fun hs => (run_within_budget (α := Float) _).2.2.2.2 hs rounding guess _ hproper hrounding trivial⟩

end Minimization
