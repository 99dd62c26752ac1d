import Minimization.Proofs.Descent.Exact
import Minimization.Proofs.Descent.Layout
import Minimization.Proofs.Descent.StepBound
import Minimization.Proofs.Solver.Stochastic

/-!
# The histories of the solvers

The history of every completed run is laid out, for gradient descent and for moment descent, whatever
happens before an iteration. For the stochastic solvers that is the publishing of a number: every entry
has one, and what an iteration evaluates it evaluates while the cell holds this number.
-/

namespace Minimization.Solver

open Minimization.Random

variable {m : Type → Type} [Monad m] {ω : Type} [Stateful m ω] {α : Type}

/-! ## What the iterations keep -/

theorem keeps_number {R : ω → ω → Prop} {f : Rule m α} (h : ∀ x, Keeps R (f x)) (x : Tensor α) :
    Keeps R (f.number x) := by
  intro w
  rw [attempt_number_snd]
  exact h x w

section

variable [Scalar α]

/-- Line searches keep what evaluating the loss keeps. -/
theorem keeps_of_shrinks {R : ω → ω → Prop} [Trans R R R] {s : GradientDescent.Setup m α}
    (hl : ∀ x, Keeps R (s.loss x)) {x d : Tensor α} {bound : α → α} {left n : Nat} {a : α} {u v : ω}
    {exhausted : Bool} (h : GradientDescent.Shrinks s x d bound left a u n exhausted v) : R u v := by
  have hkeeps : ∀ {a u v rejected}, GradientDescent.Tried s x d bound a u rejected v → R u v := by
    rintro a u v rejected ⟨there, answer, value, -, hanswer, -⟩
    have h := hl there u
    rw [hanswer] at h
    exact h
  induction h with
  | accepted ht => exact hkeeps ht
  | exhausted ht => exact hkeeps ht
  | shrunk ht _ ih => exact Trans.trans (hkeeps ht) ih

/-- Once the world is prepared, an iteration keeps what evaluating the functions keeps. -/
theorem keeps_of_searches {R : ω → ω → Prop} [Trans R R R] {s : GradientDescent.Setup m α}
    (hl : ∀ x, Keeps R (s.loss x)) (hg : ∀ x, Keeps R (s.gradient x)) {e : Entry α ω} {a : α} {n : Nat}
    (h : GradientDescent.Searches s e a n) : R e.prepared e.finish := by
  obtain ⟨gradient, slope, u, v, exhausted, hloss, hgradient, -, -, -, hshrinks⟩ := h
  have hu := keeps_number hl e.point e.prepared
  have hv := hg e.point u
  rw [hloss] at hu
  rw [hgradient] at hv
  exact Trans.trans (Trans.trans hu hv) (keeps_of_shrinks hl hshrinks)

end

/-! ## Published numbers -/

instance : Trans (SameStation (ω := ω)) SameStation SameStation where
  trans := Eq.trans

/-- The iteration of an entry was prepared by publishing a number, and its evaluations, that of the
gradient between two worlds included, are made while the cell holds it. -/
structure Publishes (m : Type → Type) [Monad m] [Stateful m ω] (b : Behaviour Value)
    (loss : Rule (StateT Station m) α) (gradient : Field (StateT Station m) α)
    (e : Entry α (Station × ω)) : Prop where
  published : ∃ n, attempt (Station.publish b : ExceptT Failure (StateT Station m) Int) e.start
    = (.ok n, e.prepared) ∧ e.prepared.1.cell.value = .int n
  held : (∀ x, Keeps SameStation (loss x)) → (∀ x, Keeps SameStation (gradient x)) →
    (attempt (loss e.point) e.prepared).2.1 = e.prepared.1 ∧ e.finish.1 = e.prepared.1

/-- What an iteration publishes before its evaluations is still there when it ends. -/
theorem publishes_of_prepared {b : Behaviour Value} (hb : b.StoresNothing)
    {loss : Rule (StateT Station m) α} {gradient : Field (StateT Station m) α}
    {e : Entry α (Station × ω)}
    (h : attempt (discard (Station.publish b) : Evaluation (StateT Station m) Unit) e.start
      = (.ok (), e.prepared))
    (hfinish : (∀ x, Keeps SameStation (loss x)) → (∀ x, Keeps SameStation (gradient x)) →
      SameStation e.prepared e.finish) : Publishes m b loss gradient e where
  published := Station.published_of_attempt hb h
  held hl hg := ⟨(hl e.point e.prepared).symm, (hfinish hl hg).symm⟩

variable [Scalar α]

/-- Every gradient descent that ends, with an empty history at its start, leaves one that is laid out,
whatever happens before its iterations. If a number is published then, its entries have one each, and
their functions are evaluated under it. The same is true of a moment descent. -/
theorem run_layout (hround : ∀ c : α, Scalar.round .double c = c) :
    (∀ (s : GradientDescent.Setup m α) (guess y : Tensor α) (report : Report α)
      (notices : List (Notice α)) (u v : ω) (r : Run α),
      attempt (GradientDescent.run s guess) (⟨report, some .empty, notices⟩, u) = (.ok y, r, v) →
      ∃ es h w, r.history = some h ∧ GradientDescent.Layout s guess u es h y r.report w v) ∧
    ∀ b : Behaviour Value, b.StoresNothing →
      (∀ (s : GradientDescent.Setup (StateT Station m) α) (guess y : Tensor α) (report : Report α)
        (notices : List (Notice α)) (u v : Station × ω) (r : Run α),
        s.before = discard (Station.publish b) →
        attempt (GradientDescent.run s guess) (⟨report, some .empty, notices⟩, u) = (.ok y, r, v) →
        ∃ es h w, r.history = some h ∧ GradientDescent.Layout s guess u es h y r.report w v ∧
          ∀ e ∈ es, Publishes m b s.loss s.gradient e) ∧
      ∀ (s : Adam.Setup (StateT Station m) α) (guess y : Tensor α) (report : Report α)
        (notices : List (Notice α)) (u v : Station × ω) (r : Run α),
        s.before = discard (Station.publish b) →
        attempt (Adam.run s guess) (⟨report, some .empty, notices⟩, u) = (.ok y, r, v) →
        ∃ es h w, r.history = some h ∧ Adam.Layout s guess u es h y r.report w v ∧
          ∀ e ∈ es, Publishes m b s.loss s.gradient e := by
  refine ⟨fun s guess y report notices u v r h => GradientDescent.layout_of_run_ok hround h,
    fun b hb => ⟨fun s guess y report notices u v r hs h => ?_,
      fun s guess y report notices u v r hs h => ?_⟩⟩
  · obtain ⟨es, h, w, hhistory, hlayout⟩ := GradientDescent.layout_of_run_ok hround h
    refine ⟨es, h, w, hhistory, hlayout, fun e he => ?_⟩
    have hprepared := hlayout.prepared e he
    rw [hs] at hprepared
    obtain ⟨a, n, hsearches, -⟩ := hlayout.block e he
    exact publishes_of_prepared hb hprepared fun hl hg => keeps_of_searches hl hg hsearches
  · obtain ⟨es, h, w, hhistory, hlayout⟩ := Adam.layout_of_run_ok h
    refine ⟨es, h, w, hhistory, hlayout, fun e he => ?_⟩
    have hprepared := hlayout.prepared e he
    rw [hs] at hprepared
    refine publishes_of_prepared hb hprepared fun hl hg => ?_
    obtain ⟨u', hloss, hgradient⟩ := hlayout.evaluated e he
    have hu := keeps_number hl e.point e.prepared
    have hv := hg e.point u'
    rw [hloss] at hu
    rw [hgradient] at hv
    exact Trans.trans hu hv

/-! ## Runs of one iteration -/

open ExactScalar

/-- A step from moments that are zero. -/
theorem exists_stepOf_zero {h : Adam.Settings ℝ} (hguard : 0 < h.guardTerm) (size : ℝ) {x : Tensor ℝ}
    (hx : x = .vector .double [0]) :
    ∃ step y, Adam.stepOf .double h ⟨x, x⟩ size = .ok step ∧ x.moveBy step = .ok y := by
  have hshape : x.shape = [1] := by
    rw [hx]
    rfl
  have hroots : x.entries.mapM (fun v => do
      return Scalar.round .double (← Adam.inverseRoot h v)) = .ok [1 / (√0 + h.guardTerm)] := by
    rw [hx]
    show [(0 : ℝ)].mapM _ = _
    rw [List.mapM_cons, Adam.inverseRoot_eq hguard (le_refl 0)]
    rfl
  obtain ⟨z, hz, hzs⟩ : ∃ z, x.mapM (fun v => do
      return Scalar.round .double (← Adam.inverseRoot h v)) = .ok z ∧ z.shape = [1] := by
    unfold Tensor.mapM
    split
    next e he =>
      rw [hroots] at he
      cases he
    next ys hys => exact ⟨_, rfl, hshape⟩
  have hxr := Tensor.represents_toPoint (n := 1) hshape rfl
  have hzr := Tensor.represents_toPoint (n := 1) hzs rfl
  obtain ⟨d, hd, hdr⟩ : ∃ d, x.multiply z = .ok d ∧
      d.Represents [1] (WithLp.toLp 2 fun i => x.toPoint 1 i * z.toPoint 1 i : Point 1) :=
    Tensor.Represents.combine (fun a b => (ofReal_mul a b).symm) (fun _ => rfl) _ hxr hzr
  obtain ⟨y, hy, -⟩ := hxr.moveBy (hdr.scale (-size))
  refine ⟨d.scale (-size), y, ?_, hy⟩
  have hconvert : x.convert .double = x := by
    rw [hx]
    rfl
  have hprecision : x.precision = .double := by
    rw [hx]
    rfl
  unfold Adam.stepOf
  dsimp only
  rw [hconvert, hprecision, hz]
  show (x.multiply z >>= _) = _
  rw [hd]
  rfl

section Once

variable {publish : Evaluation (StateT Station Id) Unit} {u v : Station × Unit}
  (hv : attempt publish u = (.ok (), v))
include hv

/-- A gradient descent of one iteration, with a line search that is not allowed to shrink. -/
theorem gradientDescent_once {h : GradientDescent.Settings ℝ} (hsteps : h.maxSteps = 1)
    (hshrinks : h.maxShrinks = 0) (r : Run ℝ) :
    ∃ y r', attempt (GradientDescent.run ⟨"StochasticGradientDescent", .double, h,
      fun _ => pure (.ofNumber 0), fun x => pure x, publish⟩ (.vector .double [0])) (r, u)
        = (.ok y, r', v) := by
  have hx : ((Tensor.vector .double [0] : Tensor ℝ).convert .double).Represents [1]
      (Tensor.toPoint 1 (.convert .double (.vector .double [0]))) := Tensor.represents_toPoint rfl rfl
  generalize Tensor.toPoint 1 (.convert .double (.vector .double [0])) = p at hx
  generalize hstart : (Tensor.vector .double [0] : Tensor ℝ).convert .double = x at hx
  obtain ⟨d, hd, hdr⟩ := GradientDescent.Tensor.Represents.direction hx
  obtain ⟨y, hy, -⟩ := hx.moveBy (hdr.scale h.initialStep)
  have hslope := hx.inner hdr
  have hcheck : checkGradient x x = .ok () := GradientDescent.checkGradient_eq_ok.mpr rfl
  rw [ofReal_real] at hy
  unfold GradientDescent.run
  simp only [hsteps, hshrinks, hstart, Int.sub_self, Int.toNat_zero, GradientDescent.iterate,
    GradientDescent.iteration, GradientDescent.search, attempt_bind, attempt_evaluate, attempt_lift,
    attempt_record, attempt_reporting, attempt_pure, Rule.number, Answer.ofNumber, hv, hcheck, hd,
    hslope, hy]
  -- Whether the trial is accepted or not, the search ends with it.
  generalize Scalar.lt (_ + _ : ℝ) 0 = rejected
  cases rejected
  · simp [hy, attempt_bind, -bind_pure_comp]
  · simp [hy, attempt_bind, -bind_pure_comp]

theorem adam_once {h : Adam.Settings ℝ} (hd : h.IsDecaying) (hsteps : h.maxSteps = 1) (r : Run ℝ) :
    ∃ y r', attempt (Adam.run ⟨.double, h, fun _ => pure (.ofNumber 0), fun x => pure x, publish⟩
      (.vector .double [0])) (r, u) = (.ok y, r', v) := by
  have hmoments : (Adam.Moments.start (.convert .double (.vector .double [0]))).update h
      (.convert .double (.vector .double [0])) = .ok ⟨.vector .double [0], .vector .double [0]⟩ := by
    refine congrArg Except.ok ?_
    simp [Adam.Moments.start, Tensor.scale, Tensor.withNumber, Tensor.map, Tensor.vector, Tensor.convert,
      Tensor.zipWith, Scalar.round, Precision.max]
  have hsize := hd.correctedStep_eq 0
  obtain ⟨step, y, hstep, hy⟩ := exists_stepOf_zero hd.guardTerm_pos (h.stepSize
    * √((1 - h.secondDecay) * h.secondSum 1) / ((1 - h.firstDecay) * h.firstSum 1)) rfl
  have hconvert : (Tensor.vector .double [0] : Tensor ℝ).convert .double = .vector .double [0] := rfl
  have hcheck (x : Tensor ℝ) : checkGradient x x = .ok () :=
    GradientDescent.checkGradient_eq_ok.mpr rfl
  rw [hconvert] at hmoments
  unfold Adam.run
  simp only [hsteps, hconvert, Int.sub_self, Int.toNat_zero, Adam.iterate, Adam.iteration, attempt_bind,
    attempt_evaluate, attempt_lift, attempt_record, attempt_reporting, attempt_pure, Rule.number,
    Answer.ofNumber, hv, hcheck, hmoments, hsize, hstep, hy, attempt_report, attempt_notify]
  exact ⟨_, _, rfl⟩

end Once

/-- A descent along the square of a coordinate; and one iteration of either kind with the number seven. -/
theorem run_layout_square :
    let h : GradientDescent.Settings ℝ := ⟨1, 1 / 2, 6 / 5, 1 / 10 ^ 8, 1 / 100, 100, 20⟩
    let s : GradientDescent.Setup Id ℝ := .euclidean h (fun v : Point 1 => v 0 ^ 2) fun v => (2 : ℝ) • v
    let guess : Tensor ℝ := .ofPoint .double (.single 0 1 : Point 1)
    let start : Run ℝ := ⟨⟨0, 0, 0⟩, some .empty, []⟩
    let b : Behaviour Value := fun _ _ _ _ => []
    let publish : Evaluation (StateT Station Id) Unit := discard (Station.publish b)
    let u : Station × Unit := (⟨.script [.int 7], .holding .null⟩, ())
    let once : GradientDescent.Setup (StateT Station Id) ℝ := ⟨"StochasticGradientDescent", .double,
      ⟨1, 1 / 2, 6 / 5, 1 / 10 ^ 8, 1 / 100, 1, 0⟩, fun _ => pure (.ofNumber 0), fun x => pure x, publish⟩
    let moments : Adam.Setup (StateT Station Id) ℝ := ⟨.double,
      ⟨1 / 10, 9 / 10, 999 / 1000, 1 / 10 ^ 8, 0, 1⟩, fun _ => pure (.ofNumber 0), fun x => pure x, publish⟩
    ((∀ c : ℝ, Scalar.round .double c = c) ∧ b.StoresNothing) ∧
    (∃ y r, attempt (GradientDescent.run s guess) (start, ()) = (.ok y, r, ()) ∧
      ∃ es h w, r.history = some h ∧ GradientDescent.Layout s guess () es h y r.report w ()) ∧
    (∃ y r v, attempt (GradientDescent.run once (.vector .double [0])) (start, u) = (.ok y, r, v) ∧
      ∃ es h w, r.history = some h ∧
        GradientDescent.Layout once (.vector .double [0]) u es h y r.report w v ∧
        ∀ e ∈ es, Publishes Id b once.loss once.gradient e) ∧
    ∃ y r v, attempt (Adam.run moments (.vector .double [0])) (start, u) = (.ok y, r, v) ∧
      ∃ es h w, r.history = some h ∧ Adam.Layout moments (.vector .double [0]) u es h y r.report w v ∧
        ∀ e ∈ es, Publishes Id b moments.loss moments.gradient e := by
  intro h s guess start b publish u once moments
  have hround : ∀ c : ℝ, Scalar.round .double c = c := fun _ => rfl
  have hb : b.StoresNothing := fun _ _ _ _ _ => List.not_mem_nil
  obtain ⟨v, hv⟩ : ∃ v, attempt publish u = (.ok (), v) := by
    have hleft := Station.left_publish (m := Id) (w := u) hb (n := 7) rfl
    exact ⟨_, Prod.ext (hleft.2.2 fun _ hl => nomatch hl) rfl⟩
  refine ⟨⟨hround, hb⟩, ?_, ?_, ?_⟩
  · obtain ⟨y, r, hrun⟩ := GradientDescent.run_total (h := h) (GradientDescent.Setup.realizes_euclidean h _ _)
      rfl (Tensor.represents_ofPoint (α := ℝ) .double (.single 0 1 : Point 1)) start
    have hrun' : attempt (GradientDescent.run s guess) (start, ()) = (.ok y, r, ()) :=
      congrArg (fun o => (o.1, o.2, ())) hrun
    exact ⟨y, r, hrun', (run_layout hround).1 s guess y _ _ () () r hrun'⟩
  · obtain ⟨y, r, hrun⟩ := gradientDescent_once hv (h := once.settings) rfl rfl start
    exact ⟨y, r, v, hrun, ((run_layout (m := Id) hround).2 b hb).1 once _ y _ _ u v r rfl hrun⟩
  · have hd : moments.settings.IsDecaying := by
      constructor <;> norm_num [moments]
    obtain ⟨y, r, hrun⟩ := adam_once hv hd rfl start
    exact ⟨y, r, v, hrun, ((run_layout (m := Id) hround).2 b hb).2 moments _ y _ _ u v r rfl hrun⟩

end Minimization.Solver
