import Minimization.Descent.Moments
import Minimization.Proofs.Descent.Path
import Minimization.Proofs.Stateful

/-!
# The path of a moment descent

A moment descent is the list of its steps. `Step.Follows` says everything about one iteration: which
gradient is evaluated, what the moments become, and which step they give. `Path` chains the iterations
of a run, and `Ends` says how a run goes on after them: the next iteration fails, or the run ends with
the loss of the last point. `run_path` says that every run has a path, whether it succeeds or not and
whatever traces the evaluations leave. Nothing is assumed about the numbers.
-/

namespace Minimization.Adam

variable {m : Type → Type} [Monad m] {ω : Type} [Stateful m ω] {α : Type} [Scalar α]

/-! ## Iterations -/

/-- A completed iteration. -/
structure Step (α : Type) where
  point : Tensor α
  before : Moments α
  gradient : Tensor α
  after : Moments α
  size : α
  step : Tensor α
  next : Tensor α

/-- The step is an iteration, counted from one, that leads from one world to another. -/
structure Step.Follows (k : Step α) (s : Setup m α) (t : Nat) (w w' : Run α × ω) : Prop where
  made : attempt (iteration s t k.point k.before) w = (.ok (k.after, k.step.norm, k.next), w')
  evaluated : ∃ loss u₁ u₂, attempt s.before w.2 = (.ok (), u₁) ∧
    attempt (s.loss.number k.point) u₁ = (.ok loss, u₂) ∧
    attempt (s.gradient k.point) u₂ = (.ok k.gradient, w'.2)
  size_eq : k.gradient.size = k.point.size
  after_eq : k.before.update s.settings k.gradient = .ok k.after
  corrected : correctedStep s.settings t = .ok k.size
  step_eq : stepOf s.precision s.settings k.after k.size = .ok k.step
  next_eq : k.point.moveBy k.step = .ok k.next

/-- An iteration that succeeds is a step. -/
theorem iteration_ok {s : Setup m α} {t : Nat} {x y : Tensor α} {ms ms' : Moments α} {length : α}
    {w w' : Run α × ω} (h : attempt (iteration s t x ms) w = (.ok (ms', length, y), w')) :
    ∃ k : Step α, k.point = x ∧ k.before = ms ∧ k.after = ms' ∧ k.step.norm = length ∧ k.next = y ∧
      k.Follows s t w w' := by
  have hmade := h
  unfold iteration at h
  simp only [attempt_bind_eq_ok, attempt_lift_eq_ok, attempt_evaluate_eq_ok, attempt_record_eq_ok,
    attempt_reporting_eq_ok, attempt_pure_eq_ok] at h
  obtain ⟨_, _, ⟨hbefore, -⟩, loss, _, ⟨hloss, -⟩, gradient, _, ⟨hgradient, -⟩, _, _, ⟨hcheck, rfl⟩,
    after, _, ⟨hafter, rfl⟩, size, _, ⟨hsize, rfl⟩, step, _, ⟨hstep, rfl⟩, _, _, rfl, next, _,
    ⟨hnext, rfl⟩, _, _, rfl, hresult, rfl⟩ := h
  obtain ⟨rfl, rfl, rfl⟩ : after = ms' ∧ step.norm = length ∧ next = y := by
    simpa only [Prod.mk.injEq] using hresult
  exact ⟨⟨x, ms, gradient, after, size, step, next⟩, rfl, rfl, rfl, rfl, rfl,
    ⟨hmade, ⟨loss, _, _, hbefore, hloss, hgradient⟩,
      GradientDescent.checkGradient_eq_ok.mp hcheck, hafter, hsize, hstep, hnext⟩⟩

/-! ## Runs -/

/-- The iterations lead from a point in one world to a point with moments in another. -/
inductive Path (s : Setup m α) (x : Tensor α) (w : Run α × ω) :
    List (Step α) → Tensor α → Moments α → Run α × ω → Prop
  | none : Path s x w [] x (.start x) w
  | snoc {ks k u v} : Path s x w ks k.point k.before u → k.Follows s (ks.length + 1) u v →
      Path s x w (ks ++ [k]) k.next k.after v

/-- The end of a run after some iterations. -/
def finish (s : Setup m α) (steps : Nat) (x : Tensor α) : Descent m α (Tensor α) := do
  Descent.reporting fun r => { r with iterations := steps }
  let loss ← Descent.evaluate (s.loss.number x)
  Descent.reporting fun r => { r with loss }
  Descent.record fun h => (h.addPosition x.flatten).addLoss loss
  let report ← (ExceptT.mk (do return .ok (← get).report) : Descent m α (Report α))
  Descent.notify (.momentsEnded steps report.stepSize loss)
  return x

/-- How a run goes on after some iterations: it ends at their point, or the next iteration fails. -/
inductive Ends (s : Setup m α) (ks : List (Step α)) (x : Tensor α) (ms : Moments α) (u : Run α × ω) :
    Except Failure (Tensor α) × Run α × ω → Prop
  | finished : Ends s ks x ms u (attempt (finish s ks.length x) u)
  | failed {e v} : attempt (iteration s (ks.length + 1) x ms) u = (.error e, v) →
      Ends s ks x ms u (.error e, v)

/-- A computation goes on from a world with more iterations: they lead to its answer, or the next one
fails. -/
def Continues (s : Setup m α) (x : Tensor α) (w : Run α × ω) (c : Descent m α (Nat × Tensor α))
    (u : Run α × ω) : Prop :=
  ∃ ks y ms v, Path s x w ks y ms v ∧
    (attempt c u = (.ok (ks.length, y), v) ∨
      ∃ e v', attempt (iteration s (ks.length + 1) y ms) v = (.error e, v') ∧
        attempt c u = (.error e, v'))

/-- One more iteration goes on if what follows it does. -/
theorem Continues.bind {s : Setup m α} {x y : Tensor α} {ms : Moments α} {w u : Run α × ω}
    {ks : List (Step α)} (hp : Path s x w ks y ms u)
    {f : Moments α × α × Tensor α → Descent m α (Nat × Tensor α)}
    (hf : ∀ k v, Path s x w (ks ++ [k]) k.next k.after v →
      Continues s x w (f (k.after, k.step.norm, k.next)) v) :
    Continues s x w (iteration s (ks.length + 1) y ms >>= f) u := by
  rcases hiteration : attempt (iteration s (ks.length + 1) y ms) u with ⟨e | ⟨after, length, next⟩, v⟩
  · exact ⟨ks, y, ms, u, hp, .inr ⟨e, v, hiteration, attempt_bind_of_error hiteration _⟩⟩
  · obtain ⟨k, rfl, rfl, rfl, rfl, rfl, hk⟩ := iteration_ok hiteration
    obtain ⟨ks', y', ms', v', hp', h⟩ := hf k v (hp.snoc hk)
    rw [← attempt_bind_of_ok hiteration] at h
    exact ⟨ks', y', ms', v', hp', h⟩

/-- Iterations that end do so at their point. -/
theorem Continues.pure {s : Setup m α} {x y : Tensor α} {ms : Moments α} {w u : Run α × ω}
    {ks : List (Step α)} (hp : Path s x w ks y ms u) {t : Nat} (ht : t = ks.length) :
    Continues s x w (pure (t, y)) u :=
  ⟨ks, y, ms, u, hp, .inl (ht ▸ attempt_pure _ u)⟩

theorem iterate_continues {s : Setup m α} {x : Tensor α} {w : Run α × ω} (left : Nat) :
    ∀ {ks : List (Step α)} {y : Tensor α} {ms : Moments α} {u : Run α × ω}, Path s x w ks y ms u →
      Continues s x w (iterate s left (ks.length + 1) y ms) u := by
  -- By induction on the iterations that are left, for all iterations that were made.
  induction left with
  | zero =>
    intro ks y ms u hp
    unfold iterate
    exact .bind hp fun k v hk => .pure hk (by rw [List.length_append, List.length_singleton])
  | succ left ih =>
    intro ks y ms u hp
    unfold iterate
    refine .bind hp fun k v hk => ?_
    have hlength : (ks ++ [k]).length = ks.length + 1 := by
      rw [List.length_append, List.length_singleton]
    dsimp only
    split
    next => exact .pure hk hlength.symm
    next =>
      rw [← hlength]
      exact ih hk

/-- Every run has a path, and ends after it. -/
theorem run_path (s : Setup m α) (guess : Tensor α) (w : Run α × ω) :
    ∃ ks x ms u, Path s (guess.convert s.precision) w ks x ms u ∧
      Ends s ks x ms u (attempt (run s guess) w) := by
  have hnone : Path s (guess.convert s.precision) w [] _ (.start _) w := .none
  obtain ⟨ks, x, ms, u, hp, h | ⟨e, v, hiteration, h⟩⟩ :=
    iterate_continues (s.settings.maxSteps - 1).toNat hnone
  · refine ⟨ks, x, ms, u, hp, ?_⟩
    have hrun : attempt (run s guess) w = attempt (finish s ks.length x) u := attempt_bind_of_ok h _
    rw [hrun]
    exact .finished
  · refine ⟨ks, x, ms, u, hp, ?_⟩
    have hrun : attempt (run s guess) w = (.error e, v) := attempt_bind_of_error h _
    rw [hrun]
    exact .failed hiteration

/-- The iterations of a path up to a step lead to where it starts. -/
theorem Path.follows_prefix {s : Setup m α} {x y : Tensor α} {ms : Moments α} {w u : Run α × ω}
    {ks : List (Step α)} (hp : Path s x w ks y ms u) {t : Nat} {k : Step α} (hk : ks[t]? = some k) :
    ∃ before later v v', ks = before ++ [k] ++ later ∧ before.length = t ∧
      Path s x w before k.point k.before v ∧ k.Follows s (t + 1) v v' := by
  induction hp with
  | none => cases hk
  | @snoc ks k' v v' hks hk' ih =>
    rcases Nat.lt_trichotomy t ks.length with ht | rfl | ht
    · rw [List.getElem?_append_left ht] at hk
      obtain ⟨before, later, u, u', rfl, hbefore⟩ := ih hk
      exact ⟨before, later ++ [k'], u, u', List.append_assoc .., hbefore⟩
    · rw [List.getElem?_concat_length, Option.some.injEq] at hk
      subst hk
      exact ⟨ks, [], v, v', (List.append_nil _).symm, rfl, hks, hk'⟩
    · rw [List.getElem?_eq_none (by simp; omega)] at hk
      cases hk

/-- The iterations before a step lead to where it starts. -/
theorem Path.follows {s : Setup m α} {x y : Tensor α} {ms : Moments α} {w u : Run α × ω}
    {ks : List (Step α)} (hp : Path s x w ks y ms u) {t : Nat} {k : Step α} (hk : ks[t]? = some k) :
    ∃ ks' v v', ks'.length = t ∧ Path s x w ks' k.point k.before v ∧ k.Follows s (t + 1) v v' := by
  obtain ⟨before, -, v, v', -, hbefore⟩ := hp.follows_prefix hk
  exact ⟨before, v, v', hbefore⟩

end Minimization.Adam
