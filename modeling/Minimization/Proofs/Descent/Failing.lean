import Minimization.Proofs.Descent.Evaluations
import Minimization.Proofs.Descent.Layout
import Minimization.Proofs.Outcome

/-!
# Descents that fail

A descent can fail at any of its evaluations, and it leaves what it has done until then. Its report is
changed at three places: an iteration reports its step size when everything else in it has succeeded, the
number of iterations is reported once the loop has ended, and the loss after it was evaluated at the end.
So a failed descent still reports the loss of the run before it, and the step size of its last completed
iteration (`Aborted`); the number of iterations is new only if it was the last loss that failed.

Of the world a descent changes nothing itself: it keeps what its functions keep.

Both kinds of descent fail alike, as far as that goes. `FailsIn` says that a loop fails only in an iteration,
behind others that were made; it passes from what follows an iteration to the loop that makes it
(`FailsIn.bind`), and a run with such a loop is aborted (`aborted_of_loop`). What is left for a kind of
descent is that its iterations report last.
-/

namespace Minimization

variable {m : Type → Type} [Monad m] {ω : Type} [Stateful m ω] {α β : Type}

/-! ## What a descent keeps -/

section Keeps

variable {R : ω → ω → Prop} [Std.Refl R] [Trans R R R] {before : Evaluation m Unit} {loss : Rule m α}
  {gradient : Field m α} {u v : ω} (hb : Keeps R before) (hl : ∀ x, Keeps R (loss x))
  (hg : ∀ x, Keeps R (gradient x))

include hl hg in
/-- Evaluations keep what each of them keeps. -/
theorem Evaluated.keeps {qs : List Query} (h : Evaluated loss gradient qs u v) : R u v := by
  induction h with
  | none => exact Std.Refl.refl _
  | loss _ ih => exact Trans.trans (hl _ _) ih
  | gradient _ ih => exact Trans.trans (hg _ _) ih

include hb hl hg

theorem Iterates.keeps (h : Iterates before loss gradient u v) : R u v := by
  obtain ⟨w, n, hprepared, hevaluated⟩ := h
  have hw := hb u
  rw [hprepared] at hw
  exact Trans.trans hw (hevaluated.keeps hl hg)

/-- An iteration that breaks off keeps it as well, wherever it does. -/
theorem Breaks.keeps {e : Failure} (h : Breaks before loss gradient u e v) : R u v := by
  have hw := hb u
  cases h with
  | unprepared hprepared =>
    rw [hprepared] at hw
    exact hw
  | early hprepared hevaluated | late hprepared hevaluated =>
    rw [hprepared] at hw
    exact Trans.trans hw (hevaluated.keeps hl hg)

theorem Iterations.keeps {n : Nat} (h : Iterations before loss gradient n u v) : R u v := by
  induction h with
  | none => exact Std.Refl.refl _
  | cons hiterates _ ih => exact Trans.trans (hiterates.keeps hb hl hg) ih

/-- A run keeps what its functions keep. -/
theorem Descends.keeps {o : Except Failure β} {report : Report α}
    (h : Descends before loss gradient u o report v) : R u v := by
  cases h with
  | ended _ hiterations hevaluated _ =>
    exact Trans.trans (hiterations.keeps hb hl hg) (hevaluated.keeps hl hg)
  | broken hiterations hbreaks =>
    exact Trans.trans (hiterations.keeps hb hl hg) (hbreaks.keeps hb hl hg)

end Keeps

/-- So does a computation that does to a world what a run does. -/
theorem keeps_of_descends {R : ω → ω → Prop} [Std.Refl R] [Trans R R R] {before : Evaluation m Unit}
    {loss : Rule m α} {gradient : Field m α} {c : Descent m α β}
    (h : ∀ w, let o := attempt c w; Descends before loss gradient w.2 o.1 o.2.1.report o.2.2)
    (hb : Keeps R before) (hl : ∀ x, Keeps R (loss x)) (hg : ∀ x, Keeps R (gradient x)) :
    Keeps (Beside R) c :=
  fun w => Descends.keeps (R := R) hb hl hg (h w)

/-! ## Reports -/

/-- The report is the same. -/
def SameReport (w w' : Run α × ω) : Prop := w'.1.report = w.1.report

instance : Std.Refl (SameReport (α := α) (ω := ω)) where
  refl _ := rfl

instance : Trans (SameReport (α := α) (ω := ω)) SameReport SameReport where
  trans h h' := Eq.trans h' h

theorem keeps_report_evaluate (e : Evaluation m β) :
    Keeps SameReport (Descent.evaluate e : Descent m α β) := by
  intro w
  rw [attempt_evaluate]
  rfl

/-- The computation changes the report only if it succeeds. -/
def ReportsLast (c : Descent m α β) : Prop := ∀ w, Leaves c w (fun _ _ => True) (SameReport w)

/-- The report is the last thing that an iteration changes, if it is the last thing that it changes after
its evaluations of the loss and of the gradient. -/
theorem reportsLast_of_rest {before : Evaluation m Unit} {loss : Rule m α} {gradient : Field m α}
    {x : Tensor α} {rest : α → Tensor α → Descent m α β} (hrest : ∀ l g, ReportsLast (rest l g)) :
    ReportsLast (do
      Descent.evaluate before
      let l ← Descent.evaluate (loss.number x)
      let g ← Descent.evaluate (gradient x)
      rest l g : Descent m α β) := by
  refine fun w => .bind_keeps rfl (keeps_report_evaluate _) fun _ _ h => ?_
  refine .bind_keeps h (keeps_report_evaluate _) fun l _ h => ?_
  refine .bind_keeps h (keeps_report_evaluate _) fun g w' h => ?_
  exact (hrest l g w').mono (fun _ _ _ => trivial) fun _ h' => Trans.trans h h'

/-! ## Loops -/

section Loops

variable [Scalar α] {σ γ : Type}

/-- Started at this state and point, the computation fails only in an iteration, after others that have
been made. -/
def FailsIn (made : σ → Entry α ω → σ → Prop) (next : Standing σ α ω → Descent m α β) (a : σ)
    (x : Tensor α) (c : Descent m α γ) : Prop :=
  ∀ w e w', attempt c w = (.error e, w') →
    ∃ es q, Leads made ⟨a, x, w.1, w.2⟩ es q ∧ attempt (next q) (q.run, q.world) = (.error e, w')

/-- A loop makes an iteration, and after that it is over, or it goes on from where that has led to. -/
theorem FailsIn.bind {made : σ → Entry α ω → σ → Prop} {next : Standing σ α ω → Descent m α β} {a : σ}
    {x : Tensor α} {c : Descent m α β} {f : β → Descent m α γ} (hc : ∀ r u, next ⟨a, x, r, u⟩ = c)
    (hf : ∀ b w w', attempt c w = (.ok b, w') → (∃ d, f b = pure d) ∨
      ∃ a' y, ∃ entry : Entry α ω, entry.LeadsTo made ⟨a, x, w.1, w.2⟩ ⟨a', y, w'.1, w'.2⟩ ∧
        FailsIn made next a' y (f b)) :
    FailsIn made next a x (c >>= f) := by
  intro w e w' h
  rcases attempt_bind_eq_error.mp h with h | ⟨b, w₁, hb, h⟩
  · exact ⟨[], _, .none, by rw [hc]; exact h⟩
  rcases hf b w w₁ hb with ⟨d, hd⟩ | ⟨a', y, entry, hentry, hloop⟩
  · rw [hd, attempt_pure] at h
    cases h
  · obtain ⟨es, q, hes, hq⟩ := hloop w₁ e w' h
    exact ⟨entry :: es, q, .cons hentry hes, hq⟩

/-- How a descent that started from `p` has failed after some iterations, which made the entries `es`:
in the next iteration, or at the loss behind the last one. -/
structure Aborted (made : σ → Entry α ω → σ → Prop)
    (next : Standing σ α ω → Descent m α β) (loss : Rule m α) (p : Standing σ α ω)
    (es : List (Entry α ω)) (e : Failure) (w : Run α × ω) : Prop where
  loss_eq : w.1.report.loss = p.run.report.loss
  stepSize_eq : w.1.report.stepSize = (es.map Entry.reported).getLastD p.run.report.stepSize
  failed : ∃ q, Leads made p es q ∧
    (attempt (next q) (q.run, q.world) = (.error e, w) ∧
        w.1.report.iterations = p.run.report.iterations ∨
      es ≠ [] ∧ attempt (loss.number q.point) q.world = (.error e, w.2) ∧
        w.1.report.iterations = es.length)

variable {made : σ → Entry α ω → σ → Prop} {next : Standing σ α ω → Descent m α β} {loss : Rule m α}
  {p q : Standing σ α ω} {es : List (Entry α ω)} {e : Failure} {w : Run α × ω}

/-- An iteration that fails leaves the report of the one before it. -/
theorem Aborted.of_next (hes : Leads made p es q) (h : attempt (next q) (q.run, q.world) = (.error e, w))
    (hreport : w.1.report = q.run.report) : Aborted made next loss p es e w where
  loss_eq := by
    rw [hreport, hes.run_eq]
    rfl
  stepSize_eq := by
    rw [hreport, hes.run_eq]
    rfl
  failed := by
    refine ⟨q, hes, .inl ⟨h, ?_⟩⟩
    rw [hreport, hes.run_eq]
    rfl

/-- A descent whose first iteration succeeds is aborted later than in that. -/
theorem Aborted.ne_nil {b : β} {v : Run α × ω} (h : Aborted made next loss p es e w)
    (hfirst : attempt (next p) (p.run, p.world) = (.ok b, v)) : es ≠ [] := by
  rintro rfl
  obtain ⟨q, hes, ⟨herror, -⟩ | ⟨hne, -⟩⟩ := h.failed
  · cases hes
    cases hfirst.symm.trans herror
  · exact hne rfl

/-- The last loss fails when the number of iterations has been reported. -/
theorem Aborted.of_loss (hes : Leads made p es q) (hne : es ≠ [])
    (h : attempt (loss.number q.point) q.world = (.error e, w.2))
    (hrun : w.1 = q.run.reporting fun r => { r with iterations := es.length }) :
    Aborted made next loss p es e w where
  loss_eq := by
    rw [hrun, hes.run_eq]
    rfl
  stepSize_eq := by
    rw [hrun, hes.run_eq]
    rfl
  failed := by
    refine ⟨q, hes, .inr ⟨hne, h, ?_⟩⟩
    rw [hrun]
    rfl

/-- A run that fails is aborted in its loop or at the loss behind it, because what comes after that only
reports, records and tells. -/
theorem aborted_of_loop {δ : Type} {a : σ} {x : Tensor α} {loop : Descent m α γ} (count : γ → Nat)
    (point : γ → Tensor α) {rest : γ → α → Descent m α δ} (hfails : FailsIn made next a x loop)
    (hreports : ∀ q, ReportsLast (next q))
    (hends : ∀ c w w', attempt loop w = (.ok c, w') → ∃ es a', es ≠ [] ∧
      Leads made ⟨a, x, w.1, w.2⟩ es ⟨a', point c, w'.1, w'.2⟩ ∧ count c = es.length)
    (hrest : ∀ c l, Succeeds (Beneath fun _ => True) (rest c l) fun _ => True) {w' : Run α × ω}
    (h : attempt (do
      let c ← loop
      Descent.reporting fun r => { r with iterations := count c }
      let l ← Descent.evaluate (loss.number (point c))
      rest c l : Descent m α δ) w = (.error e, w')) :
    ∃ es, Aborted made next loss ⟨a, x, w.1, w.2⟩ es e w' := by
  rcases attempt_bind_eq_error.mp h with h | ⟨c, w₁, hloop, h⟩
  · obtain ⟨es, q, hes, hq⟩ := hfails w e w' h
    exact ⟨es, .of_next hes hq ((hreports q _).error hq)⟩
  obtain ⟨es, a', hne, hes, hcount⟩ := hends c w w₁ hloop
  -- The loop has ended, so the run fails at the loss at its end: nothing behind that can fail.
  rw [attempt_bind_of_ok (attempt_reporting _ w₁)] at h
  rcases attempt_bind_eq_error.mp h with h | ⟨l, w₂, -, h⟩
  · rw [attempt_evaluate] at h
    obtain ⟨herror, rfl⟩ := Prod.mk.inj h
    rw [hcount] at herror ⊢
    exact ⟨es, .of_loss hes hne (Prod.ext herror rfl) rfl⟩
  · obtain ⟨d, w₃, hd, -⟩ := (hrest c l).exists_ok (w := w₂) trivial
    rw [hd] at h
    cases h

end Loops

/-! ## Gradient descent -/

namespace GradientDescent

variable [Scalar α]

/-- An iteration of a gradient descent reports its step size when nothing can fail any more. -/
theorem iteration_reportsLast (s : Setup m α) (x : Tensor α) (a : α) : ReportsLast (iteration s x a) := by
  refine reportsLast_of_rest fun l g w => ?_
  refine .bind_keeps rfl (.lift _) fun _ _ h => .bind_keeps h (.lift _) fun d _ h => ?_
  refine .bind_keeps h (.record fun _ => rfl) fun _ _ h => .bind_keeps h (.lift _) fun slope _ h => ?_
  refine .bind_keeps h (keeps_search (fun _ => keeps_report_evaluate _) (fun _ _ => rfl) x d _ _ _ _)
    fun trial _ h => .bind_keeps h (.lift _) fun y _ h => ?_
  exact .bind_of_ok (attempt_reporting _ _) (.pure trivial)

/-- The loop fails in one of its iterations, by induction on those that may follow. -/
theorem iterate_failsIn (s : Setup m α) (left : Nat) : ∀ (x : Tensor α) (a : α) (i j : Nat),
    FailsIn (Makes s) (fun q : Standing α α ω => iteration s q.point q.state) a x
      (iterate s left x a i j) := by
  induction left with
  | zero =>
    intro x a i j
    unfold iterate
    exact .bind (fun _ _ => rfl) fun _ _ _ _ => .inl ⟨_, rfl⟩
  | succ left ih =>
    intro x a i j
    unfold iterate
    refine .bind (fun _ _ => rfl) ?_
    rintro ⟨t, y⟩ w w' hi
    obtain ⟨entry, -, hentry⟩ := leadsTo_of_iteration_ok hi
    dsimp only
    split
    · exact .inl ⟨_, rfl⟩
    · exact .inr ⟨_, y, entry, hentry, ih _ _ _ _⟩

/-- A gradient descent that fails is aborted in its loop or at the loss behind it. -/
theorem aborted_of_run_error {s : Setup m α} {guess : Tensor α} {e : Failure} {w w' : Run α × ω}
    (h : attempt (run s guess) w = (.error e, w')) :
    ∃ es, Aborted (Makes s) (fun q => iteration s q.point q.state) s.loss
      ⟨s.settings.initialStep, guess.convert s.precision, w.1, w.2⟩ es e w' := by
  refine aborted_of_loop Ending.steps Ending.point (iterate_failsIn s _ _ _ 0 0)
    (fun q => iteration_reportsLast s _ _) (fun ending w w' hi => ?_) (fun ending l => ?_) h
  · obtain ⟨es, a, hhalts, hes, hsteps⟩ := leads_of_iterate_ok hi
    exact ⟨es, a, hhalts.ne_nil, hes, hsteps.trans (Nat.zero_add _)⟩
  · have hend : Succeeds (Beneath fun _ => True) (do
        Descent.notify (.descentEnded s.name ending.reason ending.steps l)
        return ending.point : Descent m α (Tensor α)) fun _ => True :=
      .bind (.notify _) fun _ _ => .pure trivial
    refine .bind (.reporting _) fun _ _ => .bind (.record _) fun _ _ => ?_
    split
    · exact .bind (.notify _) fun _ _ => hend
    · exact hend

end GradientDescent

/-! ## Moment descent -/

namespace Adam

variable [Scalar α]

/-- So does an iteration of a moment descent. -/
theorem iteration_reportsLast (s : Setup m α) (t : Nat) (x : Tensor α) (ms : Moments α) :
    ReportsLast (iteration s t x ms) := by
  refine reportsLast_of_rest fun l g w => ?_
  refine .bind_keeps rfl (.lift _) fun _ _ h => .bind_keeps h (.lift _) fun after _ h => ?_
  refine .bind_keeps h (.lift _) fun size _ h => .bind_keeps h (.lift _) fun step _ h => ?_
  refine .bind_keeps h (.record fun _ => rfl) fun _ _ h => .bind_keeps h (.lift _) fun y _ h => ?_
  exact .bind_of_ok (attempt_reporting _ _) (.pure trivial)

/-- So does that of a moment descent. -/
theorem iterate_failsIn (s : Setup m α) (left : Nat) : ∀ (t : Nat) (x : Tensor α) (ms : Moments α),
    FailsIn (Makes s) (fun q : Standing (Nat × Moments α) α ω => iteration s q.state.1 q.point q.state.2)
      (t, ms) x (iterate s left t x ms) := by
  induction left with
  | zero =>
    intro t x ms
    unfold iterate
    exact .bind (fun _ _ => rfl) fun _ _ _ _ => .inl ⟨_, rfl⟩
  | succ left ih =>
    intro t x ms
    unfold iterate
    refine .bind (fun _ _ => rfl) ?_
    rintro ⟨ms', length, y⟩ w w' hi
    obtain ⟨entry, -, hentry⟩ := leadsTo_of_iteration_ok hi
    dsimp only
    split
    · exact .inl ⟨_, rfl⟩
    · exact .inr ⟨_, y, entry, hentry, ih _ _ _⟩

/-- So is a moment descent. -/
theorem aborted_of_run_error {s : Setup m α} {guess : Tensor α} {e : Failure} {w w' : Run α × ω}
    (h : attempt (run s guess) w = (.error e, w')) :
    ∃ es, Aborted (Makes s) (fun q => iteration s q.state.1 q.point q.state.2) s.loss
      ⟨(1, .start (guess.convert s.precision)), guess.convert s.precision, w.1, w.2⟩ es e w' := by
  refine aborted_of_loop Prod.fst Prod.snd (iterate_failsIn s _ 1 _ _)
    (fun q => iteration_reportsLast s _ _ _) (fun c w w' hi => ?_) (fun _ l => ?_) h
  · obtain ⟨es, state, hhalts, hes, hsteps⟩ := leads_of_iterate_ok hi
    exact ⟨es, state, hhalts.ne_nil, hes, by omega⟩
  · exact .bind (.reporting _) fun _ _ => .bind (.record _) fun _ _ => .bind .report fun _ _ =>
      .bind (.notify _) fun _ _ => .pure trivial

end Adam

end Minimization
