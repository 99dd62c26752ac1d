import Minimization.Constrained.Snapshot
import Minimization.Descent.Run
import Minimization.Proofs.Perform

/-!
# Runs in a world

The functions that a solver evaluates may leave traces: they count, draw batches, or read what a solver
publishes. A monad of such computations is `Stateful` if each of them is a function of a world: it
answers something and leaves another world. `attempt` starts a computation that can fail in a world, and
gives its outcome with the world that it leaves, whether it succeeds or not.

For descents and constrained runs the world is their own state, a `Run` or a `Course`, with the world
of the evaluations beside it. Only evaluations touch the latter: `Keeps R` says that a computation
leaves a world that is related by `R` to the one that it starts in, and what keeps a relation that is
reflexive and transitive does so part by part. `Refines π` compares two computations: the first one does
in its world what the second one does in a projection of it.
-/

namespace Minimization

/-- Computations that are functions of a world. -/
class Stateful (m : Type → Type) [Monad m] (ω : outParam Type) where
  /-- The answer of a computation, and the world that it leaves. -/
  run {β : Type} : m β → ω → β × ω
  run_pure {β : Type} (b : β) (w : ω) : run (pure b) w = (b, w)
  run_bind {β γ : Type} (c : m β) (f : β → m γ) (w : ω) :
    run (c >>= f) w = run (f (run c w).1) (run c w).2

/-- Computations that leave no traces have one world. -/
instance : Stateful Id Unit where
  run b w := (b, w)
  run_pure _ _ := rfl
  run_bind _ _ _ := rfl

/-- A state of a computation is part of its world. -/
instance {m : Type → Type} [Monad m] {σ ω : Type} [Stateful m ω] : Stateful (StateT σ m) (σ × ω) where
  run c w := ((Stateful.run (c.run w.1) w.2).1.1, (Stateful.run (c.run w.1) w.2).1.2,
    (Stateful.run (c.run w.1) w.2).2)
  run_pure b w := by
    rw [StateT.run_pure, Stateful.run_pure]
  run_bind c f w := by
    rw [StateT.run_bind, Stateful.run_bind]

variable {m : Type → Type} [Monad m] {ω β γ : Type} [Stateful m ω]

/-- The outcome of a computation that can fail, and the world that it leaves. -/
def attempt (c : ExceptT Failure m β) (w : ω) : Except Failure β × ω := Stateful.run c.run w

@[simp] theorem attempt_pure (b : β) (w : ω) :
    attempt (pure b : ExceptT Failure m β) w = (.ok b, w) :=
  Stateful.run_pure _ _

@[simp] theorem attempt_throw (e : Failure) (w : ω) :
    attempt (throw e : ExceptT Failure m β) w = (.error e, w) :=
  Stateful.run_pure _ _

@[simp] theorem attempt_lift (x : Except Failure β) (w : ω) :
    attempt (liftM x : ExceptT Failure m β) w = (x, w) :=
  Stateful.run_pure _ _

theorem attempt_bind (c : ExceptT Failure m β) (f : β → ExceptT Failure m γ) (w : ω) :
    attempt (c >>= f) w =
      match attempt c w with
      | (.ok b, w₁) => attempt (f b) w₁
      | (.error e, w₁) => (.error e, w₁) := by
  show Stateful.run (c.run >>= ExceptT.bindCont f) w = _
  rw [Stateful.run_bind]
  show Stateful.run (ExceptT.bindCont f (attempt c w).1) (attempt c w).2 = _
  rcases attempt c w with ⟨e | b, w₁⟩
  · exact Stateful.run_pure _ _
  · rfl

/-- A computation whose first part succeeds goes on with the rest of it. -/
theorem attempt_bind_of_ok {c : ExceptT Failure m β} {w w₁ : ω} {b : β}
    (h : attempt c w = (.ok b, w₁)) (f : β → ExceptT Failure m γ) :
    attempt (c >>= f) w = attempt (f b) w₁ := by
  rw [attempt_bind, h]

/-- A computation whose first part fails ends there. -/
theorem attempt_bind_of_error {c : ExceptT Failure m β} {w w₁ : ω} {e : Failure}
    (h : attempt c w = (.error e, w₁)) (f : β → ExceptT Failure m γ) :
    attempt (c >>= f) w = (.error e, w₁) := by
  rw [attempt_bind, h]

/-- A computation succeeds if its first part does and the rest of it does from there. -/
theorem attempt_bind_eq_ok {c : ExceptT Failure m β} {f : β → ExceptT Failure m γ} {w w' : ω}
    {d : γ} :
    attempt (c >>= f) w = (.ok d, w') ↔
      ∃ b w₁, attempt c w = (.ok b, w₁) ∧ attempt (f b) w₁ = (.ok d, w') := by
  constructor
  · intro h
    rcases hc : attempt c w with ⟨e | b, w₁⟩
    · rw [attempt_bind_of_error hc] at h
      cases h
    · rw [attempt_bind_of_ok hc] at h
      exact ⟨b, w₁, rfl, h⟩
  · rintro ⟨b, w₁, hc, hf⟩
    rw [attempt_bind_of_ok hc, hf]

/-- A computation fails if its first part does, or if the rest of it does after that. -/
theorem attempt_bind_eq_error {c : ExceptT Failure m β} {f : β → ExceptT Failure m γ} {w w' : ω}
    {e : Failure} :
    attempt (c >>= f) w = (.error e, w') ↔ attempt c w = (.error e, w') ∨
      ∃ b w₁, attempt c w = (.ok b, w₁) ∧ attempt (f b) w₁ = (.error e, w') := by
  constructor
  · intro h
    rcases hc : attempt c w with ⟨e' | b, w₁⟩
    · rw [attempt_bind_of_error hc] at h
      cases h
      exact .inl rfl
    · rw [attempt_bind_of_ok hc] at h
      exact .inr ⟨b, w₁, rfl, h⟩
  · rintro (hc | ⟨b, w₁, hc, hf⟩)
    · exact attempt_bind_of_error hc f
    · rw [attempt_bind_of_ok hc, hf]

/-- A computation whose answer is discarded. -/
theorem attempt_discard (c : ExceptT Failure m β) (w : ω) :
    attempt (discard c) w = ((attempt c w).1.map fun _ => (), (attempt c w).2) := by
  show Stateful.run (c.run >>= _) w = _
  rw [Stateful.run_bind]
  rcases hc : attempt c w with ⟨e | b, w₁⟩
  all_goals
    rw [show Stateful.run c.run w = _ from hc]
    exact Stateful.run_pure _ _

theorem attempt_pure_eq_ok {b c : β} {w w' : ω} :
    attempt (pure b : ExceptT Failure m β) w = (.ok c, w') ↔ b = c ∧ w = w' := by
  rw [attempt_pure, Prod.mk.injEq, Except.ok.injEq]

theorem attempt_lift_eq_ok {x : Except Failure β} {b : β} {w w' : ω} :
    attempt (liftM x : ExceptT Failure m β) w = (.ok b, w') ↔ x = .ok b ∧ w = w' := by
  rw [attempt_lift, Prod.mk.injEq]

/-- What is known step by step is used step by step. -/
theorem attempt_lift_bind (x : Except Failure β) (f : β → Except Failure γ) (w : ω) :
    attempt (liftM (x >>= f) : ExceptT Failure m γ) w
      = attempt (liftM x >>= fun b => liftM (f b) : ExceptT Failure m γ) w := by
  rw [attempt_bind, attempt_lift, attempt_lift]
  rcases x with e | b
  · rfl
  · exact (attempt_lift (f b) w).symm

/-- A computation that fails goes on with what handles the failure. -/
theorem attempt_tryCatch (c : ExceptT Failure m β) (handle : Failure → ExceptT Failure m β) (w : ω) :
    attempt (tryCatch c handle) w =
      match attempt c w with
      | (.ok b, v) => (.ok b, v)
      | (.error e, v) => attempt (handle e) v := by
  show Stateful.run (c.run >>= _) w = _
  rw [Stateful.run_bind]
  rcases hc : attempt c w with ⟨e | b, v⟩
  all_goals rw [show Stateful.run c.run w = _ from hc]
  · rfl
  · exact Stateful.run_pure _ _

/-- A computation that only changes a state leaves no other traces. -/
theorem attempt_of_perform {σ : Type} {d : ExceptT Failure (StateT σ Id) β} {s s' : σ}
    {o : Except Failure β} (h : perform d s = (o, s')) : attempt d (s, ()) = (o, s', ()) :=
  congrArg (fun r => (r.1, r.2, ())) h

theorem perform_of_attempt {σ : Type} {d : ExceptT Failure (StateT σ Id) β} {s s' : σ}
    {o : Except Failure β} (h : attempt d (s, ()) = (o, s', ())) : perform d s = (o, s') :=
  congrArg (fun r => (r.1, r.2.1)) h

/-! ## What a computation keeps -/

/-- The computation leaves a world that is related to the one that it starts in. -/
def Keeps (R : ω → ω → Prop) (c : ExceptT Failure m β) : Prop := ∀ w, R w (attempt c w).2

section Keeps

variable {R : ω → ω → Prop} {c : ExceptT Failure m β} {f : β → ExceptT Failure m γ}

theorem Keeps.pure [Std.Refl R] (b : β) : Keeps R (pure b : ExceptT Failure m β) := by
  intro w
  rw [attempt_pure]
  exact Std.Refl.refl w

theorem Keeps.lift [Std.Refl R] (x : Except Failure β) :
    Keeps R (liftM x : ExceptT Failure m β) := by
  intro w
  rw [attempt_lift]
  exact Std.Refl.refl w

/-- The rest of a computation, if it is run at all, keeps what it keeps from where the first part
ends. -/
theorem Keeps.rest [Std.Refl R] (hf : ∀ b, Keeps R (f b)) (w : ω) :
    R (attempt c w).2 (attempt (c >>= f) w).2 := by
  rw [attempt_bind]
  rcases attempt c w with ⟨e | b, w₁⟩
  · exact Std.Refl.refl w₁
  · exact hf b w₁

theorem Keeps.bind [Std.Refl R] [Trans R R R] (hc : Keeps R c) (hf : ∀ b, Keeps R (f b)) :
    Keeps R (c >>= f) :=
  fun w => Trans.trans (hc w) (Keeps.rest hf w)

/-- What goes on after a result that is known only goes on if it is a success. -/
theorem Keeps.bind_lift [Std.Refl R] {x : Except Failure β} (hf : ∀ b, x = .ok b → Keeps R (f b)) :
    Keeps R ((liftM x : ExceptT Failure m β) >>= f) := by
  intro w
  rw [attempt_bind, attempt_lift]
  rcases x with e | b
  · exact Std.Refl.refl w
  · exact hf b rfl w

theorem Keeps.mapM [Std.Refl R] [Trans R R R] {δ : Type} {f : δ → ExceptT Failure m β} {xs : List δ}
    (h : ∀ x ∈ xs, Keeps R (f x)) : Keeps R (xs.mapM f) := by
  -- The answers are collected behind those that are there already.
  have hloop : ∀ (xs : List δ) (bs : List β), (∀ x ∈ xs, Keeps R (f x)) →
      Keeps R (List.mapM.loop f xs bs) := by
    intro xs
    induction xs with
    | nil => exact fun _ _ => .pure _
    | cons x xs ih =>
      exact fun bs h => .bind (h x (List.mem_cons_self ..)) fun _ =>
        ih _ fun y hy => h y (List.mem_cons_of_mem x hy)
  exact hloop xs [] h

theorem Keeps.rounds [Std.Refl R] [Trans R R R] {σ : Type}
    {round : Nat → σ → ExceptT Failure m (σ × Bool)} (h : ∀ number st, Keeps R (round number st))
    (left : Nat) : ∀ (made : Nat) (st : σ), Keeps R (Constrained.rounds round left made st) := by
  induction left with
  | zero => exact fun _ _ => .pure _
  | succ left ih =>
    intro made st
    refine .bind (h _ st) fun ⟨next, done⟩ => ?_
    cases done with
    | true => exact .pure _
    | false => exact ih _ next

end Keeps

/-- Two worlds with a state are related if they are without it. -/
def Beside {σ : Type} (R : ω → ω → Prop) (w w' : σ × ω) : Prop := R w.2 w'.2

instance {σ : Type} {R : ω → ω → Prop} [Std.Refl R] : Std.Refl (Beside (σ := σ) R) where
  refl w := Std.Refl.refl w.2

instance {σ : Type} {R : ω → ω → Prop} [Trans R R R] :
    Trans (Beside (σ := σ) R) (Beside R) (Beside R) where
  trans h h' := Trans.trans (s := R) h h'

/-! ## Computations in a larger world -/

/-- A computation does what another one does, in a projection of its world. -/
def Refines {m' : Type → Type} [Monad m'] {ω' : Type} [Stateful m' ω'] (π : ω' → ω)
    (c' : ExceptT Failure m' β) (c : ExceptT Failure m β) : Prop :=
  ∀ w, Prod.map id π (attempt c' w) = attempt c (π w)

section Refines

variable {m' : Type → Type} [Monad m'] {ω' : Type} [Stateful m' ω'] {π : ω' → ω}

theorem Refines.refl (c : ExceptT Failure m β) : Refines id c c := fun _ => rfl

theorem Refines.pure (b : β) :
    Refines π (pure b : ExceptT Failure m' β) (pure b : ExceptT Failure m β) := by
  intro w
  rw [attempt_pure, attempt_pure]
  rfl

theorem Refines.lift (x : Except Failure β) :
    Refines π (liftM x : ExceptT Failure m' β) (liftM x : ExceptT Failure m β) := by
  intro w
  rw [attempt_lift, attempt_lift]
  rfl

theorem Refines.bind {c' : ExceptT Failure m' β} {c : ExceptT Failure m β}
    {f' : β → ExceptT Failure m' γ} {f : β → ExceptT Failure m γ} (hc : Refines π c' c)
    (hf : ∀ b, Refines π (f' b) (f b)) : Refines π (c' >>= f') (c >>= f) := by
  intro w
  rw [attempt_bind, attempt_bind, ← hc w]
  rcases attempt c' w with ⟨e | b, w₁⟩
  · rfl
  · exact hf b w₁

/-- What goes on after a result that is known only goes on if it is a success. -/
theorem Refines.bind_lift {x : Except Failure β} {f' : β → ExceptT Failure m' γ}
    {f : β → ExceptT Failure m γ} (hf : ∀ b, x = .ok b → Refines π (f' b) (f b)) :
    Refines π (liftM x >>= f') (liftM x >>= f) := by
  intro w
  rw [attempt_bind, attempt_bind, attempt_lift, attempt_lift]
  rcases x with e | b
  · rfl
  · exact hf b rfl w

/-- Rounds do, if every round does. -/
theorem Refines.rounds {σ : Type} {round' : Nat → σ → ExceptT Failure m' (σ × Bool)}
    {round : Nat → σ → ExceptT Failure m (σ × Bool)}
    (h : ∀ number st, Refines π (round' number st) (round number st)) (left : Nat) :
    ∀ (made : Nat) (st : σ),
      Refines π (Constrained.rounds round' left made st) (Constrained.rounds round left made st) := by
  induction left with
  | zero => exact fun _ _ => .pure _
  | succ left ih =>
    intro made st
    refine .bind (h _ st) fun ⟨next, done⟩ => ?_
    cases done with
    | true => exact .pure _
    | false => exact ih _ next

end Refines

/-! ## States -/

section State

variable {σ : Type}

/-- A computation beside a state is attempted without it. -/
theorem attempt_of_run {c : ExceptT Failure (StateT σ m) β} {w : σ × ω} {s' : σ} {u' : ω}
    {o : Except Failure β} (h : Stateful.run (c.run.run w.1) w.2 = ((o, s'), u')) :
    attempt c w = (o, s', u') :=
  congrArg (fun r => (r.1.1, r.1.2, r.2)) h

/-- A computation that knows nothing of a state leaves it as it is. -/
theorem attempt_beside (e : ExceptT Failure m β) (w : σ × ω) :
    attempt (ExceptT.mk (StateT.lift e.run)) w = ((attempt e w.2).1, w.1, (attempt e w.2).2) := by
  refine attempt_of_run (show Stateful.run (e.run >>= fun a => pure (a, w.1)) w.2 = _ from ?_)
  rw [Stateful.run_bind, Stateful.run_pure]
  rfl

theorem attempt_beside_eq_ok {e : ExceptT Failure m β} {w w' : σ × ω} {b : β} :
    attempt (ExceptT.mk (StateT.lift e.run)) w = (.ok b, w') ↔
      attempt e w.2 = (.ok b, w'.2) ∧ w.1 = w'.1 := by
  rw [attempt_beside]
  simp only [Prod.ext_iff]
  rw [and_assoc, and_comm (a := w.1 = w'.1)]

/-- So does one that cannot fail. -/
theorem attempt_lift_lift (c : m β) (w : σ × ω) :
    attempt (ExceptT.lift (StateT.lift c) : ExceptT Failure (StateT σ m) β) w
      = (.ok (Stateful.run c w.2).1, w.1, (Stateful.run c w.2).2) := by
  refine attempt_of_run ?_
  show Stateful.run ((c >>= fun b => pure (b, w.1)) >>= fun p =>
    pure ((Except.ok p.1 : Except Failure β), p.2)) w.2 = _
  rw [Stateful.run_bind, Stateful.run_bind, Stateful.run_pure, Stateful.run_pure]

theorem attempt_getThe (w : σ × ω) :
    attempt (getThe σ : ExceptT Failure (StateT σ m) σ) w = (.ok w.1, w) := by
  have h : Stateful.run ((pure (w.1, w.1) : m (σ × σ)) >>= fun p =>
      pure ((Except.ok p.1 : Except Failure σ), p.2)) w.2 = ((.ok w.1, w.1), w.2) := by
    rw [Stateful.run_bind, Stateful.run_pure, Stateful.run_pure]
  exact attempt_of_run h

theorem attempt_set (s : σ) (w : σ × ω) :
    attempt (set s : ExceptT Failure (StateT σ m) PUnit) w = (.ok ⟨⟩, s, w.2) := by
  have h : Stateful.run ((pure (PUnit.unit, s) : m (PUnit × σ)) >>= fun p =>
      pure ((Except.ok p.1 : Except Failure PUnit), p.2)) w.2 = ((.ok ⟨⟩, s), w.2) := by
    rw [Stateful.run_bind, Stateful.run_pure, Stateful.run_pure]
  exact attempt_of_run h

theorem attempt_modify (f : σ → σ) (w : σ × ω) :
    attempt (ExceptT.mk (do modify f; return .ok ()) : ExceptT Failure (StateT σ m) Unit) w
      = (.ok (), f w.1, w.2) := by
  have h : Stateful.run ((pure (PUnit.unit, f w.1) : m (PUnit × σ)) >>= fun p =>
      pure ((Except.ok () : Except Failure Unit), p.2)) w.2 = ((.ok (), f w.1), w.2) := by
    rw [Stateful.run_bind, Stateful.run_pure, Stateful.run_pure]
  exact attempt_of_run h

theorem attempt_modifyThe (f : σ → σ) (w : σ × ω) :
    attempt (modifyThe σ f : ExceptT Failure (StateT σ m) PUnit) w = (.ok ⟨⟩, f w.1, w.2) := by
  have h : Stateful.run ((pure (PUnit.unit, f w.1) : m (PUnit × σ)) >>= fun p =>
      pure ((Except.ok p.1 : Except Failure PUnit), p.2)) w.2 = ((.ok ⟨⟩, f w.1), w.2) := by
    rw [Stateful.run_bind, Stateful.run_pure, Stateful.run_pure]
  exact attempt_of_run h

end State

/-! ## Parts of a descent -/

section Descent

variable {α : Type} {w w' : Run α × ω}

@[simp] theorem attempt_evaluate (e : Evaluation m β) (w : Run α × ω) :
    attempt (Descent.evaluate e) w = ((attempt e w.2).1, w.1, (attempt e w.2).2) :=
  attempt_beside e w

theorem attempt_evaluate_eq_ok {e : Evaluation m β} {b : β} :
    attempt (Descent.evaluate e) w = (.ok b, w') ↔ attempt e w.2 = (.ok b, w'.2) ∧ w.1 = w'.1 :=
  attempt_beside_eq_ok

@[simp] theorem attempt_record (f : History α → History α) (w : Run α × ω) :
    attempt (Descent.record (m := m) f) w = (.ok (), w.1.record f, w.2) :=
  attempt_modify _ w

theorem attempt_record_eq_ok {f : History α → History α} {u : Unit} :
    attempt (Descent.record (m := m) f) w = (.ok u, w') ↔ (w.1.record f, w.2) = w' := by
  rw [attempt_record, Prod.mk.injEq, and_iff_right rfl]

@[simp] theorem attempt_reporting (f : Report α → Report α) (w : Run α × ω) :
    attempt (Descent.reporting (m := m) f) w = (.ok (), w.1.reporting f, w.2) :=
  attempt_modify _ w

theorem attempt_reporting_eq_ok {f : Report α → Report α} {u : Unit} :
    attempt (Descent.reporting (m := m) f) w = (.ok u, w') ↔ (w.1.reporting f, w.2) = w' := by
  rw [attempt_reporting, Prod.mk.injEq, and_iff_right rfl]

@[simp] theorem attempt_notify (n : Notice α) (w : Run α × ω) :
    attempt (Descent.notify (m := m) n) w = (.ok (), w.1.notify n, w.2) :=
  attempt_modify _ w

/-- A descent can look at its report. -/
theorem attempt_report (w : Run α × ω) :
    attempt (ExceptT.mk (do return .ok (← get).report) : Descent m α (Report α)) w
      = (.ok w.1.report, w) := by
  have h : Stateful.run ((pure (w.1, w.1) : m (Run α × Run α)) >>= fun p =>
      pure ((Except.ok p.1.report : Except Failure (Report α)), p.2)) w.2
        = ((.ok w.1.report, w.1), w.2) := by
    rw [Stateful.run_bind, Stateful.run_pure, Stateful.run_pure]
  exact attempt_of_run h

/-- Parts of a descent that only change its run keep what such a change keeps. -/
theorem Keeps.record {R : Run α × ω → Run α × ω → Prop} {f : History α → History α}
    (h : ∀ w, R w (w.1.record f, w.2)) : Keeps R (Descent.record (m := m) f) := by
  intro w
  rw [attempt_record]
  exact h w

theorem Keeps.reporting {R : Run α × ω → Run α × ω → Prop} {f : Report α → Report α}
    (h : ∀ w, R w (w.1.reporting f, w.2)) : Keeps R (Descent.reporting (m := m) f) := by
  intro w
  rw [attempt_reporting]
  exact h w

theorem Keeps.notify {R : Run α × ω → Run α × ω → Prop} {n : Notice α}
    (h : ∀ w, R w (w.1.notify n, w.2)) : Keeps R (Descent.notify (m := m) n) := by
  intro w
  rw [attempt_notify]
  exact h w

theorem Keeps.report {R : Run α × ω → Run α × ω → Prop} [Std.Refl R] :
    Keeps R (ExceptT.mk (do return .ok (← get).report) : Descent m α (Report α)) := by
  intro w
  rw [attempt_report]
  exact Std.Refl.refl w

end Descent

/-! ## Parts of a constrained run -/

section Constrained

variable {α : Type} {w w' : Course α × ω}

theorem attempt_constrained_evaluate (e : Evaluation m β) (w : Course α × ω) :
    attempt (Constrained.evaluate e) w = ((attempt e w.2).1, w.1, (attempt e w.2).2) :=
  attempt_beside e w

theorem attempt_constrained_evaluate_eq_ok {e : Evaluation m β} {b : β} :
    attempt (Constrained.evaluate e) w = (.ok b, w') ↔ attempt e w.2 = (.ok b, w'.2) ∧ w.1 = w'.1 :=
  attempt_beside_eq_ok

theorem attempt_constrained_notify (n : Notice α) (w : Course α × ω) :
    attempt (Constrained.notify (m := m) n) w
      = (.ok (), { w.1 with notices := w.1.notices ++ [n] }, w.2) :=
  attempt_modifyThe _ w

theorem attempt_conclude (report : ConstrainedReport α) (w : Course α × ω) :
    attempt (Constrained.conclude (m := m) report) w = (.ok (), { w.1 with report }, w.2) :=
  attempt_modifyThe _ w

/-- A course with a snapshot added, if a trace is kept. -/
def Course.addSnapshot (c : Course α) (t : Snapshot α) : Course α :=
  { c with trace := c.trace.map (· ++ [t]) }

/-- Without a trace a snapshot is not taken. -/
theorem attempt_snapshot_none {take : Evaluation m (Snapshot α)} (h : w.1.trace = none) :
    attempt (Constrained.snapshot take) w = (.ok (), w) := by
  unfold Constrained.snapshot
  rw [attempt_bind_of_ok (attempt_getThe w), h]
  exact attempt_pure _ _

/-- Where a trace is kept it is, and added if that succeeds. -/
theorem attempt_snapshot {take : Evaluation m (Snapshot α)} (h : w.1.trace.isSome) :
    attempt (Constrained.snapshot take) w =
      match attempt take w.2 with
      | (.ok t, v) => (.ok (), w.1.addSnapshot t, v)
      | (.error e, v) => (.error e, w.1, v) := by
  obtain ⟨ts, hts⟩ := Option.isSome_iff_exists.mp h
  unfold Constrained.snapshot
  rw [attempt_bind_of_ok (attempt_getThe w), hts]
  dsimp only
  rw [attempt_bind, attempt_constrained_evaluate]
  rcases attempt take w.2 with ⟨e | t, v⟩
  · rfl
  · exact attempt_modifyThe _ _

/-- A course after an inner descent that succeeded and left a run. -/
def Course.addRun (c : Course α) (r : Run α) : Course α :=
  { c with
    notices := c.notices ++ r.notices
    histories := c.histories.map fun hs => hs ++ r.history.toList }

theorem attempt_absorb_error (e : Failure) (r : Run α) (w : Course α × ω) :
    attempt (Constrained.absorb (.error e) r : Constrained m α β) w
      = (.error e, { w.1 with notices := w.1.notices ++ r.notices }, w.2) := by
  unfold Constrained.absorb
  rw [attempt_bind_of_ok (attempt_modifyThe _ w)]
  exact attempt_throw _ _

theorem attempt_absorb_ok (b : β) (r : Run α) (w : Course α × ω) :
    attempt (Constrained.absorb (.ok b) r : Constrained m α β) w = (.ok b, w.1.addRun r, w.2) := by
  unfold Constrained.absorb
  rw [attempt_bind_of_ok (attempt_modifyThe _ w)]
  dsimp only
  rw [attempt_bind_of_ok (attempt_modifyThe _ _), attempt_pure]
  rfl

/-- An inner descent leaves its notices, and its history if it succeeds. -/
theorem attempt_descend [Scalar α] (d : Descent m α β) (w : Course α × ω) :
    attempt (Constrained.descend d) w =
      match attempt d (w.1.innerRun, w.2) with
      | (.ok b, r, v) => (.ok b, w.1.addRun r, v)
      | (.error e, r, v) => (.error e, { w.1 with notices := w.1.notices ++ r.notices }, v) := by
  unfold Constrained.descend
  rw [attempt_bind_of_ok (attempt_getThe w)]
  refine (attempt_bind_of_ok (attempt_lift_lift _ w) _).trans ?_
  rw [show attempt d (w.1.innerRun, w.2) = ((Stateful.run (d.run.run w.1.innerRun) w.2).1.1,
    (Stateful.run (d.run.run w.1.innerRun) w.2).1.2, (Stateful.run (d.run.run w.1.innerRun) w.2).2)
    from rfl]
  rcases Stateful.run (d.run.run w.1.innerRun) w.2 with ⟨⟨e | b, r⟩, v⟩
  · exact attempt_absorb_error e r _
  · exact attempt_absorb_ok b r _

end Constrained

end Minimization
