import Minimization.Constrained.Snapshot

/-!
# Performing a run

Runs of descents and of constrained solvers are computations that can fail and that change a state:
a `Run`, or a `Course`. `perform` starts one in a state and gives its outcome together with the
state that it leaves. The lemmas take a run apart at its steps: `perform_bind_eq_ok` says what it
takes for a run to succeed, `perform_bind_of_ok` and `perform_bind_of_error` how one goes on and
where it stops.

Functions are evaluated without traces here, so an evaluation is settled in itself.
-/

namespace Minimization

variable {ω β γ : Type}

/-- Parts that can fail succeed together if each of them does. -/
theorem bind_eq_ok {x : Except Failure β} {f : β → Except Failure γ} {c : γ} :
    (x >>= f) = .ok c ↔ ∃ b, x = .ok b ∧ f b = .ok c := by
  rcases x with e | b
  · exact ⟨nofun, nofun⟩
  · exact ⟨fun h => ⟨b, rfl, h⟩, fun ⟨_, hb, h⟩ => Except.ok.inj hb ▸ h⟩

/-- Parts that can fail fail together with the first of them that does. -/
theorem bind_eq_error {x : Except Failure β} {f : β → Except Failure γ} {e : Failure} :
    (x >>= f) = .error e ↔ x = .error e ∨ ∃ b, x = .ok b ∧ f b = .error e := by
  rcases x with e' | b
  · exact ⟨fun h => .inl (congrArg Except.error (Except.error.inj h)), fun h =>
      h.elim (fun h => congrArg Except.error (Except.error.inj h)) nofun⟩
  · exact ⟨fun h => .inr ⟨b, rfl, h⟩, fun h =>
      h.elim nofun fun ⟨_, hb, h⟩ => Except.ok.inj hb ▸ h⟩

/-- The outcome of a computation that is started in a state, and the state that it leaves. -/
def perform (d : ExceptT Failure (StateT ω Id) β) (w : ω) : Except Failure β × ω := d.run.run w

@[simp] theorem perform_pure (b : β) (w : ω) :
    perform (pure b : ExceptT Failure (StateT ω Id) β) w = (.ok b, w) := rfl

@[simp] theorem perform_lift (x : Except Failure β) (w : ω) :
    perform (liftM x : ExceptT Failure (StateT ω Id) β) w = (x, w) := rfl

/-- A success is passed on. -/
theorem lift_ok_bind (b : β) (f : β → ExceptT Failure (StateT ω Id) γ) :
    ((liftM (.ok b : Except Failure β) : ExceptT Failure (StateT ω Id) β) >>= f) = f b := rfl

/-- A computation that changes nothing can be taken apart before it is part of one that does. -/
theorem lift_bind (x : Except Failure β) (f : β → Except Failure γ) :
    (liftM (x >>= f) : ExceptT Failure (StateT ω Id) γ) = liftM x >>= fun b => liftM (f b) := by
  rcases x with e | b <;> rfl

theorem perform_pure_eq_ok {b c : β} {w w' : ω} :
    perform (pure b : ExceptT Failure (StateT ω Id) β) w = (.ok c, w') ↔ b = c ∧ w = w' := by
  rw [perform_pure, Prod.mk.injEq, Except.ok.injEq]

theorem perform_lift_eq_ok {x : Except Failure β} {b : β} {w w' : ω} :
    perform (liftM x : ExceptT Failure (StateT ω Id) β) w = (.ok b, w') ↔ x = .ok b ∧ w = w' := by
  rw [perform_lift, Prod.mk.injEq]

theorem perform_bind (d : ExceptT Failure (StateT ω Id) β) (f : β → ExceptT Failure (StateT ω Id) γ)
    (w : ω) :
    perform (d >>= f) w =
      match perform d w with
      | (.ok b, w₁) => perform (f b) w₁
      | (.error e, w₁) => (.error e, w₁) := by
  show ((d.run >>= ExceptT.bindCont f).run w).run = _
  rw [StateT.run_bind]
  -- Only the outcome of `d` decides whether the rest of it is run at all.
  show ((ExceptT.bindCont f (perform d w).1).run (perform d w).2).run = _
  rcases perform d w with ⟨e | b, w₁⟩ <;> rfl

/-- A run whose first part succeeds goes on with the rest of it. -/
theorem perform_bind_of_ok {d : ExceptT Failure (StateT ω Id) β} {w w₁ : ω} {b : β}
    (h : perform d w = (.ok b, w₁)) (f : β → ExceptT Failure (StateT ω Id) γ) :
    perform (d >>= f) w = perform (f b) w₁ := by
  rw [perform_bind, h]

/-- A run whose first part fails ends there. -/
theorem perform_bind_of_error {d : ExceptT Failure (StateT ω Id) β} {w w₁ : ω} {e : Failure}
    (h : perform d w = (.error e, w₁)) (f : β → ExceptT Failure (StateT ω Id) γ) :
    perform (d >>= f) w = (.error e, w₁) := by
  rw [perform_bind, h]

/-- A run succeeds if its first part does and the rest of it does from there. -/
theorem perform_bind_eq_ok {d : ExceptT Failure (StateT ω Id) β}
    {f : β → ExceptT Failure (StateT ω Id) γ} {w w' : ω} {c : γ} :
    perform (d >>= f) w = (.ok c, w') ↔
      ∃ b w₁, perform d w = (.ok b, w₁) ∧ perform (f b) w₁ = (.ok c, w') := by
  constructor
  · intro h
    rcases hd : perform d w with ⟨e | b, w₁⟩
    · rw [perform_bind_of_error hd] at h
      cases h
    · rw [perform_bind_of_ok hd] at h
      exact ⟨b, w₁, rfl, h⟩
  · rintro ⟨b, w₁, hd, hf⟩
    rw [perform_bind_of_ok hd, hf]

theorem Evaluation.pure_inj {b c : β} : (pure b : Evaluation Id β) = pure c ↔ b = c :=
  ⟨Except.ok.inj, congrArg _⟩

/-- An evaluation is settled if its parts are. -/
theorem Evaluation.bind_eq_pure {e : Evaluation Id β} {f : β → Evaluation Id γ} {c : γ} :
    (e >>= f) = pure c ↔ ∃ b, e = pure b ∧ f b = pure c := by
  constructor
  · intro h
    rcases he : e with e' | b
    · subst he
      cases h
    · subst he
      exact ⟨b, rfl, h⟩
  · rintro ⟨b, rfl, h⟩
    rw [pure_bind]
    exact h

/-- A success as a part of an evaluation. -/
theorem Evaluation.lift_ok (b : β) :
    (liftM (.ok b : Except Failure β) : Evaluation Id β) = pure b := rfl

section Descent

variable {α : Type}

/-- A run with its history changed, if one is kept. -/
def Run.record (r : Run α) (f : History α → History α) : Run α :=
  { r with history := r.history.map f }

theorem Run.record_record (r : Run α) (f g : History α → History α) :
    (r.record f).record g = r.record (g ∘ f) := by
  rw [Run.record, Run.record, Option.map_map]
  rfl

@[simp] theorem Run.record_id (r : Run α) : r.record id = r := by
  rw [Run.record, Option.map_id]
  rfl

/-- A run with its report changed. -/
def Run.reporting (r : Run α) (f : Report α → Report α) : Run α := { r with report := f r.report }

/-- A run that has told something more. -/
def Run.notify (r : Run α) (n : Notice α) : Run α := { r with notices := r.notices ++ [n] }

@[simp] theorem perform_record (f : History α → History α) (r : Run α) :
    perform (Descent.record (m := Id) f) r = (.ok (), r.record f) := rfl

@[simp] theorem perform_reporting (f : Report α → Report α) (r : Run α) :
    perform (Descent.reporting (m := Id) f) r = (.ok (), r.reporting f) := rfl

@[simp] theorem perform_notify (n : Notice α) (r : Run α) :
    perform (Descent.notify (m := Id) n) r = (.ok (), r.notify n) := rfl

@[simp] theorem perform_evaluate (e : Evaluation Id β) (r : Run α) :
    perform (Descent.evaluate e) r = (e, r) := rfl

theorem perform_record_eq_ok {f : History α → History α} {r r' : Run α} {u : Unit} :
    perform (Descent.record (m := Id) f) r = (.ok u, r') ↔ r.record f = r' := by
  rw [perform_record, Prod.mk.injEq, and_iff_right rfl]

theorem perform_reporting_eq_ok {f : Report α → Report α} {r r' : Run α} {u : Unit} :
    perform (Descent.reporting (m := Id) f) r = (.ok u, r') ↔ r.reporting f = r' := by
  rw [perform_reporting, Prod.mk.injEq, and_iff_right rfl]

theorem perform_notify_eq_ok {n : Notice α} {r r' : Run α} {u : Unit} :
    perform (Descent.notify (m := Id) n) r = (.ok u, r') ↔ r.notify n = r' := by
  rw [perform_notify, Prod.mk.injEq, and_iff_right rfl]

theorem perform_evaluate_eq_ok {e : Evaluation Id β} {r r' : Run α} {b : β} :
    perform (Descent.evaluate e) r = (.ok b, r') ↔ e = pure b ∧ r = r' := by
  rw [perform_evaluate, Prod.mk.injEq]
  exact Iff.rfl

end Descent

section Constrained

variable {α : Type}

/-- What a part of a constrained run adds to the course. -/
structure Segment (α : Type) where
  trace : List (Snapshot α)
  histories : List (History α)
  notices : List (Notice α)

instance : Append (Segment α) where
  append d e := ⟨d.trace ++ e.trace, d.histories ++ e.histories, d.notices ++ e.notices⟩

/-- Nothing is added. -/
def Segment.empty : Segment α := ⟨[], [], []⟩

/-- No exhausted line search is told of. -/
def Segment.Unexhausted (d : Segment α) : Prop :=
  ∀ shrinks searches steps, .exhaustedSearches shrinks searches steps ∉ d.notices

theorem Segment.unexhausted_append {d e : Segment α} :
    (d ++ e).Unexhausted ↔ d.Unexhausted ∧ e.Unexhausted := by
  constructor
  · intro h
    exact ⟨fun a b c hd => h a b c (List.mem_append_left _ hd),
      fun a b c he => h a b c (List.mem_append_right _ he)⟩
  · rintro ⟨hd, he⟩ a b c h
    rcases List.mem_append.mp h with h | h
    · exact hd a b c h
    · exact he a b c h

/-- A course with a segment added. What is not kept stays so. -/
def Course.extend (c : Course α) (d : Segment α) : Course α where
  report := c.report
  trace := c.trace.map (· ++ d.trace)
  histories := c.histories.map (· ++ d.histories)
  notices := c.notices ++ d.notices

theorem Course.extend_extend (c : Course α) (d e : Segment α) :
    (c.extend d).extend e = c.extend (d ++ e) := by
  obtain ⟨report, trace, histories, notices⟩ := c
  show Course.mk _ _ _ _ = Course.mk _ _ _ _
  congr 1
  · cases trace with
    | none => rfl
    | some ts => exact congrArg some (List.append_assoc ..)
  · cases histories with
    | none => rfl
    | some hs => exact congrArg some (List.append_assoc ..)
  · exact List.append_assoc ..

theorem Course.isSome_trace_extend {c : Course α} (h : c.trace.isSome) (d : Segment α) :
    (c.extend d).trace.isSome := by
  rw [extend, Option.isSome_map]
  exact h

theorem Course.isSome_histories_extend {c : Course α} (h : c.histories.isSome) (d : Segment α) :
    (c.extend d).histories.isSome := by
  rw [extend, Option.isSome_map]
  exact h

theorem Course.extend_empty (c : Course α) : c.extend .empty = c := by
  obtain ⟨report, trace, histories, notices⟩ := c
  cases trace <;> cases histories <;> simp [Course.extend, Segment.empty]

theorem Course.extend_notices (c : Course α) (ns : List (Notice α)) :
    c.extend ⟨[], [], ns⟩ = { c with notices := c.notices ++ ns } := by
  obtain ⟨report, trace, histories, notices⟩ := c
  cases trace <;> cases histories <;> simp [Course.extend]

theorem Course.positions_innerRun [Scalar α] {c : Course α} {h : History α}
    (hh : h ∈ c.innerRun.history) : h.positions = [] := by
  unfold Course.innerRun at hh
  dsimp only at hh
  split at hh
  next =>
    obtain rfl := Option.some.inj hh
    rfl
  next => cases hh

theorem perform_constrained_evaluate {e : Evaluation Id β} {b : β} (h : e = pure b) (c : Course α) :
    perform (Constrained.evaluate e) c = (.ok b, c) :=
  congrArg (fun o => (o, c)) h

theorem perform_constrained_evaluate_eq_ok {e : Evaluation Id β} {b : β} {c c' : Course α} :
    perform (Constrained.evaluate e) c = (.ok b, c') ↔ e = pure b ∧ c = c' := by
  show (e, c) = _ ↔ _
  rw [Prod.mk.injEq]
  exact Iff.rfl

theorem perform_constrained_notify (n : Notice α) (c : Course α) :
    perform (Constrained.notify (m := Id) n) c = (.ok (), c.extend ⟨[], [], [n]⟩) := by
  obtain ⟨report, trace, histories, notices⟩ := c
  cases trace <;> cases histories <;> simp [Course.extend] <;> rfl

theorem perform_constrained_notify_eq_ok {n : Notice α} {c c' : Course α} {u : Unit} :
    perform (Constrained.notify (m := Id) n) c = (.ok u, c') ↔ c.extend ⟨[], [], [n]⟩ = c' := by
  rw [perform_constrained_notify, Prod.mk.injEq, and_iff_right rfl]

/-- A snapshot that can be taken is added to the trace. -/
theorem perform_snapshot {take : Evaluation Id (Snapshot α)} {t : Snapshot α} (h : take = pure t)
    (c : Course α) : perform (Constrained.snapshot take) c = (.ok (), c.extend ⟨[t], [], []⟩) := by
  subst h
  obtain ⟨report, trace, histories, notices⟩ := c
  cases trace <;> cases histories <;> simp [Course.extend] <;> rfl

/-- Where a trace is kept, a snapshot has to be taken. -/
theorem perform_snapshot_eq_ok {take : Evaluation Id (Snapshot α)} {c c' : Course α} {u : Unit}
    (h : perform (Constrained.snapshot take) c = (.ok u, c')) (hc : c.trace.isSome) :
    ∃ t, take = pure t ∧ c' = c.extend ⟨[t], [], []⟩ := by
  rcases htake : take with e | t
  · subst htake
    obtain ⟨report, trace, histories, notices⟩ := c
    cases trace with
    | none => cases hc
    | some ts => cases congrArg Prod.fst h
  · refine ⟨t, rfl, ?_⟩
    rw [perform_snapshot htake] at h
    exact (congrArg Prod.snd h).symm

/-- An inner descent that succeeds adds its notices and its history. -/
theorem perform_descend [Scalar α] {d : Descent Id α β} {c : Course α} {b : β} {r : Run α}
    (h : perform d c.innerRun = (.ok b, r)) :
    perform (Constrained.descend d) c = (.ok b, c.extend ⟨[], r.history.toList, r.notices⟩) := by
  have hrun : perform (ExceptT.lift (StateT.lift (d.run.run c.innerRun)) : Constrained Id α _) c
      = (.ok (.ok b, r), c) :=
    congrArg (fun o => (Except.ok o, c)) h
  unfold Constrained.descend
  rw [perform_bind_of_ok (show perform (getThe (Course α)) c = (.ok c, c) from rfl)]
  refine (perform_bind_of_ok hrun _).trans ?_
  -- What is left only changes the course, so it is computed for every kind of course.
  obtain ⟨report, trace, histories, notices⟩ := c
  cases trace <;> cases histories <;> simp [Course.extend] <;> rfl

theorem perform_descend_eq_ok [Scalar α] {d : Descent Id α β} {c c' : Course α} {b : β}
    (h : perform (Constrained.descend d) c = (.ok b, c')) :
    ∃ r, perform d c.innerRun = (.ok b, r) ∧ c' = c.extend ⟨[], r.history.toList, r.notices⟩ := by
  rcases hd : perform d c.innerRun with ⟨e | b', r⟩
  · have hrun : perform (ExceptT.lift (StateT.lift (d.run.run c.innerRun)) : Constrained Id α _) c
        = (.ok (.error e, r), c) :=
      congrArg (fun o => (Except.ok o, c)) hd
    unfold Constrained.descend at h
    rw [perform_bind_of_ok (show perform (getThe (Course α)) c = (.ok c, c) from rfl)] at h
    cases congrArg Prod.fst ((perform_bind_of_ok hrun _).symm.trans h)
  · rw [perform_descend hd, Prod.mk.injEq, Except.ok.injEq] at h
    obtain ⟨rfl, rfl⟩ := h
    exact ⟨r, rfl, rfl⟩

theorem perform_conclude (report : ConstrainedReport α) (c : Course α) :
    perform (Constrained.conclude (m := Id) report) c = (.ok (), { c with report }) := rfl

end Constrained

end Minimization
