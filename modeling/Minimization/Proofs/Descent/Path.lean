import Minimization.Proofs.Descent.Search

/-!
# The path of a gradient descent

What a gradient descent does is the list of its steps. `Step.Follows` says everything about one
iteration: what is evaluated, which trials the line search rejects and which one it settles on, and
where that leads. A `Path` chains such steps and stops where the descent stops, and `Completed` says
what a whole run leaves behind in terms of its path.

`run_ok` is the bridge: a run that succeeds has a path, and its report, history and notices are
those of the path. Nothing is assumed about the numbers, so it holds for floats as well.

Here the functions leave no traces, so a step has no worlds in it, unlike the entries of `Blocks`: it is
determined by the point and the size that it starts with. What a line search does is taken from `Search`,
where both accounts of it are one. A path also leads back to the run (`Completed.perform_eq`): whoever can
follow a path knows what the run does.
-/

namespace Minimization.GradientDescent

variable {α : Type}

theorem checkGradient_eq_ok {g x : Tensor α} {u : Unit} :
    checkGradient g x = .ok u ↔ g.size = x.size := by
  unfold checkGradient
  split
  next h => exact ⟨nofun, fun h' => absurd h' h⟩
  next h => exact ⟨fun _ => Decidable.of_not_not h, fun _ => rfl⟩

variable [Scalar α]

/-! ## Line searches -/

/-- A line search that ends has settled on a trial, and has recorded the sizes after the first one. -/
theorem search_ok {s : Setup Id α} {x d : Tensor α} {bound : α → α} {t : Trial α} {left : Nat} {a : α}
    {r r' : Run α} (h : perform (search s x d bound left a (d.scale a)) r = (.ok t, r')) :
    ∃ shrinks, Searched s x d bound left a shrinks t ∧
      r' = r.record (recordSizes (s.settings.laterSizes a shrinks)) := by
  obtain ⟨n, hshrinks, hsize, hstep, hr⟩ := shrinks_of_search_ok (attempt_of_perform h)
  exact ⟨n, searched_iff.mpr ⟨hshrinks, hsize, hstep⟩, hr⟩

/-- A line search takes the trial that it can settle on. -/
theorem Searched.perform_eq {s : Setup Id α} {x d : Tensor α} {bound : α → α} {left shrinks : Nat} {a : α}
    {t : Trial α} (h : Searched s x d bound left a shrinks t) (r : Run α) :
    perform (search s x d bound left a (d.scale a)) r
      = (.ok t, r.record (recordSizes (s.settings.laterSizes a shrinks))) := by
  obtain ⟨size, step, exhausted⟩ := t
  obtain ⟨hshrinks, hsize, hstep⟩ := searched_iff.mp h
  obtain rfl : size = s.settings.shrunk a shrinks := hsize
  obtain rfl : step = d.scale (s.settings.shrunk a shrinks) := hstep
  exact perform_of_attempt (hshrinks.attempt_eq r)

/-! ## Iterations -/

/-- A completed iteration. -/
structure Step (α : Type) where
  point : Tensor α
  loss : α
  gradient : Tensor α
  direction : Tensor α
  slope : α
  firstSize : α
  shrinks : Nat
  trial : Trial α
  next : Tensor α

/-- The loss that a trial of a size must not exceed. -/
def Step.bound (k : Step α) (s : Setup Id α) (a : α) : α :=
  k.loss + s.settings.sufficientShare * a * k.slope

/-- The step sizes that an iteration tries, in order. -/
def Step.sizes (k : Step α) (s : Setup Id α) : List α :=
  k.firstSize :: s.settings.laterSizes k.firstSize k.shrinks

/-- What an iteration records. -/
def Step.record (k : Step α) (s : Setup Id α) (h : History α) : History α :=
  ⟨h.positions ++ [k.point.toVector], h.losses ++ [k.loss], h.directions ++ [k.direction.toVector],
    h.stepSizes ++ k.sizes s⟩

/-- The step is the iteration from `x` with the first trial size `a`. -/
structure Step.Follows (k : Step α) (s : Setup Id α) (x : Tensor α) (a : α) : Prop where
  point_eq : k.point = x
  firstSize_eq : k.firstSize = a
  loss_eq : s.loss.number x = pure k.loss
  gradient_eq : s.gradient x = pure k.gradient
  size_eq : k.gradient.size = x.size
  direction_eq :
    (k.gradient.scale (-Scalar.one)).normalizeAbove Tensor.negligible = .ok k.direction
  slope_eq : k.gradient.inner k.direction = .ok k.slope
  searched : Searched s x k.direction (k.bound s) s.settings.maxShrinks.toNat a k.shrinks k.trial
  next_eq : x.moveBy k.trial.step = .ok k.next

/-- A run after an iteration. -/
def Step.after (k : Step α) (s : Setup Id α) (r : Run α) : Run α :=
  (r.record (k.record s)).reporting fun report => { report with stepSize := k.trial.stepSize }

/-- An iteration that succeeds is a step. -/
theorem iteration_ok {s : Setup Id α} {x y : Tensor α} {a : α} {t : Trial α} {r r' : Run α}
    (h : perform (iteration s x a) r = (.ok (t, y), r')) :
    ∃ k : Step α, k.Follows s x a ∧ k.trial = t ∧ k.next = y ∧ r' = k.after s r := by
  unfold iteration at h
  simp only [perform_bind_eq_ok, perform_lift_eq_ok, perform_evaluate_eq_ok, perform_record_eq_ok,
    perform_reporting_eq_ok, perform_pure_eq_ok, Prod.mk.injEq] at h
  obtain ⟨_, _, ⟨-, rfl⟩, loss, _, ⟨hloss, rfl⟩, gradient, _, ⟨hgradient, rfl⟩, _, _, ⟨hcheck, rfl⟩,
    d, _, ⟨hd, rfl⟩, _, _, rfl, slope, _, ⟨hslope, rfl⟩, trial, _, hsearch, next, _, ⟨hnext, rfl⟩,
    _, _, rfl, ⟨rfl, rfl⟩, rfl⟩ := h
  obtain ⟨shrinks, searched, rfl⟩ := search_ok hsearch
  refine ⟨⟨x, loss, gradient, d, slope, a, shrinks, trial, next⟩,
    ⟨rfl, rfl, hloss, hgradient, checkGradient_eq_ok.mp hcheck, hd, hslope, searched, hnext⟩,
    rfl, rfl, ?_⟩
  -- The iteration and its search record in two goes what the step records in one.
  rw [Step.after, Run.record_record]
  congr 2
  funext h
  show History.mk _ _ _ ((h.stepSizes ++ [a]) ++ _) = History.mk _ _ _ (h.stepSizes ++ a :: _)
  rw [List.append_assoc, List.singleton_append]
  rfl

/-! ## Paths -/

/-- A path from `x` with the first trial size `a`, when at most `left` steps follow the first one:
its steps, the point it leads to, and why it ends there. -/
inductive Path (s : Setup Id α) : Nat → Tensor α → α → List (Step α) → Tensor α → StopReason → Prop
  | full {x a k} : k.Follows s x a → Path s 0 x a [k] k.next .maxIterations
  | small {left x a k} : k.Follows s x a →
      Scalar.le k.trial.step.norm s.settings.terminationStep = true →
      Path s (left + 1) x a [k] k.next .smallStep
  | step {left x a k ks y reason} : k.Follows s x a →
      Scalar.le k.trial.step.norm s.settings.terminationStep = false →
      Path s left k.next (k.trial.stepSize * s.settings.growthFactor) ks y reason →
      Path s (left + 1) x a (k :: ks) y reason

/-- A path has a first step. -/
theorem Path.exists_first {s : Setup Id α} {left : Nat} {x y : Tensor α} {a : α} {ks : List (Step α)}
    {reason : StopReason} (hp : Path s left x a ks y reason) : ∃ k ∈ ks, k.Follows s x a := by
  cases hp with
  | full hk => exact ⟨_, List.mem_singleton_self _, hk⟩
  | small hk _ => exact ⟨_, List.mem_singleton_self _, hk⟩
  | step hk _ _ => exact ⟨_, List.mem_cons_self .., hk⟩

/-- What holds at the start of a path and is kept by its steps holds at its end, and every step
starts where it holds. -/
theorem Path.invariant {s : Setup Id α} {I : Tensor α → α → Prop} {left : Nat}
    {x y : Tensor α} {a : α} {ks : List (Step α)} {reason : StopReason}
    (hp : Path s left x a ks y reason) (h₀ : I x a)
    (hstep : ∀ k ∈ ks, ∀ x a, k.Follows s x a → I x a →
      I k.next (k.trial.stepSize * s.settings.growthFactor)) :
    (∃ a', I y a') ∧ ∀ k ∈ ks, ∃ x a, k.Follows s x a ∧ I x a := by
  induction hp with
  | full hk =>
    refine ⟨⟨_, hstep _ (List.mem_singleton_self _) _ _ hk h₀⟩, ?_⟩
    rintro k' hk'
    obtain rfl := List.mem_singleton.mp hk'
    exact ⟨_, _, hk, h₀⟩
  | small hk _ =>
    refine ⟨⟨_, hstep _ (List.mem_singleton_self _) _ _ hk h₀⟩, ?_⟩
    rintro k' hk'
    obtain rfl := List.mem_singleton.mp hk'
    exact ⟨_, _, hk, h₀⟩
  | step hk _ _ ih =>
    -- The rest of the path starts where the first step leads to.
    have hnext := hstep _ (List.mem_cons_self ..) _ _ hk h₀
    obtain ⟨hend, hmem⟩ := ih hnext fun k hmem => hstep k (List.mem_cons_of_mem _ hmem)
    refine ⟨hend, ?_⟩
    rintro k' hk'
    rcases List.mem_cons.mp hk' with rfl | hk'
    · exact ⟨_, _, hk, h₀⟩
    · exact hmem k' hk'

/-- The number of exhausted line searches of a path. -/
def exhaustedCount (ks : List (Step α)) : Nat := ks.countP fun k => k.trial.exhausted

/-- A run after the iterations of a path. -/
def afterAll (s : Setup Id α) (ks : List (Step α)) (r : Run α) : Run α :=
  ks.foldl (fun r k => k.after s r) r

/-- What the iterations of a path record. -/
def recordAll (s : Setup Id α) (ks : List (Step α)) (h : History α) : History α :=
  ⟨h.positions ++ ks.map fun k => k.point.toVector, h.losses ++ ks.map fun k => k.loss,
    h.directions ++ ks.map fun k => k.direction.toVector,
    h.stepSizes ++ ks.flatMap fun k => k.sizes s⟩

/-- What a path records is what its first step records, and then the others. -/
theorem recordAll_cons (s : Setup Id α) (k : Step α) (ks : List (Step α)) :
    recordAll s ks ∘ k.record s = recordAll s (k :: ks) := by
  funext h
  simp [recordAll, Step.record]

/-- The iterations of a path leave their records and the size of the last step. -/
theorem afterAll_eq (s : Setup Id α) (ks : List (Step α)) (r : Run α) :
    afterAll s ks r = (r.record (recordAll s ks)).reporting fun report =>
      { report with stepSize := (ks.map fun k => k.trial.stepSize).getLastD report.stepSize } := by
  induction ks generalizing r with
  | nil =>
    have hid : recordAll s ([] : List (Step α)) = id := by
      funext h
      simp [recordAll]
    rw [hid, Run.record_id]
    rfl
  | cons k ks ih =>
    show afterAll s ks (k.after s r) = _
    rw [ih, Step.after, ← recordAll_cons, ← Run.record_record]
    simp only [List.map_cons, List.getLastD_cons]
    rfl

/-- A run of a loop that ends has followed a path. -/
theorem iterate_ok {s : Setup Id α} {e : Ending α} {left : Nat} {x : Tensor α} {a : α} {n m : Nat}
    {r r' : Run α} (h : perform (iterate s left x a n m) r = (.ok e, r')) :
    ∃ ks, Path s left x a ks e.point e.reason ∧ e.steps = n + ks.length ∧
      e.exhausted = m + exhaustedCount ks ∧ r' = afterAll s ks r := by
  induction left generalizing x a n m r with
  | zero =>
    unfold iterate at h
    obtain ⟨⟨t, y⟩, r₁, hi, h⟩ := perform_bind_eq_ok.mp h
    obtain ⟨k, hk, rfl, rfl, rfl⟩ := iteration_ok hi
    obtain ⟨rfl, rfl⟩ := perform_pure_eq_ok.mp h
    refine ⟨[k], .full hk, rfl, ?_, rfl⟩
    cases hx : k.trial.exhausted <;> simp [exhaustedCount, hx]
  | succ left ih =>
    unfold iterate at h
    obtain ⟨⟨t, y⟩, r₁, hi, h⟩ := perform_bind_eq_ok.mp h
    obtain ⟨k, hk, rfl, rfl, rfl⟩ := iteration_ok hi
    -- The loop ends with a short step, or goes on from the point the step leads to.
    cases hle : Scalar.le k.trial.step.norm s.settings.terminationStep with
    | true =>
      simp only [hle, if_true] at h
      obtain ⟨rfl, rfl⟩ := perform_pure_eq_ok.mp h
      refine ⟨[k], .small hk hle, rfl, ?_, rfl⟩
      cases hx : k.trial.exhausted <;> simp [exhaustedCount, hx]
    | false =>
      simp only [hle] at h
      obtain ⟨ks, hp, hsteps, hexhausted, rfl⟩ := ih h
      refine ⟨k :: ks, .step hk hle hp, ?_, ?_, rfl⟩
      · rw [hsteps, List.length_cons]
        omega
      · rw [hexhausted]
        cases hx : k.trial.exhausted with
        | true =>
          simp [exhaustedCount, hx]
          omega
        | false => simp [exhaustedCount, hx]

/-- What a descent tells at its end. -/
def endNotices (s : Setup Id α) (ks : List (Step α)) (reason : StopReason) (loss : α) :
    List (Notice α) :=
  (if exhaustedCount ks = 0 then []
    else [.exhaustedSearches s.settings.maxShrinks (exhaustedCount ks) ks.length])
    ++ [.descentEnded s.name reason ks.length loss]

omit [Scalar α] in
/-- Exhausted searches are told of exactly if there are any. -/
theorem forall_notMem_endNotices {s : Setup Id α} {ks : List (Step α)} {reason : StopReason}
    {loss : α} :
    (∀ shrinks searches steps,
        .exhaustedSearches shrinks searches steps ∉ endNotices s ks reason loss) ↔
      ∀ k ∈ ks, k.trial.exhausted = false := by
  have hcount : exhaustedCount ks = 0 ↔ ∀ k ∈ ks, k.trial.exhausted = false := by
    simp [exhaustedCount, List.countP_eq_zero]
  rw [← hcount]
  constructor
  · intro h
    refine Decidable.byContradiction fun hx => ?_
    refine h s.settings.maxShrinks (exhaustedCount ks) ks.length ?_
    rw [endNotices, if_neg hx]
    exact List.mem_append_left _ (List.mem_singleton_self _)
  · intro hx shrinks searches steps hmem
    rw [endNotices, if_pos hx, List.nil_append] at hmem
    cases List.mem_singleton.mp hmem

omit [Scalar α] in
/-- A descent does not know of constraints. -/
theorem infeasible_notMem_endNotices {s : Setup Id α} {ks : List (Step α)} {reason : StopReason}
    {loss : α} (round : Option Nat) (largest : α) :
    .infeasible round largest ∉ endNotices s ks reason loss := by
  unfold endNotices
  split <;> simp

/-- A descent from `guess`, started in the run `r`, takes a path to `y` and leaves the run `r'`. -/
structure Completed (s : Setup Id α) (guess : Tensor α) (r : Run α) (ks : List (Step α))
    (y : Tensor α) (reason : StopReason) (r' : Run α) : Prop where
  path : Path s (s.settings.maxSteps - 1).toNat (guess.convert s.precision) s.settings.initialStep
    ks y reason
  loss : s.loss.number y = pure r'.report.loss
  stepSize :
    r'.report.stepSize = (ks.map fun k => k.trial.stepSize).getLastD r.report.stepSize
  iterations : r'.report.iterations = ks.length
  history : r'.history = r.history.map fun h =>
    ((recordAll s ks h).addPosition y.flatten).addLoss r'.report.loss
  notices : r'.notices = r.notices ++ endNotices s ks reason r'.report.loss

/-- A descent that succeeds is completed: it leaves what its path says. -/
theorem run_ok {s : Setup Id α} {guess y : Tensor α} {r r' : Run α}
    (h : perform (run s guess) r = (.ok y, r')) :
    ∃ ks reason, Completed s guess r ks y reason r' := by
  unfold run at h
  simp only [perform_bind_eq_ok, perform_evaluate_eq_ok, perform_record_eq_ok,
    perform_reporting_eq_ok] at h
  obtain ⟨ending, _, hi, _, _, rfl, loss, _, ⟨hloss, rfl⟩, _, _, rfl, _, _, rfl, h⟩ := h
  obtain ⟨ks, hp, hsteps, hexhausted, rfl⟩ := iterate_ok hi
  rw [afterAll_eq] at h
  rw [Nat.zero_add] at hsteps hexhausted
  refine ⟨ks, ending.reason, ?_⟩
  by_cases hx : exhaustedCount ks = 0
  · rw [if_neg (by simpa [hexhausted] using hx), perform_bind_eq_ok] at h
    obtain ⟨_, _, hn, h⟩ := h
    obtain rfl := perform_notify_eq_ok.mp hn
    obtain ⟨rfl, rfl⟩ := perform_pure_eq_ok.mp h
    refine ⟨hp, hloss, rfl, hsteps, Option.map_map .., ?_⟩
    rw [endNotices, if_pos hx, ← hsteps]
    rfl
  · rw [if_pos (by simpa [hexhausted] using hx)] at h
    simp only [perform_bind_eq_ok, perform_notify_eq_ok, perform_pure_eq_ok] at h
    obtain ⟨_, _, rfl, _, _, rfl, rfl, rfl⟩ := h
    refine ⟨hp, hloss, rfl, hsteps, Option.map_map .., ?_⟩
    rw [endNotices, if_neg hx, ← hsteps, ← hexhausted, ← List.append_assoc]
    rfl

/-! ## Runs along a path

Conversely, a path says what a run does from where the path starts, if nothing fails before its iterations. -/

/-- An iteration takes the step that follows from where it starts. -/
theorem Step.Follows.perform_eq {s : Setup Id α} {k : Step α} {x : Tensor α} {a : α}
    (hk : k.Follows s x a) (hbefore : s.before = pure ()) (r : Run α) :
    perform (iteration s x a) r = (.ok (k.trial, k.next), k.after s r) := by
  unfold iteration
  rw [perform_bind_of_ok (perform_evaluate_eq_ok.mpr ⟨hbefore, rfl⟩),
    perform_bind_of_ok (perform_evaluate_eq_ok.mpr ⟨hk.loss_eq, rfl⟩),
    perform_bind_of_ok (perform_evaluate_eq_ok.mpr ⟨hk.gradient_eq, rfl⟩),
    perform_bind_of_ok (perform_lift_eq_ok.mpr ⟨(checkGradient_eq_ok (u := ())).mpr hk.size_eq, rfl⟩),
    perform_bind_of_ok (perform_lift_eq_ok.mpr ⟨hk.direction_eq, rfl⟩),
    perform_bind_of_ok (perform_record _ _),
    perform_bind_of_ok (perform_lift_eq_ok.mpr ⟨hk.slope_eq, rfl⟩)]
  refine (perform_bind_of_ok (hk.searched.perform_eq _) _).trans ?_
  rw [perform_bind_of_ok (perform_lift_eq_ok.mpr ⟨hk.next_eq, rfl⟩),
    perform_bind_of_ok (perform_reporting _ _), perform_pure, Step.after, Run.record_record]
  -- The step records in one what the iteration and its search record in two goes.
  congr 3
  funext h
  show History.mk _ _ _ ((h.stepSizes ++ [a]) ++ _) = History.mk _ _ _ (h.stepSizes ++ k.firstSize :: _)
  rw [hk.firstSize_eq, List.append_assoc, List.singleton_append, hk.point_eq]
  rfl

omit [Scalar α] in
/-- An exhausted search counts. -/
theorem add_exhaustedCount_cons (j : Nat) (k : Step α) (ks : List (Step α)) :
    j + exhaustedCount (k :: ks) = (if k.trial.exhausted then j + 1 else j) + exhaustedCount ks := by
  rw [exhaustedCount, exhaustedCount, List.countP_cons]
  cases k.trial.exhausted with
  | true =>
    simp only [if_true]
    omega
  | false => rfl

/-- The loop takes the steps of the path. -/
theorem Path.perform_eq {s : Setup Id α} {left : Nat} {x y : Tensor α} {a : α} {ks : List (Step α)}
    {reason : StopReason} (hp : Path s left x a ks y reason) (hbefore : s.before = pure ())
    (i j : Nat) (r : Run α) :
    perform (iterate s left x a i j) r
      = (.ok ⟨y, reason, i + ks.length, j + exhaustedCount ks⟩, afterAll s ks r) := by
  induction hp generalizing i j r with
  | full hk =>
    unfold iterate
    rw [perform_bind_of_ok (hk.perform_eq hbefore r), add_exhaustedCount_cons]
    rfl
  | small hk hle =>
    unfold iterate
    rw [perform_bind_of_ok (hk.perform_eq hbefore r), add_exhaustedCount_cons]
    dsimp only
    rw [if_pos hle]
    rfl
  | @step _ _ _ _ ks _ _ hk hle _ ih =>
    have hsteps : i + (ks.length + 1) = i + 1 + ks.length := by omega
    unfold iterate
    rw [perform_bind_of_ok (hk.perform_eq hbefore r), add_exhaustedCount_cons, List.length_cons, hsteps]
    dsimp only
    rw [if_neg (by simp [hle]), ih]
    rfl

/-- A descent that can follow a path takes it. -/
theorem Completed.perform_eq {s : Setup Id α} {guess y : Tensor α} {r r' : Run α} {ks : List (Step α)}
    {reason : StopReason} (h : Completed s guess r ks y reason r') (hbefore : s.before = pure ()) :
    perform (run s guess) r = (.ok y, r') := by
  obtain ⟨⟨loss, stepSize, iterations⟩, history, notices⟩ := r'
  obtain ⟨hp, hloss, hsize, hiterations, hhistory, hnotices⟩ := h
  dsimp only at hloss hsize hiterations hhistory hnotices
  unfold run
  rw [perform_bind_of_ok (hp.perform_eq hbefore 0 0 r), afterAll_eq]
  dsimp only
  rw [Nat.zero_add, Nat.zero_add, perform_bind_of_ok (perform_reporting _ _),
    perform_bind_of_ok (perform_evaluate_eq_ok.mpr ⟨hloss, rfl⟩),
    perform_bind_of_ok (perform_reporting _ _), perform_bind_of_ok (perform_record _ _)]
  have hrecorded : (r.history.map (recordAll s ks)).map
      (fun h => (h.addPosition y.flatten).addLoss loss) = history := by
    rw [Option.map_map, hhistory]
    rfl
  rw [hsize, hiterations, hnotices, ← hrecorded]
  by_cases hx : exhaustedCount ks = 0
  · rw [if_neg (by simpa using hx), endNotices, if_pos hx]
    rfl
  · rw [if_pos (by simpa using hx), endNotices, if_neg hx, ← List.append_assoc]
    rfl

end Minimization.GradientDescent
