import Minimization.Proofs.Constrained.Barrier
import Minimization.Proofs.Constrained.Scheme

/-!
# The barrier method stays inside

The barrier method starts at a strictly feasible point and never leaves the strictly feasible set,
as long as no line search of its inner descents is exhausted. The invariant is carried through all
loops: the inner descents keep it (`GradientDescent.Completed.isInterior`), and so do the rounds,
whatever the weight of the barrier is and however it changes. Snapshots of interior points have a
finite loss and finite multipliers, and nothing is told of infeasible points.

A run on exact numbers always succeeds. Its parts are therefore described by what they add to the
course, a `Segment`: `minimize_isInterior` says that everything a run adds is interior.
-/

namespace Minimization

open ExactScalar

variable {n : Nat} {shape : List Nat} {α : Type} [ExtendedScalar α] {gs : List (Landscape n)}

/-! ## Segments -/

/-- A snapshot of a strictly feasible point with its constraint values: the loss is finite, and so
are the multipliers, whose products with the constraint values are minus the weight. -/
structure Snapshot.IsInterior (t : Snapshot α) (gs : List (Landscape n)) : Prop where
  point : ∃ v : Point n, t.point.Represents [n] v ∧ StrictlyFeasible gs v ∧
    t.constraints.entries = gs.map fun g => ofReal (g.value v)
  loss : ∃ l : ℝ, t.loss = ofReal l
  multipliers : List.Forall₂ (fun l g => (∃ m : ℝ, l = ofReal m) ∧ l * g = -t.weight)
    t.multipliers.entries t.constraints.entries

namespace Segment

/-- All snapshots and all recorded positions are interior, and no infeasible point is told of. -/
structure IsInterior (d : Segment α) (gs : List (Landscape n)) : Prop where
  trace : ∀ t ∈ d.trace, t.IsInterior gs
  positions : ∀ h ∈ d.histories, ∀ y ∈ h.positions, y.IsInterior [n] gs
  feasible : ∀ round largest, .infeasible round largest ∉ d.notices

theorem IsInterior.empty : (Segment.empty : Segment α).IsInterior gs where
  trace := nofun
  positions := nofun
  feasible := nofun

/-- Segments are told apart by what they hold, so one after the other is as good as each on its own. -/
theorem IsInterior.append {d e : Segment α} (hd : d.IsInterior gs) (he : e.IsInterior gs) :
    (d ++ e).IsInterior gs where
  trace t ht := (List.mem_append.mp ht).elim (hd.trace t) (he.trace t)
  positions h hh := (List.mem_append.mp hh).elim (hd.positions h) (he.positions h)
  feasible round largest hmem :=
    (List.mem_append.mp hmem).elim (hd.feasible round largest) (he.feasible round largest)

theorem IsInterior.snapshot {t : Snapshot α} (ht : t.IsInterior gs) :
    (⟨[t], [], []⟩ : Segment α).IsInterior gs where
  trace := List.forall_mem_singleton.mpr ht
  positions := nofun
  feasible := nofun

/-- Notices are no matter unless one of them tells of a point that is not strictly feasible. -/
theorem IsInterior.notices {ks : List (Notice α)}
    (hks : ∀ k ∈ ks, ∀ round largest, k ≠ .infeasible round largest) :
    (⟨[], [], ks⟩ : Segment α).IsInterior gs where
  trace := nofun
  positions := nofun
  feasible round largest hmem := hks _ hmem round largest rfl

end Segment

namespace LogBarrier

/-! ## Parts of a round -/

/-- Settings of real numbers. Without a tolerance the rounds go on until their number is reached. -/
def Settings.ofReals (maxRounds : Int) (initialWeight decay : ℝ) (tolerance : Option ℝ)
    (inner : GradientDescent.Settings ℝ) : Settings α where
  maxRounds := maxRounds
  initialWeight := ofReal initialWeight
  decay := ofReal decay
  tolerance := match tolerance with
    | none => .none
    | some t => .upTo (ofReal t)
  inner := .ok inner.lift

variable {s : Setup Id α} {f : Landscape n} {x : Tensor α}

/-- An inner descent succeeds. Without exhausted searches it stays inside. -/
theorem descend_isInterior (hp : s.problem.Realizes shape f gs) {inner : GradientDescent.Settings ℝ}
    (hi : s.settings.inner = .ok inner.lift) (hx : ∃ v : Point n, x.Represents shape v) (weight : ℝ)
    (c : Course α) :
    ∃ y d, perform (Constrained.descend (s.descent (ofReal weight) x)) c = (.ok y, c.extend d) ∧
      (∃ w : Point n, y.Represents shape w) ∧
      (d.Unexhausted → x.IsInterior shape gs → y.IsInterior shape gs ∧ d.IsInterior gs) := by
  obtain ⟨v, hv⟩ := hx
  have hs := Setup.realizes_inner hp inner.lift weight
  obtain ⟨y, r, hrun⟩ := GradientDescent.run_total (h := inner) hs rfl hv c.innerRun
  have hdescent : perform (s.descent (ofReal weight) x) c.innerRun = (.ok y, r) := by
    unfold Setup.descent
    rw [perform_bind_of_ok (perform_lift_eq_ok.mpr ⟨hi, rfl⟩)]
    exact hrun
  obtain ⟨ks, reason, hc⟩ := GradientDescent.run_ok hrun
  refine ⟨y, _, perform_descend hdescent, ?_, fun hd hx => ?_⟩
  · exact hc.path.represents hs rfl (GradientDescent.atPoint_start (h := inner) rfl hv)
  have hnotices : r.notices = GradientDescent.endNotices _ ks reason r.report.loss := hc.notices
  -- A search that was exhausted would have been told at the end of the descent.
  have htold : ∀ shrinks searches steps,
      .exhaustedSearches shrinks searches steps ∉ r.notices := hd
  rw [hnotices] at htold
  have haccepted := GradientDescent.forall_notMem_endNotices.mp htold
  obtain ⟨hy, hks⟩ := hc.isInterior (h := inner) hs rfl hx haccepted
  have hstart : ∀ t ∈ c.innerRun.history, ∀ z ∈ t.positions, z.IsInterior [n] gs := by
    intro t ht z hz
    rw [Course.positions_innerRun ht] at hz
    cases hz
  refine ⟨hy, nofun, fun h hh => ?_, fun round largest hmem => ?_⟩
  · exact hc.isInterior_positions hy hks hstart h (Option.mem_toList.mp hh)
  · rw [hnotices] at hmem
    exact GradientDescent.infeasible_notMem_endNotices round largest hmem

/-- A snapshot can be taken everywhere, and that of an interior point is interior. -/
theorem snapshot_isInterior (hp : s.problem.Realizes shape f gs)
    (hx : ∃ v : Point n, x.Represents shape v) (weight : ℝ) :
    ∃ t, s.snapshot (ofReal weight) x = pure t ∧ (x.IsInterior shape gs → t.IsInterior gs) := by
  obtain ⟨v, hv⟩ := hx
  unfold Setup.snapshot
  rw [hp.constraintValues hv, pure_bind, hp.objective.value hv, pure_bind, hp.barrier hv, pure_bind]
  refine ⟨_, rfl, fun hx => ?_⟩
  have hfeasible := hv.isInterior_iff.mp hx
  have hconstraints := Tensor.entries_vector (α := α) .double (fun g => g.value v) gs
  have hmultipliers := Tensor.entries_vector (α := α) .double (fun g => -weight / g.value v) gs
  refine ⟨⟨v, hv.flatten.convert .double, hfeasible, hconstraints⟩, ?_, ?_⟩
  · exact ⟨_, if_pos hfeasible⟩
  · dsimp only
    rw [impliedMultipliers_eq hfeasible, hconstraints, hmultipliers, List.forall₂_map_left_iff,
      List.forall₂_map_right_iff, List.forall₂_same]
    intro g hg
    refine ⟨⟨_, rfl⟩, ?_⟩
    rw [← ofReal_mul, div_mul_cancel₀ _ (hfeasible g hg).ne, ofReal_neg]

/-- The largest constraint value of a strictly feasible point is negative. -/
theorem foldl_max_neg {xs : List ℝ} (h : ∀ y ∈ xs, y < 0) {a : ℝ} (ha : a < 0) :
    xs.foldl max a < 0 := by
  induction xs generalizing a with
  | nil => exact ha
  | cons y xs ih =>
    obtain ⟨hy, hxs⟩ := List.forall_mem_cons.mp h
    exact ih hxs (max_lt ha hy)

/-- At a strictly feasible point the largest of some constraint values is negative. Without
constraints it would be zero. -/
theorem largest_of_strictlyFeasible {v : Point n} (hne : gs ≠ []) (hv : StrictlyFeasible gs v) :
    Scalar.le Scalar.zero (Scalar.largest (gs.map fun g => (ofReal (g.value v) : α))) = false := by
  cases gs with
  | nil => exact absurd rfl hne
  | cons g gs =>
    obtain ⟨hg, hgs⟩ := strictlyFeasible_cons.mp hv
    have hvalues : ((g :: gs).map fun g => (ofReal (g.value v) : α))
        = (g.value v :: gs.map fun g => g.value v).map ofReal := by
      rw [List.map_cons, List.map_cons, List.map_map]
      rfl
    rw [hvalues, largest_ofReal, zero_eq, le_ofReal]
    exact decide_eq_false (not_le.mpr (foldl_max_neg (List.forall_mem_map.mpr hgs) hg))

/-- Strictly feasible points are not told of. -/
theorem tellInfeasible_isInterior (hp : s.problem.Realizes shape f gs)
    (hx : ∃ v : Point n, x.Represents shape v) (number : Option Nat) (told : Bool) (c : Course α) :
    ∃ told' d, perform (s.tellInfeasible number told x) c = (.ok told', c.extend d) ∧
      (x.IsInterior shape gs → told = false → told' = false ∧ d.IsInterior gs) := by
  obtain ⟨v, hv⟩ := hx
  unfold Setup.tellInfeasible
  by_cases hskip : (told || s.problem.constraints.isEmpty) = true
  · rw [if_pos hskip]
    refine ⟨told, .empty, ?_, fun _ h => ⟨h, .empty⟩⟩
    rw [Course.extend_empty, perform_pure]
  · rw [if_neg hskip, perform_bind_of_ok (perform_constrained_evaluate (hp.constraintValues hv) c)]
    dsimp only
    by_cases hle : Scalar.le Scalar.zero
        (Scalar.largest (gs.map fun g => (ofReal (g.value v) : α))) = true
    · rw [if_pos hle, perform_bind_of_ok (perform_constrained_notify _ c)]
      refine ⟨true, _, rfl, fun hx => ?_⟩
      -- Without constraints nothing would have been looked at.
      have hne : gs ≠ [] := by
        rintro rfl
        have hnil := List.eq_nil_of_length_eq_zero hp.constraintCount_eq
        exact hskip (by rw [hnil, List.isEmpty_nil, Bool.or_true])
      rw [largest_of_strictlyFeasible hne (hv.isInterior_iff.mp hx)] at hle
      cases hle
    · rw [if_neg hle]
      refine ⟨false, .empty, ?_, fun _ _ => ⟨rfl, .empty⟩⟩
      rw [Course.extend_empty, perform_pure]

/-! ## Rounds -/

/-- The invariant of the rounds on exact numbers: a point of the shape, and a real weight. -/
def State.IsReal (st : State α) (n : Nat) (shape : List Nat) : Prop :=
  (∃ v : Point n, st.point.Represents shape v) ∧ ∃ w : ℝ, st.weight = ofReal w

/-- The invariant inside: an interior point, and no infeasible point was told of. -/
def State.IsInside (st : State α) (shape : List Nat) (gs : List (Landscape n)) : Prop :=
  st.point.IsInterior shape gs ∧ st.told = false

/-- Settings whose numbers are real and whose tolerance can be compared with a distance. -/
structure Settings.IsReal (h : Settings α) (inner : GradientDescent.Settings ℝ) (decay : ℝ) :
    Prop where
  inner : h.inner = .ok inner.lift
  decay : h.decay = ofReal decay
  tolerance : h.tolerance = .none ∨ ∃ t : ℝ, h.tolerance = .upTo (ofReal t)

variable {inner : GradientDescent.Settings ℝ} {decay : ℝ}

/-- The end of a round tells of nothing but that the run settles. -/
theorem settle_isInterior (gs : List (Landscape n)) (hs : s.settings.IsReal inner decay)
    {x y : Tensor α} (hshape : y.shape = x.shape) (number : Nat) (next : State α) (c : Course α) :
    ∃ done d, perform (Constrained.settle s.settings.tolerance x y id (.barrierSettled number) next) c
        = (.ok (next, done), c.extend d) ∧
      d.IsInterior gs := by
  have ht : s.settings.tolerance ≠ .incomparable := by
    rcases hs.tolerance with htol | ⟨bound, htol⟩
    · rw [htol]
      nofun
    · rw [htol]
      nofun
  obtain ⟨done, c', hsettle⟩ :=
    Constrained.settle_total ht hshape id (.barrierSettled number) next c
  obtain ⟨-, notices, rfl, hnotices⟩ := Constrained.settle_ok hsettle
  refine ⟨done, _, hsettle, .notices fun k hk => ?_⟩
  obtain ⟨_, _, rfl⟩ := hnotices k hk
  nofun

/-- A round succeeds. Without exhausted searches it stays inside. -/
theorem round_isInterior (hp : s.problem.Realizes shape f gs) (hs : s.settings.IsReal inner decay)
    {st : State α} (hst : st.IsReal n shape) (number : Nat) (c : Course α) :
    ∃ st' done d, perform (round s number st) c = (.ok (st', done), c.extend d) ∧
      st'.IsReal n shape ∧
      (d.Unexhausted → st.IsInside shape gs → st'.IsInside shape gs ∧ d.IsInterior gs) := by
  obtain ⟨⟨v, hx⟩, w, hw⟩ := hst
  obtain ⟨y, d₁, hdescend, ⟨u, hy⟩, hinside₁⟩ := descend_isInterior hp hs.inner ⟨v, hx⟩ w c
  obtain ⟨t, hsnapshot, ht⟩ := snapshot_isInterior hp ⟨u, hy⟩ w
  obtain ⟨told, d₂, htell, hinside₂⟩ := tellInfeasible_isInterior hp ⟨u, hy⟩ (some number) st.told
    ((c.extend d₁).extend ⟨[t], [], []⟩)
  let notice : Notice α := .barrierRound number (ofReal (f.value u)) (ofReal w)
  let next : State α := ⟨y, ofReal w * s.settings.decay, told⟩
  obtain ⟨done, e, hsettle, he⟩ := settle_isInterior gs hs (hy.shape_eq.trans hx.shape_eq.symm) number next
    ((((c.extend d₁).extend ⟨[t], [], []⟩).extend d₂).extend ⟨[], [], [notice]⟩)
  refine ⟨next, done, d₁ ++ ⟨[t], [], []⟩ ++ d₂ ++ ⟨[], [], [notice]⟩ ++ e, ?_, ?_, ?_⟩
  · unfold round
    rw [hw, perform_bind_of_ok hdescend, perform_bind_of_ok (perform_snapshot hsnapshot _),
      perform_bind_of_ok htell,
      perform_bind_of_ok (perform_constrained_evaluate (hp.objective.value hy) _),
      perform_bind_of_ok (perform_constrained_notify _ _)]
    refine hsettle.trans ?_
    simp only [Course.extend_extend]
  · exact ⟨⟨u, hy⟩, w * decay, by rw [ofReal_mul, ← hs.decay]⟩
  · -- Every part of the round starts where the part before it has ended.
    rintro hunexhausted ⟨hpoint, htold⟩
    simp only [Segment.unexhausted_append] at hunexhausted
    obtain ⟨hypoint, hd₁⟩ := hinside₁ hunexhausted.1.1.1.1 hpoint
    obtain ⟨htold, hd₂⟩ := hinside₂ hypoint htold
    have hnotice : ∀ number largest, notice ≠ .infeasible number largest := by simp [notice]
    refine ⟨⟨hypoint, htold⟩, ?_⟩
    have hnotices : (⟨[], [], [notice]⟩ : Segment α).IsInterior gs :=
      .notices (List.forall_mem_singleton.mpr hnotice)
    exact (((hd₁.append (.snapshot (ht hypoint))).append hd₂).append hnotices).append he

/-- Rounds succeed, for any number of them. Without exhausted searches they stay inside. -/
theorem rounds_isInterior (hp : s.problem.Realizes shape f gs) (hs : s.settings.IsReal inner decay) :
    ∀ (left made : Nat) (st : State α) (c : Course α), st.IsReal n shape →
      ∃ made' st' d, perform (Constrained.rounds (round s) left made st) c = (.ok (made', st'), c.extend d) ∧
        (d.Unexhausted → st.IsInside shape gs → st'.IsInside shape gs ∧ d.IsInterior gs) := by
  intro left
  induction left with
  | zero =>
    intro made st c _
    refine ⟨made, st, .empty, ?_, fun _ hst => ⟨hst, .empty⟩⟩
    rw [Course.extend_empty]
    rfl
  | succ left ih =>
    intro made st c hst
    -- After this round the point is real anyway; that it is interior needs the searches accepted.
    obtain ⟨st₁, done, d, hround, hreal, hinside⟩ := round_isInterior hp hs hst (made + 1) c
    unfold Constrained.rounds
    rw [perform_bind_of_ok hround]
    cases done with
    | true => exact ⟨made + 1, st₁, d, rfl, hinside⟩
    | false =>
      obtain ⟨made', st', e, hrounds, hrest⟩ := ih (made + 1) st₁ (c.extend d) hreal
      refine ⟨made', st', d ++ e, ?_, fun hunexhausted hst => ?_⟩
      · rw [← Course.extend_extend]
        exact hrounds
      · obtain ⟨hd, he⟩ := Segment.unexhausted_append.mp hunexhausted
        obtain ⟨hst₁, hd⟩ := hinside hd hst
        obtain ⟨hst', he⟩ := hrest he hst₁
        exact ⟨hst', hd.append he⟩

/-- A run succeeds from every array of the shape. -/
theorem run_isInterior (hp : s.problem.Realizes shape f gs) (hs : s.settings.IsReal inner decay)
    {w : ℝ} (hw : s.settings.initialWeight = ofReal w) {guess : Tensor α} {v : Point n}
    (hg : guess.Represents shape v) (c : Course α) :
    ∃ x d report, perform (run s guess) c = (.ok x, { c.extend d with report }) ∧
      (d.Unexhausted → StrictlyFeasible gs v → x.IsInterior shape gs ∧ d.IsInterior gs) := by
  have hx : ∃ v : Point n, (guess.convert s.precision).Represents shape v := ⟨v, hg.convert _⟩
  obtain ⟨told, d₁, htell, hinside₁⟩ := tellInfeasible_isInterior hp hx none false c
  obtain ⟨t, hsnapshot, ht⟩ := snapshot_isInterior hp hx w
  obtain ⟨made, st, d₂, hrounds, hinside₂⟩ := rounds_isInterior hp hs s.settings.maxRounds.toNat 0
    ⟨guess.convert s.precision, s.settings.initialWeight, told⟩
    ((c.extend d₁).extend ⟨[t], [], []⟩) ⟨hx, w, hw⟩
  refine ⟨st.point, d₁ ++ ⟨[t], [], []⟩ ++ d₂, ⟨[], st.weight, made⟩, ?_, ?_⟩
  · unfold run
    dsimp only
    rw [perform_bind_of_ok htell, hw, perform_bind_of_ok (perform_snapshot hsnapshot _), ← hw,
      perform_bind_of_ok hrounds, perform_bind_of_ok (perform_conclude _ _)]
    simp only [Course.extend_extend]
    rfl
  · intro hunexhausted hv
    simp only [Segment.unexhausted_append] at hunexhausted
    have hstart := (hg.convert s.precision).isInterior_iff.mpr hv
    obtain ⟨htold, hd₁⟩ := hinside₁ hstart rfl
    obtain ⟨⟨hpoint, -⟩, hd₂⟩ := hinside₂ hunexhausted.2 ⟨hstart, htold⟩
    exact ⟨hpoint, (hd₁.append (.snapshot (ht hstart))).append hd₂⟩

/-- The barrier method on exact numbers with an infinity, for a problem of real functions, a
strictly feasible guess of the right size and any real settings, succeeds. If it tells of no
exhausted line search, the point that it returns and every position in the histories that it adds
are strictly feasible. Every snapshot that it adds is one of a strictly feasible point, with a
finite loss and finite multipliers whose products with the constraint values are minus the weight,
and no infeasible point is told of. -/
theorem minimize_isInterior {p : Problem Id α} (hp : p.Realizes shape f gs)
    (hdim : (Value.int n).agrees p.dimension = true) {guess : Tensor α} {v : Point n}
    (hg : guess.Represents shape v) (hv : StrictlyFeasible gs v) (q : Precision) (maxRounds : Int)
    (initialWeight decay : ℝ) (tolerance : Option ℝ) (inner : GradientDescent.Settings ℝ)
    (c : Course α) :
    ∃ x d report,
      perform (minimize q p (.ok (.ofReals maxRounds initialWeight decay tolerance inner)) guess) c
        = (.ok x, { c.extend d with report }) ∧
      (d.Unexhausted → x.IsInterior shape gs ∧ d.IsInterior gs) := by
  let settings : Settings α := .ofReals maxRounds initialWeight decay tolerance inner
  have hs : settings.IsReal inner decay := by
    refine ⟨rfl, rfl, ?_⟩
    cases tolerance with
    | none => exact Or.inl rfl
    | some t => exact Or.inr ⟨t, rfl⟩
  obtain ⟨x, d, report, hrun, hinside⟩ :=
    run_isInterior (s := ⟨q, p, settings⟩) hp hs (w := initialWeight) rfl hg c
  refine ⟨x, d, report, ?_, fun hunexhausted => hinside hunexhausted hv⟩
  have hstart : checkStart p guess = .ok () := by
    rw [checkStart, hg.size_eq, if_pos hdim]
  unfold minimize
  rw [perform_bind_of_ok (perform_lift_eq_ok.mpr ⟨hstart, rfl⟩),
    perform_bind_of_ok (perform_lift_eq_ok.mpr ⟨rfl, rfl⟩)]
  exact hrun

/-- The problem of making the only coordinate small where it is positive. -/
def leastPositive : Problem Id α where
  dimension := .int 1
  objective := .plain (some fun x => do return .ofNumber (← x.get 0))
  gradient := .held (.vector .double [Scalar.one])
  constraints := [.plain (some fun x => do return .ofNumber (-(← x.get 0)))]
  constraintGradients := [.held (.vector .double [-Scalar.one])]
  one_le_dimension := Value.isBelow_one
  length_gradients := rfl

theorem realizes_leastPositive :
    (leastPositive : Problem Id α).Realizes [1] ⟨fun v : Point 1 => v 0, fun _ => .single 0 1⟩
      [⟨fun v => -v 0, fun _ => .single 0 (-1)⟩] := by
  have hget {x : Tensor α} {v : Point 1} (hx : x.Represents [1] v) :
      x.get 0 = .ok (ofReal (v 0)) := by
    rw [Tensor.get, hx.size_eq, hx.entries_eq, List.ofFn_succ]
    rfl
  have hvector (a : ℝ) :
      (Tensor.vector .double [ofReal a] : Tensor α).Represents [1] (.single 0 a : Point 1) := by
    refine ⟨rfl, (Tensor.entries_vector (α := α) .double id [a]).trans ?_⟩
    simp
  refine ⟨⟨fun hx => ?_, fun _ => ⟨_, rfl, ?_⟩⟩, .cons ⟨fun hx => ?_, fun _ => ⟨_, rfl, ?_⟩⟩ .nil⟩
  · show ((liftM (Tensor.get _ 0) : Evaluation Id α) >>= _) >>= _ = _
    rw [hget hx]
    rfl
  · rw [one_eq]
    exact hvector 1
  · show ((liftM (Tensor.get _ 0) : Evaluation Id α) >>= _) >>= _ = _
    rw [hget hx, ofReal_neg]
    rfl
  · rw [one_eq, ← ofReal_neg]
    exact hvector (-1)

/-- Two rounds from the number one, in the extended real numbers. -/
theorem minimize_isInterior_leastPositive :
    let gs : List (Landscape 1) := [⟨fun v => -v 0, fun _ => .single 0 (-1)⟩]
    let guess : Tensor EReal := .ofPoint .double (.single 0 1 : Point 1)
    let inner : GradientDescent.Settings ℝ := ⟨1, 1 / 2, 6 / 5, 1 / 10 ^ 8, 1 / 100, 100, 20⟩
    let course : Course EReal := ⟨⟨[], 0, 0⟩, some [], some [], []⟩
    ((Value.int 1).agrees (leastPositive : Problem Id EReal).dimension = true ∧
      guess.Represents [1] (.single 0 1 : Point 1) ∧ StrictlyFeasible gs (.single 0 1)) ∧
    ∃ x d report,
      perform (minimize .double leastPositive (.ok (.ofReals 2 8 (1 / 2) none inner)) guess) course
        = (.ok x, { course.extend d with report }) ∧
      (d.Unexhausted → x.IsInterior [1] gs ∧ d.IsInterior gs) := by
  intro gs guess inner course
  have hg : guess.Represents [1] (.single 0 1 : Point 1) := Tensor.represents_ofPoint .double _
  have hv : StrictlyFeasible gs (.single 0 1) := by
    simp [StrictlyFeasible, gs]
  exact ⟨⟨rfl, hg, hv⟩,
    minimize_isInterior realizes_leastPositive rfl hg hv .double 2 8 (1 / 2) none inner course⟩

end LogBarrier

end Minimization
