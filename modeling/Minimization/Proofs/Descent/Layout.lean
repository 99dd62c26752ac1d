import Minimization.Descent.Moments
import Minimization.Proofs.Descent.Blocks

/-!
# The layout of a history

What a completed descent leaves in a history that was empty is laid out by its iterations: one more
position and loss than iterations, one direction for each, and step sizes in blocks. The iterations are
the `Entry`s of the history; `GradientDescent.Layout` and `Adam.Layout` say where each of their parts
comes from and how one iteration leads to the next one.

For gradient descent the entries of a loop are known from `Blocks`; here the same is done for moment
descent, whose blocks are single sizes. In both cases the end of a run adds one more position and its loss,
which is evaluated in the world that the last iteration has left (`leads_of_run_ok`).
-/

namespace Minimization

variable {m : Type → Type} [Monad m] {ω : Type} [Stateful m ω] {α : Type} [Scalar α]

/-! ## Gradient descent -/

/-- A notice of the end of a gradient descent. -/
def Notice.isEnding : Notice α → Bool
  | .descentEnded .. => true
  | _ => false

namespace GradientDescent

/-- A completed descent from `guess` with its entries: what the history `h` shows of it, where the loss
at the end is evaluated in the world `w`. -/
structure Layout (s : Setup m α) (guess : Tensor α) (u : ω) (es : List (Entry α ω)) (h : History α)
    (y : Tensor α) (report : Report α) (w v : ω) : Prop where
  shown : h.Layout es (guess.convert s.precision) y u w report
  nonempty : es ≠ []
  prepared : ∀ e ∈ es, attempt s.before e.start = (.ok (), e.prepared)
  loss : ∀ e ∈ es, ∃ u', attempt (s.loss.number e.point) e.prepared = (.ok e.loss, u')
  final_loss : attempt (s.loss.number y) w = (.ok report.loss, v)
  block : ∀ e ∈ es, ∃ a n, Searches s e a n ∧ n ≤ s.settings.maxShrinks.toNat ∧
    e.sizes.length = n + 1 ∧ e.sizes.head? = some a ∧
    (e.sizes.IsChain fun b c => c = b * s.settings.shrinkFactor) ∧ e.sizes.getLast? = some e.reported
  first_size : ∀ e : Entry α ω, es[0]? = some e → e.sizes.head? = some s.settings.initialStep
  next_size : ∀ (k : Nat) (e e' : Entry α ω), es[k]? = some e → es[k + 1]? = some e' →
    e'.sizes.head? = some (e.reported * s.settings.growthFactor)
  last_size : h.stepSizes.getLast? = some report.stepSize
  moved : ∀ e ∈ es, e.point.moveBy (e.direction.scale e.reported) = .ok e.next
  double : s.precision = .double → ∀ e ∈ es, e.point.precision = .double
  unrounded : ∀ e ∈ es, (∀ b : α, Scalar.round e.point.precision b = b) →
    (∀ b : α, Scalar.round e.direction.precision b = b) →
    e.next.toVector.entries = List.zipWith (fun x d => x + d * e.reported) e.point.toVector.entries
      e.direction.toVector.entries

/-- The first size of a block is the one that the iteration was handed. -/
theorem Makes.head_size {s : Setup m α} {a b : α} {e : Entry α ω} (h : Makes s a e b) :
    e.sizes.head? = some a := by
  obtain ⟨n, -, hsizes⟩ := h.searched
  rw [hsizes]
  rfl

/-- Where nothing is rounded, the recorded positions are moved along the recorded direction. -/
theorem Makes.unrounded {s : Setup m α} {a b : α} {e : Entry α ω} (h : Makes s a e b)
    (hdouble : ∀ b : α, Scalar.round .double b = b)
    (hx : ∀ b : α, Scalar.round e.point.precision b = b)
    (hd : ∀ b : α, Scalar.round e.direction.precision b = b) :
    e.next.toVector.entries = List.zipWith (fun x d => x + d * e.reported) e.point.toVector.entries
      e.direction.toVector.entries := by
  have hvector : ∀ t : Tensor α, t.toVector.entries = t.entries := by
    intro t
    show t.entries.map (Scalar.round .double) = t.entries
    exact (List.map_congr_left fun b _ => hdouble b).trans (List.map_id _)
  obtain ⟨n, hsearches, -⟩ := h.searched
  rw [hvector, hvector, hvector]
  exact Tensor.entries_of_moveBy_scale_ok hx hd hsearches.size_eq h.next_eq

/-- Points in double precision stay so. -/
theorem double_of_leadsTo {s : Setup m α} {p q : Standing α α ω} {e : Entry α ω}
    (h : e.LeadsTo (Makes s) p q) (hp : p.point.precision = .double) : q.point.precision = .double := by
  have hx : e.point.precision = .double := by rw [h.point_eq, hp]
  rw [← h.next_eq]
  exact Tensor.double_of_moveBy_ok hx h.made.next_eq

/-- The last step size that is recorded is the last one of the last block. -/
theorem getLast?_flatten_sizes {s : Setup m α} {p q : Standing α α ω} {es : List (Entry α ω)}
    (h : Leads (Makes s) p es q) (hne : es ≠ []) (c : α) :
    (es.map Entry.sizes).flatten.getLast? = some ((es.map Entry.reported).getLastD c) := by
  induction h generalizing c with
  | none => exact absurd rfl hne
  | @cons p q r e es he hes ih =>
    rw [List.map_cons, List.flatten_cons, List.getLast?_append, List.map_cons, List.getLastD_cons]
    cases hes with
    | none => exact he.made.last_size
    | cons _ _ =>
      rw [ih (List.cons_ne_nil _ _) e.reported]
      rfl

/-- A descent that ends has made the entries of its history, and has evaluated the loss at the end. It
tells of its end once. -/
theorem leads_of_run_ok {s : Setup m α} {guess y : Tensor α} {u v : ω} {r₀ r : Run α}
    (h : attempt (run s guess) (r₀, u) = (.ok y, r, v)) :
    ∃ es q, Halts s.settings.IsSmall (s.settings.maxSteps - 1).toNat es ∧ q.point = y ∧
      Leads (Makes s) ⟨s.settings.initialStep, guess.convert s.precision, r₀, u⟩ es q ∧
      attempt (s.loss.number y) q.world = (.ok r.report.loss, v) ∧ r.report.iterations = es.length ∧
      r.report.stepSize = q.run.report.stepSize ∧
      (r.history = q.run.history.map fun h => (h.addPosition y.flatten).addLoss r.report.loss) ∧
      ∃ told, r.notices = r₀.notices ++ told ∧ told.countP Notice.isEnding = 1 := by
  unfold run at h
  simp only [attempt_bind_eq_ok, attempt_evaluate_eq_ok, attempt_record_eq_ok,
    attempt_reporting_eq_ok] at h
  obtain ⟨ending, w, hi, _, _, rfl, loss, w₁, ⟨hloss, hrun⟩, _, _, rfl, _, _, rfl, h⟩ := h
  obtain ⟨es, b, hhalts, hes, hsteps⟩ := leads_of_iterate_ok hi
  rw [Nat.zero_add] at hsteps
  -- What is told at the end changes neither the report nor the history.
  have hend : ending.point = y ∧ w₁.2 = v ∧ r.report = { w₁.1.report with loss } ∧
      (r.history = w₁.1.history.map fun h => (h.addPosition ending.point.flatten).addLoss loss) ∧
      ∃ told, r.notices = w₁.1.notices ++ told ∧ told.countP Notice.isEnding = 1 := by
    split at h
    all_goals
      simp only [attempt_bind, attempt_notify, attempt_pure, Prod.mk.injEq, Except.ok.injEq] at h
      obtain ⟨hpoint, rfl, hworld⟩ := h
    · exact ⟨hpoint, hworld, rfl, rfl, _, List.append_assoc _ _ _, rfl⟩
    · exact ⟨hpoint, hworld, rfl, rfl, _, rfl, rfl⟩
  obtain ⟨rfl, rfl, hreport, hhistory, told, htold, hcount⟩ := hend
  rw [← hrun] at hreport hhistory htold
  have hnotices : w.1.notices = r₀.notices := (congrArg (·.notices) hes.run_eq :)
  rw [hreport]
  exact ⟨es, _, hhalts, rfl, hes, hloss, hsteps, rfl, hhistory, told, hnotices ▸ htold, hcount⟩

/-- A descent leads to an array of the same shape. -/
theorem shape_of_run_ok {s : Setup m α} {guess y : Tensor α} {u v : ω} {r₀ r : Run α}
    (h : attempt (run s guess) (r₀, u) = (.ok y, r, v)) : y.shape = guess.shape := by
  obtain ⟨es, q, -, rfl, hes, -⟩ := leads_of_run_ok h
  refine hes.keeps (I := fun p => p.point.shape = guess.shape) rfl fun {p e q} he hp => ?_
  rw [← he.next_eq, Tensor.shape_of_moveBy_ok he.made.next_eq, he.point_eq, hp]

/-- If the gradients have the precision of the descent, the point that it leads to is kept with it. -/
theorem isKept_of_run_ok {s : Setup m α}
    (hround : ∀ a : α, Scalar.round s.precision (Scalar.round s.precision a) = Scalar.round s.precision a)
    (hgradient : ∀ x g u u', attempt (s.gradient x) u = (.ok g, u') → g.precision = s.precision)
    {guess y : Tensor α} {u v : ω} {r₀ r : Run α}
    (h : attempt (run s guess) (r₀, u) = (.ok y, r, v)) : y.IsKept s.precision := by
  obtain ⟨es, q, -, rfl, hes, -⟩ := leads_of_run_ok h
  refine hes.keeps (I := fun p => p.point.IsKept s.precision) (Tensor.isKept_convert hround guess)
    fun {p e q} he hp => ?_
  obtain ⟨n, hsearches, -⟩ := he.made.searched
  have hx : e.point.precision = s.precision := by rw [he.point_eq, hp.precision_eq]
  have hstep : (e.direction.scale e.reported).precision = s.precision :=
    hsearches.precision_eq hgradient
  rw [← he.next_eq]
  exact Tensor.isKept_of_moveBy_ok hround hx hstep he.made.next_eq

/-- A descent that ends, with an empty history at its start, leaves one that is laid out. -/
theorem layout_of_run_ok {s : Setup m α} (hround : ∀ b : α, Scalar.round .double b = b)
    {guess y : Tensor α} {report : Report α} {notices : List (Notice α)} {u v : ω} {r : Run α}
    (h : attempt (run s guess) (⟨report, some .empty, notices⟩, u) = (.ok y, r, v)) :
    ∃ es h w, r.history = some h ∧ Layout s guess u es h y r.report w v := by
  obtain ⟨es, q, hhalts, rfl, hes, hloss, hiterations, hsize, hhistory, -⟩ := leads_of_run_ok h
  -- What every leg of the chain made is read off it; what connects two legs, from a pair of them.
  rw [hes.run_eq] at hsize hhistory
  refine ⟨es, _, q.world, hhistory, ?_⟩
  refine ⟨hes.layout hiterations, hhalts.ne_nil, fun e he => ?_, fun e he => ?_, hloss, fun e he => ?_,
    fun e he => ?_, fun k e e' hk hk' => ?_, ?_, fun e he => ?_, fun hprecision e he => ?_, fun e he => ?_⟩
  · obtain ⟨_, _, he⟩ := hes.made_of_mem he
    exact he.made.prepared
  · obtain ⟨_, _, he⟩ := hes.made_of_mem he
    obtain ⟨n, hsearches, -⟩ := he.made.searched
    exact hsearches.loss_eq
  · obtain ⟨p, _, he⟩ := hes.made_of_mem he
    obtain ⟨n, hsearches, hsizes⟩ := he.made.searched
    refine ⟨p.state, n, hsearches, hsearches.le, ?_, he.made.head_size, ?_, he.made.last_size⟩
    · rw [hsizes, Settings.length_block]
    · rw [hsizes]
      exact Settings.isChain_block _ p.state n
  · obtain ⟨_, he⟩ := hes.head he
    exact he.made.head_size
  · obtain ⟨_, _, _, he, he'⟩ := hes.consecutive hk hk'
    rw [he'.made.head_size, he.made.handed]
  · rw [hsize]
    exact getLast?_flatten_sizes hes hhalts.ne_nil _
  · obtain ⟨_, _, he⟩ := hes.made_of_mem he
    exact he.made.next_eq
  · obtain ⟨k, hk⟩ := List.mem_iff_getElem?.mp he
    obtain ⟨_, _, he, hx⟩ := hes.invariant_at (I := fun _ p => p.point.precision = .double) (n := 0)
      hprecision double_of_leadsTo hk
    rw [he.point_eq]
    exact hx
  · obtain ⟨_, _, he⟩ := hes.made_of_mem he
    exact he.made.unrounded hround

end GradientDescent

/-! ## Moment descent -/

namespace Adam

/-- What an iteration with a number and moments shows in the history, and those that it hands on. -/
structure Makes (s : Setup m α) (a : Nat × Moments α) (e : Entry α ω) (b : Nat × Moments α) : Prop where
  prepared : attempt s.before e.start = (.ok (), e.prepared)
  evaluated : ∃ u, attempt (s.loss.number e.point) e.prepared = (.ok e.loss, u) ∧
    attempt (s.gradient e.point) u = (.ok e.direction, e.finish)
  sizes : ∃ size, correctedStep s.settings a.1 = .ok size ∧ e.sizes = [size]
  number : b.1 = a.1 + 1
  moved : ∃ size step, correctedStep s.settings a.1 = .ok size ∧
    a.2.update s.settings e.direction = .ok b.2 ∧ stepOf s.precision s.settings b.2 size = .ok step ∧
    e.point.moveBy step = .ok e.next ∧ e.reported = step.norm

/-- An iteration that succeeds makes an entry, and its number goes up by one. -/
theorem leadsTo_of_iteration_ok {s : Setup m α} {t : Nat} {x y : Tensor α} {ms ms' : Moments α}
    {length : α} {w w' : Run α × ω}
    (h : attempt (iteration s t x ms) w = (.ok (ms', length, y), w')) :
    ∃ e : Entry α ω, length = e.reported ∧
      e.LeadsTo (Makes s) ⟨(t, ms), x, w.1, w.2⟩ ⟨(t + 1, ms'), y, w'.1, w'.2⟩ := by
  unfold iteration at h
  simp only [attempt_bind_eq_ok, attempt_lift_eq_ok, attempt_evaluate_eq_ok, attempt_record_eq_ok,
    attempt_reporting_eq_ok, attempt_pure_eq_ok, Prod.mk.injEq] at h
  obtain ⟨_, w₀, ⟨hbefore, hrun₀⟩, loss, w₁, ⟨hloss, hrun₁⟩, gradient, w₂, ⟨hgradient, hrun₂⟩, _, _,
    ⟨-, rfl⟩, after, _, ⟨hafter, rfl⟩, size, _, ⟨hsize, rfl⟩, step, _, ⟨hstep, rfl⟩, _, _, rfl, next, _,
    ⟨hnext, rfl⟩, _, _, rfl, ⟨rfl, rfl, rfl⟩, rfl⟩ := h
  refine ⟨⟨x, loss, gradient, [size], next, step.norm, w.2, w₀.2, w₂.2⟩, rfl,
    ⟨hbefore, ⟨w₁.2, hloss, hgradient⟩, ⟨size, hsize, rfl⟩, rfl,
      ⟨size, step, hsize, hafter, hstep, hnext, rfl⟩⟩, rfl, rfl, rfl, ?_, rfl⟩
  dsimp only
  rw [← hrun₂, ← hrun₁, ← hrun₀]
  rfl

/-- The step of an iteration is no longer than the length that ends a descent. -/
def Settings.IsSmall (h : Settings α) (e : Entry α ω) : Prop :=
  Scalar.le e.reported h.terminationStep = true

/-- The iterations of a loop that ends make the entries of its history. -/
theorem leads_of_iterate_ok {s : Setup m α} {left t steps : Nat} {x y : Tensor α} {ms : Moments α}
    {w w' : Run α × ω} (h : attempt (iterate s left t x ms) w = (.ok (steps, y), w')) :
    ∃ es state, Halts s.settings.IsSmall left es ∧
      Leads (Makes s) ⟨(t, ms), x, w.1, w.2⟩ es ⟨state, y, w'.1, w'.2⟩ ∧ steps + 1 = t + es.length := by
  induction left generalizing t x ms w with
  | zero =>
    unfold iterate at h
    obtain ⟨⟨ms', length, y'⟩, w₁, hi, h⟩ := attempt_bind_eq_ok.mp h
    obtain ⟨e, -, he⟩ := leadsTo_of_iteration_ok hi
    obtain ⟨hresult, rfl⟩ := attempt_pure_eq_ok.mp h
    obtain ⟨rfl, rfl⟩ := Prod.mk.inj hresult
    exact ⟨[e], _, .last, .cons he .none, rfl⟩
  | succ left ih =>
    unfold iterate at h
    obtain ⟨⟨ms', length, y'⟩, w₁, hi, h⟩ := attempt_bind_eq_ok.mp h
    obtain ⟨e, hlength, he⟩ := leadsTo_of_iteration_ok hi
    dsimp only at h
    rw [hlength] at h
    split at h
    next hsmall =>
      obtain ⟨hresult, rfl⟩ := attempt_pure_eq_ok.mp h
      obtain ⟨rfl, rfl⟩ := Prod.mk.inj hresult
      exact ⟨[e], _, .small hsmall, .cons he .none, rfl⟩
    next hlarge =>
      obtain ⟨es, state, hhalts, hes, hsteps⟩ := ih h
      refine ⟨e :: es, state, .step hlarge hhalts, .cons he hes, ?_⟩
      rw [hsteps, List.length_cons]
      omega

/-- A completed descent from `guess` with its entries: what the history `h` shows of it, where the loss
at the end is evaluated in the world `w`. -/
structure Layout (s : Setup m α) (guess : Tensor α) (u : ω) (es : List (Entry α ω)) (h : History α)
    (y : Tensor α) (report : Report α) (w v : ω) : Prop where
  shown : h.Layout es (guess.convert s.precision) y u w report
  prepared : ∀ e ∈ es, attempt s.before e.start = (.ok (), e.prepared)
  evaluated : ∀ e ∈ es, ∃ u', attempt (s.loss.number e.point) e.prepared = (.ok e.loss, u') ∧
    attempt (s.gradient e.point) u' = (.ok e.direction, e.finish)
  final_loss : attempt (s.loss.number y) w = (.ok report.loss, v)
  length_stepSizes : h.stepSizes.length = es.length
  size : ∀ (k : Nat) (e : Entry α ω), es[k]? = some e →
    ∃ size, correctedStep s.settings (k + 1) = .ok size ∧ e.sizes = [size]

/-- A run that ends has made its entries, then evaluates the loss where they have led to, and records
that. -/
theorem leads_of_run_ok {s : Setup m α} {guess y : Tensor α} {u v : ω} {r₀ r : Run α}
    (h : attempt (run s guess) (r₀, u) = (.ok y, r, v)) :
    ∃ es q, Halts s.settings.IsSmall (s.settings.maxSteps - 1).toNat es ∧ q.point = y ∧
      Leads (Makes s)
        ⟨(1, .start (guess.convert s.precision)), guess.convert s.precision, r₀, u⟩ es q ∧
      attempt (s.loss.number y) q.world = (.ok r.report.loss, v) ∧ r.report.iterations = es.length ∧
      r.history = q.run.history.map fun h => (h.addPosition y.flatten).addLoss r.report.loss := by
  unfold run at h
  simp only [attempt_bind_eq_ok, attempt_evaluate_eq_ok, attempt_record_eq_ok,
    attempt_reporting_eq_ok] at h
  obtain ⟨⟨steps, x⟩, w, hi, _, _, rfl, loss, w₁, ⟨hloss, hrun⟩, _, _, rfl, _, _, rfl, h⟩ := h
  obtain ⟨es, state, hhalts, hes, hsteps⟩ := leads_of_iterate_ok hi
  simp only [attempt_report, attempt_notify, attempt_pure_eq_ok, Prod.mk.injEq] at h
  obtain ⟨_, _, ⟨-, rfl⟩, _, _, ⟨-, rfl⟩, rfl, rfl, rfl⟩ := h
  refine ⟨es, _, hhalts, rfl, hes, hloss, ?_, ?_⟩
  · show w₁.1.report.iterations = es.length
    rw [← hrun]
    show steps = es.length
    omega
  · show w₁.1.history.map _ = _
    rw [← hrun]
    rfl

/-- A descent that ends, with an empty history at its start, leaves one that is laid out. -/
theorem layout_of_run_ok {s : Setup m α} {guess y : Tensor α} {report : Report α}
    {notices : List (Notice α)} {u v : ω} {r : Run α}
    (h : attempt (run s guess) (⟨report, some .empty, notices⟩, u) = (.ok y, r, v)) :
    ∃ es h w, r.history = some h ∧ Layout s guess u es h y r.report w v := by
  obtain ⟨es, q, -, rfl, hes, hloss, hiterations, hhistory⟩ := leads_of_run_ok h
  rw [hes.run_eq] at hhistory
  have hlayout := hes.layout hiterations
  refine ⟨es, _, q.world, hhistory, hlayout, fun e he => ?_, fun e he => ?_, hloss, ?_,
    fun k e hk => ?_⟩
  · obtain ⟨_, _, he⟩ := hes.made_of_mem he
    exact he.made.prepared
  · obtain ⟨_, _, he⟩ := hes.made_of_mem he
    exact he.made.evaluated
  · -- Every block has one size.
    have hsizes : ∀ l ∈ es.map Entry.sizes, l.length = 1 := by
      intro l hl
      obtain ⟨e, he, rfl⟩ := List.mem_map.mp hl
      obtain ⟨_, _, he⟩ := hes.made_of_mem he
      obtain ⟨size, -, hsize⟩ := he.made.sizes
      rw [hsize, List.length_singleton]
    rw [hlayout.stepSizes_eq, Tensor.length_flatten_of_forall hsizes, List.length_map, Nat.mul_one]
  · have hnumber : ∀ {n p e q}, Entry.LeadsTo (Makes s) p e q → p.state.1 = n → q.state.1 = n + 1 := by
      intro n p e q he hp
      rw [he.made.number, hp]
    obtain ⟨p, _, he, hp⟩ := hes.invariant_at (I := fun n p => p.state.1 = n) (n := 1) rfl hnumber hk
    obtain ⟨size, hsize, hsizes⟩ := he.made.sizes
    rw [hp, Nat.add_comm] at hsize
    exact ⟨size, hsize, hsizes⟩

end Adam

end Minimization
