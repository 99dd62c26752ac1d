import Minimization.Proofs.Constrained.Tolerance
import Minimization.Proofs.Constrained.Total

/-!
# The records of the method of multipliers

A round of the method of multipliers leaves two snapshots, one before and one after its inner descent,
and the history of that descent: a `Leg`. `Leg.LeadsTo` says how the three belong together, and how the
multipliers and the weight change between the second snapshot of a leg and the first one of the next.
`Layout` reads the records of a whole run by positions.

That snapshots show exactly what the solver stands at takes a law of rounding: what is kept with double
precision is not rounded once more. It holds of floats and of exact numbers.
-/

namespace Minimization

/-- Of the two items that every element gives, the first ones are at the even positions and the second
ones at the odd positions. -/
theorem getElem?_flatMap_pair {β ε : Type} (f g : ε → β) (es : List ε) (k : Nat) :
    (es.flatMap fun e => [f e, g e])[2 * k]? = es[k]?.map f ∧
      (es.flatMap fun e => [f e, g e])[2 * k + 1]? = es[k]?.map g := by
  induction es generalizing k with
  | nil => exact ⟨rfl, rfl⟩
  | cons e es ih =>
    cases k with
    | zero => exact ⟨rfl, rfl⟩
    | succ k => exact ih k

theorem getLast?_flatMap_pair {β ε : Type} (f g : ε → β) (es : List ε) :
    (es.flatMap fun e => [f e, g e]).getLast? = es.getLast?.map g := by
  rcases es.eq_nil_or_concat with rfl | ⟨es, e, rfl⟩
  · rfl
  · simp

namespace AugmentedLagrangian

/-! ## Legs -/

section Legs

variable {α : Type}

/-- What a round adds to the records of a run. -/
structure Leg (α : Type) where
  before : Snapshot α
  after : Snapshot α
  history : History α

/-- The snapshots of some legs. -/
def snapshots (ls : List (Leg α)) : List (Snapshot α) := ls.flatMap fun l => [l.before, l.after]

variable {ls : List (Leg α)} {k : Nat} {t t' : Snapshot α} {h : History α}

/-- Snapshots come in pairs: those at even positions were taken before a descent. -/
theorem before_of_snapshots (ht : (snapshots ls)[2 * k]? = some t) :
    ∃ l, ls[k]? = some l ∧ l.before = t := by
  rw [snapshots, (getElem?_flatMap_pair Leg.before Leg.after ls k).1] at ht
  exact Option.map_eq_some_iff.mp ht

/-- Those at odd positions were taken after it. -/
theorem after_of_snapshots (ht : (snapshots ls)[2 * k + 1]? = some t) :
    ∃ l, ls[k]? = some l ∧ l.after = t := by
  rw [snapshots, (getElem?_flatMap_pair Leg.before Leg.after ls k).2] at ht
  exact Option.map_eq_some_iff.mp ht

theorem last_of_snapshots (ht : (snapshots ls).getLast? = some t) :
    ∃ l, ls[ls.length - 1]? = some l ∧ l.after = t := by
  rw [snapshots, getLast?_flatMap_pair, List.getLast?_eq_getElem?] at ht
  exact Option.map_eq_some_iff.mp ht

/-- Two snapshots and a history that stand at the places of one leg are those of this leg. -/
theorem leg_of_records (ht : (snapshots ls)[2 * k]? = some t) (ht' : (snapshots ls)[2 * k + 1]? = some t')
    (hh : (ls.map Leg.history)[k]? = some h) : ls[k]? = some ⟨t, t', h⟩ := by
  obtain ⟨l, hl, rfl⟩ := before_of_snapshots ht
  obtain ⟨l', hl', rfl⟩ := after_of_snapshots ht'
  obtain rfl := Option.some.inj (hl.symm.trans hl')
  rw [List.getElem?_map, hl] at hh
  obtain rfl := Option.some.inj hh
  exact hl

end Legs

variable {α : Type} [Scalar α] {s : Setup Id α}

/-! ## One round -/

/-- A snapshot shows a point under the multipliers and the weight of a state, where `f` is its augmented
objective. -/
structure Shows (s : Setup Id α) (t : Snapshot α) (st : State α) (f : ScalarFunction Id α)
    (x : Tensor α) : Prop where
  point_eq : t.point = x.toVector
  multipliers_eq : t.multipliers = st.multiplierVector
  weight_eq : t.weight = st.weight
  constraints_eq : s.problem.constraintValues x = pure t.constraints.entries
  loss_eq : f.evaluate x = pure t.loss

/-- A round leads from one state and course to others, and adds a leg to the course. -/
structure Leg.LeadsTo (s : Setup Id α) (p : State α × Course α) (l : Leg α) (q : State α × Course α) :
    Prop where
  solved : ∃ f, s.objective p.1 = .ok f ∧ Shows s l.before p.1 f p.1.point ∧
    Shows s l.after p.1 f q.1.point ∧ l.history.Spans f p.1.point q.1.point ∧
    (s.descent f p.1.point).Records q.1.point l.history
  multipliers_eq : q.1.multipliers = raised p.1.multipliers p.1.weight l.after.constraints.entries
  weight_eq : q.1.weight = p.1.weight * s.settings.growth
  course_eq : ∃ notices, q.2 = p.2.extend ⟨[l.before, l.after], [l.history], notices⟩

/-- A snapshot shows the state that it was taken of, and the objective and the constraints at its point. -/
theorem shows_of_snapshot_ok (hround : ∀ a : α, Scalar.round .double a = a) {t : Snapshot α}
    {st : State α} {f : ScalarFunction Id α} {x : Tensor α} (h : s.snapshot st f x = pure t) :
    Shows s t st f x := by
  unfold Setup.snapshot at h
  obtain ⟨fx, -, h⟩ := Evaluation.bind_eq_pure.mp h
  obtain ⟨gx, hgx, h⟩ := Evaluation.bind_eq_pure.mp h
  obtain ⟨loss, hloss, h⟩ := Evaluation.bind_eq_pure.mp h
  obtain rfl := Evaluation.pure_inj.mp h
  refine ⟨rfl, rfl, rfl, ?_, hloss⟩
  rw [Tensor.entries_vector_of_round hround]
  exact hgx

/-- Every round of a recording run adds a leg. -/
theorem leg_of_advances (hround : Scalar.RoundsOnce α s.precision) {guess : Tensor α} {number : Nat}
    {p q : State α × Course α} (h : (s.scheme guess).Advances p number q)
    (hp : p.2.IsRecording s.precision p.1.point) :
    ∃ l, Leg.LeadsTo s p l q ∧ q.2.IsRecording s.precision q.1.point := by
  obtain ⟨done, h⟩ := h
  change perform (round s number p.1) p.2 = _ at h
  rw [round_eq] at h
  obtain ⟨r, c₄, hadvance, hsettle⟩ := perform_bind_eq_ok.mp h
  obtain ⟨hnext, notices₄, hc₄, -⟩ := Constrained.settle_ok hsettle
  obtain ⟨f, x, gx, c₁, c₂, c₃, notice, hf, hbefore, hx, hafter, hgx, rfl, rfl⟩ := advance_ok hadvance
  dsimp only at hnext
  -- The first snapshot, the descent and the second snapshot, each on the course that the one before left.
  obtain ⟨before, htaken, rfl⟩ := perform_snapshot_eq_ok hbefore hp.trace
  obtain ⟨hkept, history, notices₂, hrecords, hspans, rfl⟩ :=
    (descent_isAlong hf p.1.point).records hround
      (fun _ _ _ _ heval => Problem.precision_of_augmentedGradient_ok heval)
      (hp.extend hp.kept ⟨[before], [], []⟩) hx
  rw [Course.extend_extend] at hafter
  obtain ⟨after, htaken', rfl⟩ :=
    perform_snapshot_eq_ok hafter (Course.isSome_trace_extend hp.trace _)
  have hshows := shows_of_snapshot_ok hround.double htaken'
  obtain ⟨notices, hcourse⟩ : ∃ notices, q.2 = p.2.extend ⟨[before, after], [history], notices⟩ := by
    simp only [Course.extend_extend] at hc₄
    exact ⟨_, hc₄⟩
  -- The multipliers are raised by values computed once more, which the second snapshot shows as well.
  obtain rfl : gx = after.constraints.entries :=
    Evaluation.pure_inj.mp (hgx.symm.trans hshows.constraints_eq)
  refine ⟨⟨before, after, history⟩, ⟨⟨f, hf, ?_, ?_, ?_, ?_⟩, ?_, ?_, notices, hcourse⟩, ?_⟩
  · exact shows_of_snapshot_ok hround.double htaken
  · rw [← hnext]
    exact hshows
  · rw [← hnext]
    exact hspans
  · rw [← hnext]
    exact hrecords
  · rw [← hnext]
  · rw [← hnext]
  · rw [hcourse, ← hnext]
    exact hp.extend hkept _

/-! ## Runs -/

/-- A run that keeps its records and ends has made a chain of legs. -/
theorem legs_of_minimize_ok (hround : Scalar.RoundsOnce α s.precision) {guess x : Tensor α}
    {report : ConstrainedReport α} {notices : List (Notice α)} {v : Course α}
    (h : perform (minimize s.precision s.problem (.ok s.settings) guess)
      ⟨report, some [], some [], notices⟩ = (.ok x, v)) :
    ∃ ls p, Chained (Leg.LeadsTo s) (s.start guess, ⟨report, some [], some [], notices⟩) ls p ∧
      x = p.1.point ∧
      v = { p.2 with report := ⟨p.1.multipliers, p.1.weight, ls.length⟩ } := by
  rw [minimize_eq_run] at h
  obtain ⟨n, p, ⟨o, hopening, hchain⟩, -, hx, hv, -⟩ := Scheme.run_ok h
  obtain ⟨_, _, hstart, hopening⟩ := perform_bind_eq_ok.mp hopening
  obtain ⟨-, rfl⟩ := perform_lift_eq_ok.mp hstart
  obtain ⟨hstate, hcourse⟩ := perform_pure_eq_ok.mp hopening
  obtain rfl : (s.start guess, _) = o := Prod.ext hstate hcourse
  have hrecording : Course.IsRecording ⟨report, some [], some [], notices⟩ s.precision
      (guess.convert s.precision) :=
    ⟨Tensor.isKept_convert hround.again guess, rfl, rfl⟩
  obtain ⟨ls, hlength, hls, -⟩ := hchain.translate (I := fun p => p.2.IsRecording s.precision p.1.point)
    hrecording fun hb hI => leg_of_advances hround hb hI
  obtain rfl : ls.length = n := hlength.trans List.length_range'
  exact ⟨ls, p, hls, hx, hv⟩

/-- What the records of a run from `guess` to `x` show: snapshots in pairs, and one history for every
pair. -/
structure Layout (s : Setup Id α) (guess : Tensor α) (ts : List (Snapshot α)) (hs : List (History α))
    (x : Tensor α) (report : ConstrainedReport α) : Prop where
  length_trace : ts.length = 2 * report.iterations
  length_histories : hs.length = report.iterations
  pair : ∀ k t t' h, ts[2 * k]? = some t → ts[2 * k + 1]? = some t' → hs[k]? = some h →
    t'.multipliers = t.multipliers ∧ t'.weight = t.weight ∧
      h.positions.head? = some t.point ∧ h.positions.getLast? = some t'.point ∧
      h.losses.head? = some t.loss ∧ h.losses.getLast? = some t'.loss
  solved : ∀ k t t' h, ts[2 * k]? = some t → ts[2 * k + 1]? = some t' → hs[k]? = some h →
    ∃ f y z, s.problem.augmented s.precision t.multipliers t.weight = .ok f ∧
      t.point = y.toVector ∧ t'.point = z.toVector ∧
      f.evaluate y = pure t.loss ∧ f.evaluate z = pure t'.loss ∧
      s.problem.constraintValues z = pure t'.constraints.entries ∧ (s.descent f y).Records z h
  next : ∀ k t t', ts[2 * k + 1]? = some t → ts[2 * k + 2]? = some t' →
    t'.point = t.point ∧
      t'.multipliers.entries = raised t.multipliers.entries t.weight t.constraints.entries ∧
      t'.weight = t.weight * s.settings.growth
  first : ∀ t, ts.head? = some t →
    t.point = (guess.convert s.precision).toVector ∧
      t.multipliers.entries = List.replicate s.problem.constraintCount Scalar.zero ∧
      t.weight = s.settings.initialWeight
  last : ∀ t, ts.getLast? = some t →
    t.point = x.toVector ∧
      report.multipliers = raised t.multipliers.entries t.weight t.constraints.entries ∧
      report.weight = t.weight * s.settings.growth
  none : report.iterations = 0 →
    x = guess.convert s.precision ∧
      report.multipliers = List.replicate s.problem.constraintCount Scalar.zero ∧
      report.weight = s.settings.initialWeight

theorem Shows.entries_eq {t : Snapshot α} {st : State α} {f : ScalarFunction Id α} {x : Tensor α}
    (hround : ∀ a : α, Scalar.round .double a = a) (h : Shows s t st f x) :
    t.multipliers.entries = st.multipliers := by
  rw [h.multipliers_eq]
  exact Tensor.entries_vector_of_round hround st.multipliers

/-- The second snapshot of a round determines the state after it: the recurrence of multipliers and
weights. -/
theorem Leg.LeadsTo.after_eq {p q : State α × Course α} {l : Leg α}
    (hround : ∀ a : α, Scalar.round .double a = a) (h : l.LeadsTo s p q) :
    l.after.point = q.1.point.toVector ∧
      q.1.multipliers = raised l.after.multipliers.entries l.after.weight l.after.constraints.entries ∧
      q.1.weight = l.after.weight * s.settings.growth := by
  obtain ⟨f, -, -, hafter, -⟩ := h.solved
  refine ⟨hafter.point_eq, ?_, ?_⟩
  · rw [hafter.entries_eq hround, hafter.weight_eq]
    exact h.multipliers_eq
  · rw [hafter.weight_eq]
    exact h.weight_eq

/-- The first snapshot of a round is that of the state before it. -/
theorem Leg.LeadsTo.before_eq {p q : State α × Course α} {l : Leg α}
    (hround : ∀ a : α, Scalar.round .double a = a) (h : l.LeadsTo s p q) :
    l.before.point = p.1.point.toVector ∧ l.before.multipliers.entries = p.1.multipliers ∧
      l.before.weight = p.1.weight := by
  obtain ⟨f, -, hbefore, -⟩ := h.solved
  exact ⟨hbefore.point_eq, hbefore.entries_eq hround, hbefore.weight_eq⟩

/-- A chain of legs is laid out. -/
theorem layout_of_legs (hround : ∀ a : α, Scalar.round .double a = a) {guess : Tensor α} {c : Course α}
    {ls : List (Leg α)} {p : State α × Course α} (h : Chained (Leg.LeadsTo s) (s.start guess, c) ls p) :
    Layout s guess (snapshots ls) (ls.map Leg.history) p.1.point
      ⟨p.1.multipliers, p.1.weight, ls.length⟩ where
  length_trace := by simp [snapshots, List.length_flatMap, Nat.mul_comm]
  length_histories := List.length_map _
  pair k t t' history ht ht' hhistory := by
    obtain ⟨a, b, -, hmade, -⟩ := h.split (leg_of_records ht ht' hhistory)
    obtain ⟨f, -, hbefore, hafter, hspans, -⟩ := hmade.solved
    refine ⟨?_, ?_, ?_, ?_, hspans.first_loss_eq hbefore.loss_eq, hspans.last_loss_eq hafter.loss_eq⟩
    · exact hafter.multipliers_eq.trans hbefore.multipliers_eq.symm
    · exact hafter.weight_eq.trans hbefore.weight_eq.symm
    · exact hspans.first_position.trans (congrArg some hbefore.point_eq.symm)
    · exact hspans.last_position.trans (congrArg some hafter.point_eq.symm)
  solved k t t' history ht ht' hhistory := by
    obtain ⟨a, b, -, hmade, -⟩ := h.split (leg_of_records ht ht' hhistory)
    obtain ⟨f, hf, hbefore, hafter, -, hrecords⟩ := hmade.solved
    refine ⟨f, a.1.point, b.1.point, ?_, hbefore.point_eq, hafter.point_eq, hbefore.loss_eq,
      hafter.loss_eq, hafter.constraints_eq, hrecords⟩
    rw [← hf, Setup.objective, ← hbefore.multipliers_eq, ← hbefore.weight_eq]
  -- The snapshot after a leg and that before the next one are taken in the same state.
  next k t t' ht ht' := by
    obtain ⟨l, hl, rfl⟩ := after_of_snapshots ht
    obtain ⟨l', hl', rfl⟩ := before_of_snapshots (k := k + 1) ht'
    obtain ⟨a, b, b', hmade, hmade'⟩ := h.consecutive hl hl'
    obtain ⟨hpoint, hmultipliers, hweight⟩ := hmade.after_eq hround
    obtain ⟨hpoint', hmultipliers', hweight'⟩ := hmade'.before_eq hround
    exact ⟨hpoint'.trans hpoint.symm, hmultipliers'.trans hmultipliers, hweight'.trans hweight⟩
  first t ht := by
    rw [List.head?_eq_getElem?] at ht
    obtain ⟨l, hl, rfl⟩ := before_of_snapshots (k := 0) ht
    obtain ⟨b, hmade⟩ := h.head hl
    obtain ⟨hpoint, hmultipliers, hweight⟩ := hmade.before_eq hround
    exact ⟨hpoint, hmultipliers.trans (List.map_const' ..), hweight⟩
  last t ht := by
    obtain ⟨l, hl, rfl⟩ := last_of_snapshots ht
    obtain ⟨b, hmade⟩ := h.last hl
    exact hmade.after_eq hround
  none hn := by
    obtain rfl : ls = [] := List.length_eq_zero_iff.mp hn
    cases h
    exact ⟨rfl, List.map_const' .., rfl⟩

/-- Every run of the method of multipliers that ends, with empty records at its start, leaves a trace and
histories that are laid out. -/
theorem minimize_trace_paired (hround : Scalar.RoundsOnce α s.precision) {guess x : Tensor α}
    {report : ConstrainedReport α} {notices : List (Notice α)} {v : Course α}
    (h : perform (minimize s.precision s.problem (.ok s.settings) guess)
      ⟨report, some [], some [], notices⟩ = (.ok x, v)) :
    ∃ ts hs, v.trace = some ts ∧ v.histories = some hs ∧ Layout s guess ts hs x v.report := by
  obtain ⟨ls, p, hls, rfl, rfl⟩ := legs_of_minimize_ok hround h
  obtain ⟨notices', hcourse⟩ := Scheme.course_eq (fun l => [l.before, l.after]) Leg.history hls
    Leg.LeadsTo.course_eq
  rw [hcourse]
  exact ⟨snapshots ls, ls.map Leg.history, rfl, rfl, layout_of_legs hround.double hls⟩

/-- Ten rounds for the square of a coordinate among the numbers from one to three. -/
theorem minimize_trace_paired_square :
    let f : Landscape 1 := ⟨fun v => v 0 ^ 2, fun v => (2 : ℝ) • v⟩
    let g₁ : Landscape 1 := ⟨fun v => 1 - v 0, fun _ => -EuclideanSpace.single 0 1⟩
    let g₂ : Landscape 1 := ⟨fun v => v 0 - 3, fun _ => EuclideanSpace.single 0 1⟩
    let inner : GradientDescent.Settings ℝ := ⟨1, 1 / 2, 6 / 5, 1 / 10 ^ 8, 1 / 100, 100, 20⟩
    let s : Setup Id ℝ :=
      ⟨.double, Problem.euclidean f [g₁, g₂] rfl, ⟨10, 1, 2, .none, .ok inner⟩⟩
    let guess : Tensor ℝ := .ofPoint .double (0 : Point 1)
    Scalar.RoundsOnce ℝ s.precision ∧
    ∃ x v, perform (minimize .double s.problem (.ok s.settings) guess)
        ⟨⟨[], 0, 0⟩, some [], some [], []⟩ = (.ok x, v) ∧
      ∃ ts hs, v.trace = some ts ∧ v.histories = some hs ∧ Layout s guess ts hs x v.report ∧
        ts.length = 20 ∧ hs.length = 10 := by
  intro f g₁ g₂ inner s guess
  have hround : Scalar.RoundsOnce ℝ s.precision := ⟨fun _ => rfl, fun _ => rfl⟩
  have hp : s.problem.Realizes [1] f [g₁, g₂] := Problem.realizes_euclidean f [g₁, g₂] rfl
  have hg : guess.Represents [1] (0 : Point 1) := Tensor.represents_ofPoint .double _
  obtain ⟨x, v, hrun⟩ := minimize_total hp rfl rfl nofun hg ⟨⟨[], 0, 0⟩, some [], some [], []⟩
  obtain ⟨ts, hs, hts, hhs, hlayout⟩ := minimize_trace_paired hround hrun
  -- Without a tolerance all ten rounds are made.
  have hrounds : v.report.iterations = 10 := by
    rw [minimize_eq_run] at hrun
    obtain ⟨p, -, -, rfl⟩ := (s.stops 0 guess).run_ok hrun
    rfl
  refine ⟨hround, x, v, hrun, ts, hs, hts, hhs, hlayout, ?_, ?_⟩
  · rw [hlayout.length_trace, hrounds]
  · rw [hlayout.length_histories, hrounds]

end AugmentedLagrangian

end Minimization
