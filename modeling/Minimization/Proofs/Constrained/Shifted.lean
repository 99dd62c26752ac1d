import Minimization.Proofs.Constrained.Tolerance

/-!
# The records of the barrier method

The barrier method takes a snapshot at the start and one after every round, so that the trace has one
entry more than there are rounds, and a round that is solved with the weight of entry `k + 1` starts at
the point of entry `k`. `Layout` reads the records of a whole run by positions. On exact numbers the
multipliers of a snapshot balance the weight.

The weight of an entry is the one that its round was solved with, not the one after it: the weight shrinks
behind the snapshot. So the recurrence of the weights is shifted against that of the points.
-/

namespace Minimization

namespace LogBarrier

/-! ## Legs -/

/-- What a round adds to the records of a run. -/
structure Leg (α : Type) where
  after : Snapshot α
  history : History α

/-- A snapshot and a history that stand at the places of one leg are those of this leg. -/
theorem leg_of_records {α : Type} {ls : List (Leg α)} {t t' : Snapshot α} {history : History α} {k : Nat}
    (ht : (t :: ls.map Leg.after)[k + 1]? = some t')
    (hhistory : (ls.map Leg.history)[k]? = some history) : ls[k]? = some ⟨t', history⟩ := by
  rw [List.getElem?_cons_succ, List.getElem?_map] at ht
  obtain ⟨l, hl, rfl⟩ := Option.map_eq_some_iff.mp ht
  rw [List.getElem?_map, hl] at hhistory
  obtain rfl := Option.some.inj hhistory
  exact hl

variable {α : Type} [Scalar α] {s : Setup Id α}

/-! ## One round -/

/-- A snapshot shows a point, with the barrier of a weight. -/
structure Shows (s : Setup Id α) (t : Snapshot α) (weight : α) (x : Tensor α) : Prop where
  point_eq : t.point = x.toVector
  weight_eq : t.weight = weight
  constraints_eq : s.problem.constraintValues x = pure t.constraints.entries
  loss_eq : (s.problem.barrier s.precision weight).evaluate x = pure t.loss
  multipliers_eq : t.multipliers.entries = impliedMultipliers weight t.constraints.entries

/-- A round leads from one state and course to others, and adds a leg to the course. -/
structure Leg.LeadsTo (s : Setup Id α) (p : State α × Course α) (l : Leg α) (q : State α × Course α) :
    Prop where
  shows : Shows s l.after p.1.weight q.1.point
  spans : l.history.Spans (s.problem.barrier s.precision p.1.weight) p.1.point q.1.point
  records : (s.descent p.1.weight p.1.point).Records q.1.point l.history
  weight_eq : q.1.weight = p.1.weight * s.settings.decay
  course_eq : ∃ notices, q.2 = p.2.extend ⟨[l.after], [l.history], notices⟩

/-- A snapshot shows the point and the weight that it was taken for, and the multipliers that they imply. -/
theorem shows_of_snapshot_ok (hround : ∀ a : α, Scalar.round .double a = a) {t : Snapshot α} {weight : α}
    {x : Tensor α} (h : s.snapshot weight x = pure t) : Shows s t weight x := by
  unfold Setup.snapshot at h
  obtain ⟨gx, hgx, h⟩ := Evaluation.bind_eq_pure.mp h
  obtain ⟨fx, -, h⟩ := Evaluation.bind_eq_pure.mp h
  obtain ⟨loss, hloss, h⟩ := Evaluation.bind_eq_pure.mp h
  obtain rfl := Evaluation.pure_inj.mp h
  have hentries : (Tensor.vector .double gx).entries = gx := Tensor.entries_vector_of_round hround gx
  refine ⟨rfl, rfl, ?_, hloss, ?_⟩
  · rw [hentries]
    exact hgx
  · rw [hentries]
    exact Tensor.entries_vector_of_round hround _

/-- Looking for an infeasible point at most tells something. -/
theorem tellInfeasible_ok {number : Option Nat} {told told' : Bool} {x : Tensor α} {c c' : Course α}
    (h : perform (s.tellInfeasible number told x) c = (.ok told', c')) :
    ∃ notices, c' = c.extend ⟨[], [], notices⟩ := by
  unfold Setup.tellInfeasible at h
  split at h
  next =>
    obtain ⟨-, rfl⟩ := perform_pure_eq_ok.mp h
    exact ⟨[], (Course.extend_empty c).symm⟩
  next =>
    obtain ⟨gx, _, hgx, h⟩ := perform_bind_eq_ok.mp h
    obtain ⟨-, rfl⟩ := perform_constrained_evaluate_eq_ok.mp hgx
    dsimp only at h
    split at h
    next =>
      rw [perform_bind_of_ok (perform_constrained_notify _ _), perform_pure_eq_ok] at h
      exact ⟨_, h.2.symm⟩
    next =>
      obtain ⟨-, rfl⟩ := perform_pure_eq_ok.mp h
      exact ⟨[], (Course.extend_empty c).symm⟩

/-- Every round of a recording run adds a leg. -/
theorem leg_of_advances (hround : Scalar.RoundsOnce α s.precision) {guess : Tensor α} {number : Nat}
    {p q : State α × Course α} (h : (s.scheme guess).Advances p number q)
    (hp : p.2.IsRecording s.precision p.1.point) :
    ∃ l, Leg.LeadsTo s p l q ∧ q.2.IsRecording s.precision q.1.point := by
  obtain ⟨done, h⟩ := h
  change perform (round s number p.1) p.2 = _ at h
  rw [round_eq] at h
  obtain ⟨next, c₄, hadvance, hsettle⟩ := perform_bind_eq_ok.mp h
  obtain ⟨rfl, notices₄, hc₄, -⟩ := Constrained.settle_ok hsettle
  obtain ⟨c₁, c₂, c₃, notice, hx, hafter, htold, rfl, hweight⟩ := advance_ok hadvance
  obtain ⟨hkept, history, notices₁, hrecords, hspans, rfl⟩ :=
    (descent_isAlong s p.1.weight p.1.point).records hround
      (fun _ _ _ _ heval => Problem.precision_of_barrierGradient_ok heval) hp hx
  obtain ⟨after, htaken, rfl⟩ :=
    perform_snapshot_eq_ok hafter (Course.isSome_trace_extend hp.trace _)
  obtain ⟨notices₃, rfl⟩ := tellInfeasible_ok htold
  obtain ⟨notices, hcourse⟩ : ∃ notices, q.2 = p.2.extend ⟨[after], [history], notices⟩ := by
    simp only [Course.extend_extend] at hc₄
    exact ⟨_, hc₄⟩
  refine ⟨⟨after, history⟩, ⟨shows_of_snapshot_ok hround.double htaken, hspans, hrecords, hweight,
    notices, hcourse⟩, ?_⟩
  rw [hcourse]
  exact hp.extend hkept _

/-! ## Runs -/

/-- A run that keeps its records and ends has taken a snapshot and then made a chain of legs. -/
theorem legs_of_minimize_ok (hround : Scalar.RoundsOnce α s.precision) {guess x : Tensor α}
    {report : ConstrainedReport α} {notices : List (Notice α)} {v : Course α}
    (h : perform (minimize s.precision s.problem (.ok s.settings) guess)
      ⟨report, some [], some [], notices⟩ = (.ok x, v)) :
    ∃ t o ls p, Shows s t s.settings.initialWeight (guess.convert s.precision) ∧
      o.1.point = guess.convert s.precision ∧ o.1.weight = s.settings.initialWeight ∧
      o.2.trace = some [t] ∧ o.2.histories = some [] ∧ Chained (Leg.LeadsTo s) o ls p ∧
      x = p.1.point ∧ v = { p.2 with report := ⟨[], p.1.weight, ls.length⟩ } := by
  rw [minimize_eq_run] at h
  obtain ⟨n, p, ⟨o, hopening, hchain⟩, -, hx, hv, -⟩ := Scheme.run_ok h
  obtain ⟨_, _, hstart, hopening⟩ := perform_bind_eq_ok.mp hopening
  obtain ⟨-, rfl⟩ := perform_lift_eq_ok.mp hstart
  obtain ⟨told, c₁, htold, hopening⟩ := perform_bind_eq_ok.mp hopening
  obtain ⟨notices₁, rfl⟩ := tellInfeasible_ok htold
  obtain ⟨_, c₂, hsnapshot, hopening⟩ := perform_bind_eq_ok.mp hopening
  obtain ⟨t, htaken, rfl⟩ := perform_snapshot_eq_ok hsnapshot rfl
  obtain ⟨hstate, hcourse⟩ := perform_pure_eq_ok.mp hopening
  obtain rfl : (_, _) = o := Prod.ext hstate hcourse
  have hrecording : Course.IsRecording (((⟨report, some [], some [], notices⟩ : Course α).extend
      ⟨[], [], notices₁⟩).extend ⟨[t], [], []⟩) s.precision (guess.convert s.precision) :=
    ⟨Tensor.isKept_convert hround.again guess, rfl, rfl⟩
  obtain ⟨ls, hlength, hls, -⟩ := hchain.translate (I := fun p => p.2.IsRecording s.precision p.1.point)
    hrecording fun hb hI => leg_of_advances hround hb hI
  obtain rfl : ls.length = n := hlength.trans List.length_range'
  exact ⟨t, _, ls, p, shows_of_snapshot_ok hround.double htaken, rfl, rfl, rfl, rfl, hls, hx, hv⟩

/-- What the records of a run from `guess` to `x` show: one snapshot more than there are histories. -/
structure Layout (s : Setup Id α) (guess : Tensor α) (ts : List (Snapshot α)) (hs : List (History α))
    (x : Tensor α) (report : ConstrainedReport α) : Prop where
  length_trace : ts.length = report.iterations + 1
  length_histories : hs.length = report.iterations
  first : ∀ t, ts[0]? = some t →
    t.point = (guess.convert s.precision).toVector ∧ t.weight = s.settings.initialWeight
  first_weight : ∀ t, ts[1]? = some t → t.weight = s.settings.initialWeight
  next_weight : ∀ k t t', ts[k + 1]? = some t → ts[k + 2]? = some t' →
    t'.weight = t.weight * s.settings.decay
  inner : ∀ k t t' h, ts[k]? = some t → ts[k + 1]? = some t' → hs[k]? = some h →
    h.positions.head? = some t.point ∧ h.positions.getLast? = some t'.point ∧
      h.losses.getLast? = some t'.loss
  first_loss : ∀ t h, ts[0]? = some t → hs[0]? = some h → h.losses.head? = some t.loss
  solved : ∀ k t t' h, ts[k]? = some t → ts[k + 1]? = some t' → hs[k]? = some h →
    ∃ y z, t.point = y.toVector ∧ t'.point = z.toVector ∧ (s.descent t'.weight y).Records z h
  shown : ∀ t ∈ ts, ∃ y, Shows s t t.weight y
  last : ∀ t, ts.getLast? = some t → t.point = x.toVector
  last_weight : ∀ k t, report.iterations = k + 1 → ts[k + 1]? = some t →
    report.weight = t.weight * s.settings.decay
  none : report.iterations = 0 →
    x = guess.convert s.precision ∧ report.weight = s.settings.initialWeight

section Layout

variable {ls : List (Leg α)} {o p : State α × Course α} {t t' : Snapshot α} {l : Leg α} {k : Nat}

/-- A leg starts at the point of the snapshot before its own. -/
theorem point_of_leg (h : Chained (Leg.LeadsTo s) o ls p) (ht : t.point = o.1.point.toVector)
    (hk : ls[k]? = some l) (htk : (t :: ls.map Leg.after)[k]? = some t') :
    ∃ a b, l.LeadsTo s a b ∧ t'.point = a.1.point.toVector := by
  cases k with
  | zero =>
    obtain rfl := Option.some.inj htk
    obtain ⟨b, hb⟩ := h.head hk
    exact ⟨o, b, hb, ht⟩
  | succ k =>
    rw [List.getElem?_cons_succ, List.getElem?_map] at htk
    obtain ⟨l', hl', rfl⟩ := Option.map_eq_some_iff.mp htk
    obtain ⟨a', a, b, ha, hb⟩ := h.consecutive hl' hk
    exact ⟨a, b, hb, ha.shows.point_eq⟩

/-- A chain of legs is laid out behind a first snapshot. -/
theorem layout_of_legs {guess : Tensor α}
    (ht : Shows s t s.settings.initialWeight (guess.convert s.precision))
    (hpoint : o.1.point = guess.convert s.precision) (hweight : o.1.weight = s.settings.initialWeight)
    (h : Chained (Leg.LeadsTo s) o ls p) :
    Layout s guess (t :: ls.map Leg.after) (ls.map Leg.history) p.1.point
      ⟨[], p.1.weight, ls.length⟩ where
  length_trace := by rw [List.length_cons, List.length_map]
  length_histories := List.length_map _
  first t' ht' := by
    obtain rfl := Option.some.inj ht'
    exact ⟨ht.point_eq, ht.weight_eq⟩
  first_weight t' ht' := by
    rw [List.getElem?_cons_succ, List.getElem?_map] at ht'
    obtain ⟨l, hl, rfl⟩ := Option.map_eq_some_iff.mp ht'
    obtain ⟨b, hb⟩ := h.head hl
    exact hb.shows.weight_eq.trans hweight
  next_weight k t₁ t₂ ht₁ ht₂ := by
    rw [List.getElem?_cons_succ, List.getElem?_map] at ht₁ ht₂
    obtain ⟨l₁, hl₁, rfl⟩ := Option.map_eq_some_iff.mp ht₁
    obtain ⟨l₂, hl₂, rfl⟩ := Option.map_eq_some_iff.mp ht₂
    obtain ⟨a, b, b', hb, hb'⟩ := h.consecutive hl₁ hl₂
    rw [hb'.shows.weight_eq, hb.weight_eq, hb.shows.weight_eq]
  -- The histories begin one snapshot later than the trace: the descent of a leg starts at the snapshot
  -- before it, and the leg keeps its own weight only in the one after it.
  inner k t₁ t₂ history ht₁ ht₂ hhistory := by
    obtain ⟨a, b, hb, hpoint₁⟩ := point_of_leg h (ht.point_eq.trans (congrArg _ hpoint.symm))
      (leg_of_records ht₂ hhistory) ht₁
    refine ⟨?_, ?_, hb.spans.last_loss_eq hb.shows.loss_eq⟩
    · exact hb.spans.first_position.trans (congrArg some hpoint₁.symm)
    · exact hb.spans.last_position.trans (congrArg some hb.shows.point_eq.symm)
  first_loss t' history ht' hhistory := by
    obtain rfl := Option.some.inj ht'
    rw [List.getElem?_map] at hhistory
    obtain ⟨l, hl, rfl⟩ := Option.map_eq_some_iff.mp hhistory
    obtain ⟨b, hb⟩ := h.head hl
    have hspans := hb.spans
    rw [hpoint, hweight] at hspans
    exact hspans.first_loss_eq ht.loss_eq
  solved k t₁ t₂ history ht₁ ht₂ hhistory := by
    obtain ⟨a, b, hb, hpoint₁⟩ := point_of_leg h (ht.point_eq.trans (congrArg _ hpoint.symm))
      (leg_of_records ht₂ hhistory) ht₁
    refine ⟨a.1.point, b.1.point, hpoint₁, hb.shows.point_eq, ?_⟩
    rw [hb.shows.weight_eq]
    exact hb.records
  shown t' ht' := by
    rcases List.mem_cons.mp ht' with rfl | ht'
    · exact ⟨_, ht.weight_eq.symm ▸ ht⟩
    · obtain ⟨l, hl, rfl⟩ := List.mem_map.mp ht'
      obtain ⟨a, b, hb⟩ := h.made_of_mem hl
      exact ⟨b.1.point, hb.shows.weight_eq.symm ▸ hb.shows⟩
  last t' ht' := by
    rw [List.getLast?_eq_getElem?, List.length_cons, List.length_map, Nat.add_sub_cancel] at ht'
    -- Without a leg the last snapshot is the first one.
    cases h with
    | none =>
      obtain rfl := Option.some.inj ht'
      rw [ht.point_eq, hpoint]
    | @cons _ _ _ l ls hb hrest =>
      have hchain : Chained (Leg.LeadsTo s) o (l :: ls) p := .cons hb hrest
      rw [List.length_cons, List.getElem?_cons_succ, List.getElem?_map] at ht'
      obtain ⟨l', hl', rfl⟩ := Option.map_eq_some_iff.mp ht'
      obtain ⟨a, hlast⟩ := hchain.last hl'
      exact hlast.shows.point_eq
  last_weight k t' hk ht' := by
    rw [List.getElem?_cons_succ, List.getElem?_map] at ht'
    obtain ⟨l, hl, rfl⟩ := Option.map_eq_some_iff.mp ht'
    obtain rfl : k = ls.length - 1 := by
      have hlength : ls.length = k + 1 := hk
      omega
    obtain ⟨a, hlast⟩ := h.last hl
    rw [hlast.shows.weight_eq]
    exact hlast.weight_eq
  none hn := by
    obtain rfl : ls = [] := List.length_eq_zero_iff.mp hn
    cases h
    exact ⟨hpoint, hweight⟩

end Layout

/-- A run that keeps its records and ends leaves a trace and histories that are laid out. -/
theorem layout_of_minimize_ok (hround : Scalar.RoundsOnce α s.precision) {guess x : Tensor α}
    {report : ConstrainedReport α} {notices : List (Notice α)} {v : Course α}
    (h : perform (minimize s.precision s.problem (.ok s.settings) guess)
      ⟨report, some [], some [], notices⟩ = (.ok x, v)) :
    ∃ ts hs, v.trace = some ts ∧ v.histories = some hs ∧ Layout s guess ts hs x v.report := by
  obtain ⟨t, o, ls, p, ht, hpoint, hweight, htrace, hhistories, hls, rfl, rfl⟩ :=
    legs_of_minimize_ok hround h
  obtain ⟨notices', hcourse⟩ :=
    Scheme.course_eq (fun l => [l.after]) Leg.history hls Leg.LeadsTo.course_eq
  have hsnapshots : (ls.flatMap fun l => [l.after]) = ls.map Leg.after := List.map_eq_flatMap.symm
  rw [hsnapshots] at hcourse
  refine ⟨t :: ls.map Leg.after, ls.map Leg.history, ?_, ?_, layout_of_legs ht hpoint hweight hls⟩
  · rw [hcourse, Course.extend, htrace]
    rfl
  · rw [hcourse, Course.extend, hhistories]
    rfl

/-! ## Exact numbers -/

open ExactScalar

/-- The product of every multiplier with its constraint value, where that is not zero, is minus the
weight. -/
def Balances {α : Type} [ExactScalar α] (t : Snapshot α) : Prop :=
  ∀ (i : Nat) (l : α) (g w : ℝ), t.weight = ofReal w → t.multipliers.entries[i]? = some l →
    t.constraints.entries[i]? = some (ofReal g) → g ≠ 0 → l * ofReal g = -t.weight

/-- In exact arithmetic what was divided by is multiplied with again. -/
theorem Shows.balances {α : Type} [ExactScalar α] {s : Setup Id α} {t : Snapshot α} {x : Tensor α}
    (h : Shows s t t.weight x) : Balances t := by
  intro i l g w hw hl hg hne
  rw [h.multipliers_eq, impliedMultipliers, List.getElem?_map, hg, hw] at hl
  obtain rfl := Option.some.inj hl
  dsimp only
  rw [hw, ← ofReal_neg, ← ofReal_div _ hne, ← ofReal_mul, div_mul_cancel₀ _ hne]

/-- Every run of the barrier method that ends, with empty records at its start, leaves a trace and
histories that are laid out. On exact numbers all of its snapshots balance their weight. -/
theorem minimize_trace_shifted :
    (∀ {α : Type} [Scalar α] (s : Setup Id α), Scalar.RoundsOnce α s.precision →
      ∀ (guess x : Tensor α) (report : ConstrainedReport α) (notices : List (Notice α)) (v : Course α),
        perform (minimize s.precision s.problem (.ok s.settings) guess)
          ⟨report, some [], some [], notices⟩ = (.ok x, v) →
        ∃ ts hs, v.trace = some ts ∧ v.histories = some hs ∧ Layout s guess ts hs x v.report) ∧
    ∀ {α : Type} [ExactScalar α] (s : Setup Id α), Scalar.RoundsOnce α s.precision →
      ∀ (guess x : Tensor α) (report : ConstrainedReport α) (notices : List (Notice α)) (v : Course α),
        perform (minimize s.precision s.problem (.ok s.settings) guess)
          ⟨report, some [], some [], notices⟩ = (.ok x, v) →
        ∃ ts, v.trace = some ts ∧ ∀ t ∈ ts, Balances t := by
  refine ⟨fun s hround guess x report notices v h => layout_of_minimize_ok hround h,
    fun s hround guess x report notices v h => ?_⟩
  obtain ⟨ts, hs, htrace, -, hlayout⟩ := layout_of_minimize_ok hround h
  refine ⟨ts, htrace, fun t ht => ?_⟩
  obtain ⟨y, hshows⟩ := hlayout.shown t ht
  exact hshows.balances

/-- Two rounds from the number one, in the extended real numbers. -/
theorem minimize_trace_shifted_leastPositive :
    let inner : GradientDescent.Settings ℝ := ⟨1, 1 / 2, 6 / 5, 1 / 10 ^ 8, 1 / 100, 100, 20⟩
    let s : Setup Id EReal := ⟨.double, leastPositive, .ofReals 2 8 (1 / 2) none inner⟩
    let guess : Tensor EReal := .ofPoint .double (.single 0 1 : Point 1)
    Scalar.RoundsOnce EReal s.precision ∧
    ∃ x v, perform (minimize .double s.problem (.ok s.settings) guess)
        ⟨⟨[], 0, 0⟩, some [], some [], []⟩ = (.ok x, v) ∧
      (∃ ts hs, v.trace = some ts ∧ v.histories = some hs ∧ Layout s guess ts hs x v.report ∧
        ts.length = 3 ∧ hs.length = 2) ∧
      ∃ ts, v.trace = some ts ∧ ∀ t ∈ ts, Balances t := by
  intro inner s guess
  have hround : Scalar.RoundsOnce EReal s.precision := ⟨fun _ => rfl, fun _ => rfl⟩
  have hg : guess.Represents [1] (.single 0 1 : Point 1) := Tensor.represents_ofPoint .double _
  have hs : s.settings.IsReal inner (1 / 2) := ⟨rfl, rfl, .inl rfl⟩
  obtain ⟨x, d, report, hrun, -⟩ := run_isInterior (w := 8) realizes_leastPositive hs rfl hg
    ⟨⟨[], 0, 0⟩, some [], some [], []⟩
  have hmin : perform (minimize .double s.problem (.ok s.settings) guess)
      ⟨⟨[], 0, 0⟩, some [], some [], []⟩ = _ := hrun
  obtain ⟨ts, hs, hts, hhs, hlayout⟩ := minimize_trace_shifted.1 s hround guess x _ _ _ hmin
  -- Without a tolerance both rounds are made.
  have hrounds : report.iterations = 2 := by
    have hscheme := hmin
    rw [show minimize .double s.problem (.ok s.settings) guess = (s.scheme guess).run from
      minimize_eq_run s guess] at hscheme
    obtain ⟨p, -, -, hreport⟩ := (s.stops 0 guess).run_ok hscheme
    exact congrArg (fun c => c.report.iterations) hreport
  refine ⟨hround, x, _, hmin, ⟨ts, hs, hts, hhs, hlayout, ?_, ?_⟩,
    minimize_trace_shifted.2 s hround guess x _ _ _ hmin⟩
  · rw [hlayout.length_trace]
    exact congrArg (· + 1) hrounds
  · rw [hlayout.length_histories]
    exact hrounds

end LogBarrier

end Minimization
