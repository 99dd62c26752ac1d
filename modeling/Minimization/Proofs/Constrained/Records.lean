import Minimization.Proofs.Chained
import Minimization.Proofs.Descent.Failing

/-!
# The records of a constrained run

Between two worlds of a constrained run its records have grown by a segment. A snapshot adds itself if a
trace is kept (`Course.Takes`), an inner descent its history if it ends, and everything else adds nothing
(`SameRecords`). Rounds are chained by the segments that they add: `Completes` is a round that was made,
`FailsAfter` says where rounds fail, and `Completes.length_join` counts what has been added by then.

Beside its records a run keeps in the world of its evaluations what those keep.

Nothing here is about one of the solvers. A solver says what its rounds can have added, in full and in part;
where a loop of such rounds fails, and what it has added by then, follows by induction
(`failsAfter_of_rounds_error`).
-/

namespace Minimization

variable {m : Type → Type} [Monad m] {ω : Type} [Stateful m ω] {α β : Type}

/-! ## Records that grow -/

/-- What a snapshot that is to be taken adds to the trace of a course: nothing if no trace is kept. -/
inductive Course.Takes (c : Course α) (take : Evaluation m (Snapshot α)) (u : ω) :
    List (Snapshot α) → ω → Prop
  | untraced : c.trace = none → Course.Takes c take u [] u
  | taken {t v} : c.trace.isSome → attempt take u = (.ok t, v) → Course.Takes c take u [t] v

/-- Nothing was added to the records. -/
def SameRecords (w w' : Course α × ω) : Prop := ∃ notices, w'.1 = w.1.extend ⟨[], [], notices⟩

instance : Std.Refl (SameRecords (α := α) (ω := ω)) where
  refl w := ⟨[], (Course.extend_empty w.1).symm⟩

instance : Trans (SameRecords (α := α) (ω := ω)) SameRecords SameRecords where
  trans := by
    rintro u v w ⟨ns, hv⟩ ⟨ns', hw⟩
    refine ⟨ns ++ ns', ?_⟩
    rw [hw, hv, Course.extend_extend]
    rfl

@[simp] theorem Segment.mk_append_mk (ts ts' : List (Snapshot α)) (hs hs' : List (History α))
    (ns ns' : List (Notice α)) :
    (⟨ts, hs, ns⟩ : Segment α) ++ ⟨ts', hs', ns'⟩ = ⟨ts ++ ts', hs ++ hs', ns ++ ns'⟩ := rfl

/-- Whether a course keeps records does not depend on what is in them. -/
@[simp] theorem Course.innerRun_extend [Scalar α] (c : Course α) (d : Segment α) :
    (c.extend d).innerRun = c.innerRun := by
  unfold Course.innerRun Course.extend
  rw [Option.isSome_map]

/-- Whether a snapshot is taken does not depend on those that are there already. -/
theorem Course.takes_extend {c : Course α} {d : Segment α} {take : Evaluation m (Snapshot α)} {u v : ω}
    {ts : List (Snapshot α)} (h : (c.extend d).Takes take u ts v) : c.Takes take u ts v := by
  cases h with
  | untraced hnone => exact .untraced (Option.map_eq_none_iff.mp hnone)
  | taken hsome htaken => exact .taken (by rwa [Course.extend, Option.isSome_map] at hsome) htaken

/-- If a trace is kept, taking a snapshot adds one. -/
theorem Course.Takes.length_eq {c : Course α} {take : Evaluation m (Snapshot α)} {u v : ω}
    {ts : List (Snapshot α)} (h : c.Takes take u ts v) (hc : c.trace.isSome) : ts.length = 1 := by
  cases h with
  | untraced hnone =>
    rw [hnone] at hc
    cases hc
  | taken _ _ => rfl

/-- A snapshot that cannot be taken adds nothing. -/
theorem leaves_snapshot (take : Evaluation m (Snapshot α)) (w : Course α × ω) :
    Leaves (Constrained.snapshot take) w
      (fun _ w' => ∃ ts, w.1.Takes take w.2 ts w'.2 ∧ w'.1 = w.1.extend ⟨ts, [], []⟩)
      (SameRecords w) := by
  rcases hw : w.1.trace with _ | ts
  · refine .of_ok (attempt_snapshot_none hw) ⟨[], .untraced hw, ?_⟩
    exact (Course.extend_empty w.1).symm
  · have hsome := Option.isSome_of_eq_some hw
    have hsnapshot : attempt (Constrained.snapshot take) w = _ := attempt_snapshot hsome
    rcases htaken : attempt take w.2 with ⟨e | t, v⟩
    all_goals rw [htaken] at hsnapshot
    · exact .of_error hsnapshot (Std.Refl.refl (r := SameRecords) w)
    · refine .of_ok hsnapshot ⟨[t], .taken hsome htaken, ?_⟩
      unfold Course.addSnapshot Course.extend
      simp

/-- An inner descent that fails only leaves its notices. -/
theorem leaves_descend [Scalar α] (d : Descent m α β) (w : Course α × ω) :
    Leaves (Constrained.descend d) w
      (fun x w' => ∃ r, attempt d (w.1.innerRun, w.2) = (.ok x, r, w'.2) ∧
        w'.1 = w.1.extend ⟨[], r.history.toList, r.notices⟩)
      (SameRecords w) := by
  have hdescend := attempt_descend d w
  rcases hended : attempt d (w.1.innerRun, w.2) with ⟨e | x, r, v⟩
  all_goals rw [hended] at hdescend
  · exact .of_error hdescend ⟨r.notices, (Course.extend_notices w.1 r.notices).symm⟩
  · refine .of_ok hdescend ⟨r, rfl, ?_⟩
    unfold Course.addRun Course.extend
    simp

/-- Telling something leaves the records apart from the notices. -/
theorem keeps_notify (n : Notice α) : Keeps SameRecords (Constrained.notify (m := m) n) := by
  intro w
  rw [attempt_constrained_notify]
  exact ⟨[n], (Course.extend_notices w.1 [n]).symm⟩

theorem keeps_evaluate (e : Evaluation m β) :
    Keeps SameRecords (Constrained.evaluate e : Constrained m α β) := by
  intro w
  rw [attempt_constrained_evaluate]
  exact Std.Refl.refl (r := SameRecords) w

section Keeps

variable [Scalar α] {R : Course α × ω → Course α × ω → Prop} [Std.Refl R] [Trans R R R]

/-- The end of a round does nothing but tell. -/
theorem keeps_settle (hnotify : ∀ n, Keeps R (Constrained.notify (m := m) n)) {σ : Type}
    (tolerance : Tolerance α) (x y : Tensor α) (asked : α → α) (notice : α → α → Notice α) (next : σ) :
    Keeps R (Constrained.settle (m := m) tolerance x y asked notice next) := by
  unfold Constrained.settle
  split
  · exact .pure _
  · refine .bind (.lift _) fun moved => .bind (.lift _) fun within => ?_
    rcases within with _ | t
    · exact .pure _
    · exact .bind (hnotify _) fun _ => .pure _

end Keeps

/-! ## Rounds -/

/-- Segments one after the other. -/
def Segment.join : List (Segment α) → Segment α := List.foldr (· ++ ·) .empty

/-- Between two rounds: the number of rounds that were made, and where they have led to. -/
structure Between (σ α ω : Type) where
  made : Nat
  state : σ
  world : Course α × ω

section Rounds

variable {σ : Type} {round : Nat → σ → Constrained m α (σ × Bool)}
  {full part : σ → Course α × ω → Segment α → Prop} {p q : Between σ α ω} {d : Segment α}
  {ds : List (Segment α)} {e : Failure} {w w' : Course α × ω}

/-- A round that is not the last one is completed, and adds a segment. -/
structure Completes (round : Nat → σ → Constrained m α (σ × Bool))
    (full : σ → Course α × ω → Segment α → Prop) (p : Between σ α ω) (d : Segment α)
    (q : Between σ α ω) : Prop where
  number : q.made = p.made + 1
  completed : attempt (round q.made p.state) p.world = (.ok (q.state, false), q.world)
  added : full p.state p.world d
  course_eq : q.world.1 = p.world.1.extend d

/-- After the completed rounds that added `ds`, the next one fails, and has added `d` by then. -/
def FailsAfter (round : Nat → σ → Constrained m α (σ × Bool))
    (full part : σ → Course α × ω → Segment α → Prop) (p : Between σ α ω) (ds : List (Segment α))
    (d : Segment α) (e : Failure) (w' : Course α × ω) : Prop :=
  ∃ q, Chained (Completes round full) p ds q ∧
    attempt (round (q.made + 1) q.state) q.world = (.error e, w') ∧ part q.state q.world d

/-- The course after a chain of rounds is the one before it with all that they added. -/
theorem Completes.join (h : Chained (Completes round full) p ds q) :
    q.world.1 = p.world.1.extend (Segment.join ds) := by
  induction h with
  | none => exact (Course.extend_empty _).symm
  | @cons p q r d ds hd _ ih =>
    rw [ih, hd.course_eq, Course.extend_extend]
    rfl

/-- Rounds that fail have completed some of them, and fail in the next one. -/
theorem failsAfter_of_rounds_error
    (hround : ∀ number st w, Leaves (round number st) w (fun _ w' => ∃ d, full st w d ∧ w'.1 = w.1.extend d)
      fun w' => ∃ d, part st w d ∧ w'.1 = w.1.extend d)
    {left made : Nat} {st : σ} (h : attempt (Constrained.rounds round left made st) w = (.error e, w')) :
    ∃ ds d, FailsAfter round full part ⟨made, st, w⟩ ds d e w' ∧
      w'.1 = w.1.extend (Segment.join ds ++ d) := by
  have hlast : ∃ ds d q, Chained (Completes round full) ⟨made, st, w⟩ ds q ∧
      attempt (round (q.made + 1) q.state) q.world = (.error e, w') ∧ part q.state q.world d ∧
      w'.1 = q.world.1.extend d := by
    -- By induction on the rounds that are left, from wherever the completed ones have led to.
    induction left generalizing made st w with
    | zero =>
      rw [Constrained.rounds, attempt_pure] at h
      cases h
    | succ left ih =>
      unfold Constrained.rounds at h
      rcases attempt_bind_eq_error.mp h with hfailed | ⟨⟨next, done⟩, u, hmade, h⟩
      · obtain ⟨d, hd, hw'⟩ := (hround _ _ _).error hfailed
        exact ⟨[], d, ⟨made, st, w⟩, .none, hfailed, hd, hw'⟩
      · cases done with
        | true =>
          dsimp only at h
          rw [if_pos rfl, attempt_pure] at h
          cases h
        | false =>
          obtain ⟨d, hd, hu⟩ := (hround _ _ _).ok hmade
          obtain ⟨ds, d', q, hchain, hrest⟩ := ih h
          exact ⟨d :: ds, d', q, .cons ⟨rfl, hmade, hd, hu⟩ hchain, hrest⟩
  obtain ⟨ds, d, q, hchain, hfailed, hpart, hw'⟩ := hlast
  refine ⟨ds, d, ⟨q, hchain, hfailed, hpart⟩, ?_⟩
  rw [hw', Completes.join hchain, Course.extend_extend]

/-- Rounds that add `n` snapshots and a history each add so many together, if both are kept. -/
theorem Completes.length_join {n : Nat}
    (hfull : ∀ {st w d}, full st w d → w.1.trace.isSome → w.1.histories.isSome →
      d.trace.length = n ∧ d.histories.length = 1)
    (h : Chained (Completes round full) p ds q) (htrace : p.world.1.trace.isSome)
    (hhistories : p.world.1.histories.isSome) :
    (Segment.join ds).trace.length = n * ds.length ∧ (Segment.join ds).histories.length = ds.length ∧
      q.world.1.trace.isSome ∧ q.world.1.histories.isSome := by
  induction h with
  | none => exact ⟨rfl, rfl, htrace, hhistories⟩
  | @cons p q r d ds hd _ ih =>
    obtain ⟨hlength, hlength'⟩ := hfull hd.added htrace hhistories
    have htrace' : q.world.1.trace.isSome := hd.course_eq ▸ Course.isSome_trace_extend htrace d
    have hhistories' : q.world.1.histories.isSome :=
      hd.course_eq ▸ Course.isSome_histories_extend hhistories d
    obtain ⟨htraces, hjoined, hlast⟩ := ih htrace' hhistories'
    refine ⟨?_, ?_, hlast⟩
    · show (d.trace ++ (Segment.join ds).trace).length = _
      rw [List.length_append, hlength, htraces, List.length_cons, Nat.mul_succ, Nat.add_comm]
    · show (d.histories ++ (Segment.join ds).histories).length = _
      rw [List.length_append, hlength', hjoined, List.length_cons, Nat.add_comm]

end Rounds

/-! ## Beside the records -/

section Beside

variable {R : ω → ω → Prop} [Std.Refl R] [Trans R R R]

omit [Std.Refl R] [Trans R R R] in
theorem Keeps.constrained_evaluate {e : Evaluation m β} (he : Keeps R e) :
    Keeps (Beside R) (Constrained.evaluate e : Constrained m α β) := by
  intro w
  rw [attempt_constrained_evaluate]
  exact he w.2

omit [Trans R R R] in
theorem Keeps.constrained_notify (n : Notice α) : Keeps (Beside R) (Constrained.notify (m := m) n) := by
  intro w
  rw [attempt_constrained_notify]
  exact Std.Refl.refl (r := R) w.2

omit [Trans R R R] in
/-- A snapshot touches the world only if it is taken. -/
theorem Keeps.snapshot {take : Evaluation m (Snapshot α)} (htake : Keeps R take) :
    Keeps (Beside R) (Constrained.snapshot take) := by
  intro w
  have hkept := htake w.2
  rcases hw : w.1.trace with _ | ts
  · rw [attempt_snapshot_none hw]
    exact Std.Refl.refl (r := R) w.2
  · rw [attempt_snapshot (Option.isSome_of_eq_some hw)]
    generalize attempt take w.2 = o at hkept ⊢
    rcases o with ⟨e | t, v⟩
    · exact hkept
    · exact hkept

omit [Std.Refl R] [Trans R R R] in
/-- An inner descent touches the world as it does on its own. -/
theorem Keeps.descend [Scalar α] {d : Descent m α β} (hd : Keeps (Beside R) d) :
    Keeps (Beside R) (Constrained.descend d) := by
  intro w
  have hkept : R w.2 (attempt d (w.1.innerRun, w.2)).2.2 := hd (w.1.innerRun, w.2)
  rw [attempt_descend]
  generalize attempt d (w.1.innerRun, w.2) = o at hkept ⊢
  rcases o with ⟨e | b, r, v⟩
  · exact hkept
  · exact hkept

omit [Trans R R R] in
theorem Keeps.conclude (report : ConstrainedReport α) :
    Keeps (Beside R) (Constrained.conclude (m := m) report) := by
  intro w
  rw [attempt_conclude]
  exact Std.Refl.refl (r := R) w.2

end Beside

end Minimization
