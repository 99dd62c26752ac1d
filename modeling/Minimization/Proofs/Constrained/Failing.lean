import Minimization.Proofs.Constrained.Outer
import Minimization.Proofs.Constrained.Records
import Minimization.Proofs.Problem.Evaluations

/-!
# Constrained runs that fail

A constrained solver sets its report at the very end, so that a run which fails leaves the report of the
run before it. Its records only ever grow: by a snapshot that was taken, or by the history of an inner
descent that has ended. What a run has added when it fails is followed through its rounds: `Comes` says how
far a round has come, from the state and the world that it starts in, and what it has added by then. So
every entry of the records is that of a part of this run, in the order in which its parts were made
(`Interrupted`), and there are as many entries as that order allows (`Interrupted.balanced`).
-/

namespace Minimization

variable {m : Type → Type} [Monad m] {ω : Type} [Stateful m ω] {α : Type}

/-! ## The functions of a problem -/

/-- The functions of a problem keep a relation between worlds. -/
structure Problem.Respects [Scalar α] (p : Problem m α) (R : ω → ω → Prop) : Prop where
  objective : ∀ x, Keeps R (p.objective.evaluate x)
  gradient : ∀ x, Keeps R (p.gradient.evaluate x)
  constraints : ∀ g ∈ p.constraints, ∀ x, Keeps R (g.evaluate x)
  constraintGradients : ∀ g ∈ p.constraintGradients, ∀ x, Keeps R (g.evaluate x)

/-- A function as a rule keeps what the function does. -/
theorem keeps_asRule {R : ω → ω → Prop} [Std.Refl R] [Trans R R R] {f : ScalarFunction m α}
    {x : Tensor α} (h : Keeps R (f.evaluate x)) : Keeps R (f.asRule x) :=
  .bind h fun _ => .pure _

/-- The run of an inner descent that ends has a history if it began with one. -/
theorem GradientDescent.exists_history_of_run_ok [Scalar α] {s : GradientDescent.Setup m α}
    {guess y : Tensor α} {c : Course α} (hc : c.histories.isSome) {u v : ω} {r : Run α}
    (h : attempt (GradientDescent.run s guess) (c.innerRun, u) = (.ok y, r, v)) :
    ∃ history, r.history = some history := by
  obtain ⟨es, q, -, -, hes, -, -, -, hhistory, -⟩ := GradientDescent.leads_of_run_ok h
  rw [hhistory, hes.run_eq]
  unfold Course.innerRun
  rw [if_pos hc]
  exact ⟨_, rfl⟩

variable [Scalar α]

/-! ## The method of multipliers -/

namespace AugmentedLagrangian

/-- How far a round has come from a state in a world, with so many snapshots and inner descents, and what
it has added: it has started, taken a snapshot, made its descent, or taken the other snapshot. -/
inductive Setup.Comes (s : Setup m α) (st : State α) (w : Course α × ω) : Nat → Nat → Segment α → Prop
  | started {ns} : s.Comes st w 0 0 ⟨[], [], ns⟩
  | opened {f ts v ns} : s.objective st = .ok f → w.1.Takes (s.snapshot st f st.point) w.2 ts v →
      s.Comes st w 1 0 ⟨ts, [], ns⟩
  | descended {f ts v x r u ns} : s.objective st = .ok f →
      w.1.Takes (s.snapshot st f st.point) w.2 ts v →
      attempt (s.descent f st.point) (w.1.innerRun, v) = (.ok x, r, u) →
      s.Comes st w 1 1 ⟨ts, r.history.toList, ns⟩
  | closed {f ts v x r u ts' v' ns} : s.objective st = .ok f →
      w.1.Takes (s.snapshot st f st.point) w.2 ts v →
      attempt (s.descent f st.point) (w.1.innerRun, v) = (.ok x, r, u) →
      w.1.Takes (s.snapshot st f x) u ts' v' → s.Comes st w 2 1 ⟨ts ++ ts', r.history.toList, ns⟩

/-- How a run that starts in a world has failed, with all that it has added: its initial guess was refused,
or it has completed some rounds, and failed in the next one. -/
inductive Setup.Interrupted (s : Setup m α) (guess : Tensor α) (w : Course α × ω) (e : Failure)
    (w' : Course α × ω) : Segment α → Prop
  | refused : checkStart s.problem guess = .error e → w' = w → s.Interrupted guess w e w' .empty
  | round {ds d} :
      FailsAfter (AugmentedLagrangian.round s) (fun st u => s.Comes st u 2 1)
        (fun st u d => ∃ i j, s.Comes st u i j d) ⟨0, s.start guess, w⟩ ds d e w' →
      s.Interrupted guess w e w' (Segment.join ds ++ d)

variable {s : Setup m α}

/-- If both are kept, a round has added as many snapshots and histories as it has come to. -/
theorem Setup.Comes.length_eq {st : State α} {w : Course α × ω} {i j : Nat} {d : Segment α}
    (h : s.Comes st w i j d) (htrace : w.1.trace.isSome) (hhistories : w.1.histories.isSome) :
    d.trace.length = i ∧ d.histories.length = j := by
  have hlogged {f x y u r v} (hended : attempt (s.descent f x) (w.1.innerRun, u) = (.ok y, r, v)) :
      r.history.toList.length = 1 := by
    unfold Setup.descent at hended
    simp only [attempt_bind_eq_ok, attempt_lift_eq_ok] at hended
    obtain ⟨_, _, ⟨-, rfl⟩, _, _, ⟨-, rfl⟩, hrun⟩ := hended
    obtain ⟨history, hhistory⟩ := GradientDescent.exists_history_of_run_ok hhistories hrun
    rw [hhistory]
    rfl
  cases h with
  | started => exact ⟨rfl, rfl⟩
  | opened _ hts => exact ⟨hts.length_eq htrace, rfl⟩
  | descended _ hts hended => exact ⟨hts.length_eq htrace, hlogged hended⟩
  | closed _ hts hended hts' =>
    refine ⟨?_, hlogged hended⟩
    rw [List.length_append, hts.length_eq htrace, hts'.length_eq htrace]

/-- If both are kept, two snapshots of every history are there, with one less or one more at the end. -/
theorem Setup.Interrupted.balanced {guess : Tensor α} {w w' : Course α × ω} {e : Failure} {d : Segment α}
    (h : s.Interrupted guess w e w' d) (htrace : w.1.trace.isSome) (hhistories : w.1.histories.isSome) :
    2 * d.histories.length ≤ d.trace.length + 1 ∧ d.trace.length ≤ 2 * d.histories.length + 1 := by
  cases h with
  | refused => exact ⟨Nat.zero_le _, Nat.zero_le _⟩
  | @round ds d h =>
    obtain ⟨q, hchain, -, i, j, hcomes⟩ := h
    obtain ⟨htraces, hjoined, htrace', hhistories'⟩ :=
      Completes.length_join (fun h => h.length_eq) hchain htrace hhistories
    obtain ⟨hlast, hlast'⟩ := hcomes.length_eq htrace' hhistories'
    show 2 * ((Segment.join ds).histories ++ d.histories).length
        ≤ ((Segment.join ds).trace ++ d.trace).length + 1 ∧
      ((Segment.join ds).trace ++ d.trace).length
        ≤ 2 * ((Segment.join ds).histories ++ d.histories).length + 1
    rw [List.length_append, List.length_append, htraces, hjoined, hlast, hlast']
    have hij : (i = 0 ∧ j = 0) ∨ (i = 1 ∧ j = 0) ∨ (i = 1 ∧ j = 1) ∨ (i = 2 ∧ j = 1) := by
      cases hcomes with
      | started => exact .inl ⟨rfl, rfl⟩
      | opened => exact .inr (.inl ⟨rfl, rfl⟩)
      | descended => exact .inr (.inr (.inl ⟨rfl, rfl⟩))
      | closed => exact .inr (.inr (.inr ⟨rfl, rfl⟩))
    omega

/-- A round is followed through its parts. -/
theorem round_leaves (number : Nat) (st : State α) (w : Course α × ω) :
    Leaves (round s number st) w (fun _ w' => ∃ d, s.Comes st w 2 1 d ∧ w'.1 = w.1.extend d)
      fun w' => ∃ d, (∃ i j, s.Comes st w i j d) ∧ w'.1 = w.1.extend d := by
  unfold round
  refine .bind_lift (fun _ _ => ⟨.empty, ⟨0, 0, .started⟩, (Course.extend_empty w.1).symm⟩) fun f hf => ?_
  refine .bind ((leaves_snapshot _ w).mono (fun _ _ => id) ?_) ?_
  · rintro w' ⟨ns, hw'⟩
    exact ⟨_, ⟨0, 0, .started⟩, hw'⟩
  rintro _ w₁ ⟨ts, hts, h₁⟩
  refine .bind ((leaves_descend _ w₁).mono (fun _ _ => id) ?_) ?_
  · rintro w' ⟨ns, hw'⟩
    refine ⟨⟨ts, [], ns⟩, ⟨1, 0, .opened hf hts⟩, ?_⟩
    rw [hw', h₁, Course.extend_extend]
    simp
  rintro x w₂ ⟨r, hr, h₂⟩
  rw [h₁, Course.innerRun_extend] at hr
  rw [h₁, Course.extend_extend] at h₂
  refine .bind ((leaves_snapshot _ w₂).mono (fun _ _ => id) ?_) ?_
  · rintro w' ⟨ns, hw'⟩
    refine ⟨⟨ts, r.history.toList, r.notices ++ ns⟩, ⟨1, 1, .descended hf hts hr⟩, ?_⟩
    rw [hw', h₂, Course.extend_extend]
    simp
  rintro _ w₃ ⟨ts', hts', h₃⟩
  rw [h₂] at hts'
  have hclosed (w' : Course α × ω) (hw' : SameRecords w₃ w') :
      ∃ d, s.Comes st w 2 1 d ∧ w'.1 = w.1.extend d := by
    obtain ⟨ns, hw'⟩ := hw'
    refine ⟨⟨ts ++ ts', r.history.toList, r.notices ++ ns⟩,
      .closed hf hts hr (Course.takes_extend hts'), ?_⟩
    rw [hw', h₃, h₂, Course.extend_extend, Course.extend_extend]
    simp
  -- What is left of the round adds nothing to the records.
  refine (Leaves.of_keeps (R := SameRecords) ?_).mono (fun _ w' hw' => hclosed w' hw') fun w' hw' => ?_
  · exact .bind (keeps_evaluate _) fun gx => .bind (keeps_evaluate _) fun fx =>
      .bind (keeps_notify _) fun _ => keeps_settle keeps_notify _ _ _ _ _ _
  · obtain ⟨d, hd, hw'⟩ := hclosed w' hw'
    exact ⟨d, ⟨2, 1, hd⟩, hw'⟩

/-- A run that fails is interrupted, and its records have grown by what it has added until then. -/
theorem interrupted_of_minimize_error {guess : Tensor α} {w w' : Course α × ω} {e : Failure}
    (h : attempt (minimize s.precision s.problem (.ok s.settings) guess) w = (.error e, w')) :
    ∃ d, s.Interrupted guess w e w' d ∧ w'.1 = w.1.extend d := by
  unfold minimize at h
  rcases hcheck : checkStart s.problem guess with e' | _
  · rw [hcheck, attempt_bind_of_error (attempt_lift _ w)] at h
    obtain ⟨he, rfl⟩ := Prod.mk.inj h
    obtain rfl := Except.error.inj he
    exact ⟨.empty, .refused hcheck rfl, (Course.extend_empty _).symm⟩
  rw [hcheck, attempt_bind_of_ok (attempt_lift _ w), attempt_bind_of_ok (attempt_lift _ w)] at h
  unfold run at h
  rcases attempt_bind_eq_error.mp h with h | ⟨⟨made, st⟩, u, -, h⟩
  · obtain ⟨ds, d, hfails, hw'⟩ := failsAfter_of_rounds_error round_leaves h
    exact ⟨_, .round hfails, hw'⟩
  · dsimp only at h
    rw [attempt_bind_of_ok (attempt_conclude _ u), attempt_pure] at h
    cases h

section Keeps

variable {R : ω → ω → Prop} [Std.Refl R] [Trans R R R] (hp : s.problem.Respects R)
include hp

/-- Only the functions of the problem touch the world in a snapshot. -/
theorem keeps_snapshot {st : State α} {objective : ScalarFunction m α}
    (h : s.objective st = .ok objective) (x : Tensor α) : Keeps R (s.snapshot st objective x) := by
  have hobjective : Keeps R (objective.evaluate x) := by
    intro w
    rw [Problem.attempt_evaluate_augmented h]
    exact Problem.keeps_augmentedValue hp.objective hp.constraints x w
  exact .bind (hp.objective x) fun _ => .bind (Problem.keeps_constraintValues hp.constraints x) fun _ =>
    .bind hobjective fun _ => .pure _

/-- Only the functions of the problem touch it in an inner descent, as its loss and its gradient. -/
theorem keeps_descent {st : State α} {objective : ScalarFunction m α}
    (h : s.objective st = .ok objective) (x : Tensor α) :
    Keeps (Beside R) (s.descent objective x) := by
  refine .bind_lift fun gradient hgradient => .bind (.lift _) fun settings => ?_
  refine keeps_of_descends (GradientDescent.run_descends _ x) (.pure _)
    (fun y => keeps_asRule fun w => ?_) fun y w => ?_
  · rw [Problem.attempt_evaluate_augmented h]
    exact Problem.keeps_augmentedValue hp.objective hp.constraints y w
  · obtain rfl := Except.ok.inj ((Problem.gradient_augmented h).symm.trans hgradient)
    dsimp only
    rw [Problem.attempt_evaluate_field]
    exact Problem.keeps_augmentedGradient hp.constraints hp.gradient hp.constraintGradients y w

/-- A run keeps what the functions of its problem keep. -/
theorem keeps_minimize (guess : Tensor α) :
    Keeps (Beside R) (minimize s.precision s.problem (.ok s.settings) guess) := by
  refine .bind (.lift _) fun _ => .bind_lift fun settings hsettings => ?_
  obtain rfl := Except.ok.inj hsettings
  refine .bind (.rounds (fun number st => ?_) _ _ _) fun _ => .bind (.conclude _) fun _ => .pure _
  refine .bind_lift fun f hf => ?_
  exact .bind (.snapshot (keeps_snapshot hp hf _)) fun _ => .bind (.descend (keeps_descent hp hf _)) fun x =>
    .bind (.snapshot (keeps_snapshot hp hf x)) fun _ =>
    .bind (.constrained_evaluate (Problem.keeps_constraintValues hp.constraints x)) fun gx =>
    .bind (.constrained_evaluate (hp.objective x)) fun fx => .bind (.constrained_notify _) fun _ =>
    keeps_settle .constrained_notify _ _ _ _ _ _

end Keeps

end AugmentedLagrangian

/-! ## The barrier method -/

namespace LogBarrier

/-- How far a round has come from a state in a world, with so many snapshots and inner descents, and what
it has added: it has started, made its descent, or taken its snapshot. -/
inductive Setup.Comes (s : Setup m α) (st : State α) (w : Course α × ω) : Nat → Nat → Segment α → Prop
  | started {ns} : s.Comes st w 0 0 ⟨[], [], ns⟩
  | descended {x r u ns} :
      attempt (s.descent st.weight st.point) (w.1.innerRun, w.2) = (.ok x, r, u) →
      s.Comes st w 0 1 ⟨[], r.history.toList, ns⟩
  | closed {x r u ts v ns} :
      attempt (s.descent st.weight st.point) (w.1.innerRun, w.2) = (.ok x, r, u) →
      w.1.Takes (s.snapshot st.weight x) u ts v → s.Comes st w 1 1 ⟨ts, r.history.toList, ns⟩

/-- The first snapshot of a run, and what it looks for before. -/
def Setup.opening (s : Setup m α) (guess : Tensor α) : Constrained m α Bool := do
  let told ← s.tellInfeasible none false (guess.convert s.precision)
  Constrained.snapshot (s.snapshot s.settings.initialWeight (guess.convert s.precision))
  return told

/-- How a run that starts in a world has failed, with all that it has added: its initial guess was refused,
it has failed at its opening, or behind that it has completed some rounds, and failed in the next one. -/
inductive Setup.Interrupted (s : Setup m α) (guess : Tensor α) (w : Course α × ω) (e : Failure)
    (w' : Course α × ω) : Segment α → Prop
  | refused : checkStart s.problem guess = .error e → w' = w → s.Interrupted guess w e w' .empty
  | opening {ns} : attempt (s.opening guess) w = (.error e, w') → s.Interrupted guess w e w' ⟨[], [], ns⟩
  | round {told u v ts ns ds d} :
      attempt (s.tellInfeasible none false (guess.convert s.precision)) w = (.ok told, u) →
      w.1.Takes (s.snapshot s.settings.initialWeight (guess.convert s.precision)) u.2 ts v.2 →
      v.1 = w.1.extend ⟨ts, [], ns⟩ →
      FailsAfter (LogBarrier.round s) (fun st u => s.Comes st u 1 1)
        (fun st u d => ∃ i j, s.Comes st u i j d)
        ⟨0, ⟨guess.convert s.precision, s.settings.initialWeight, told⟩, v⟩ ds d e w' →
      s.Interrupted guess w e w' (⟨ts, [], ns⟩ ++ (Segment.join ds ++ d))

variable {s : Setup m α}

/-- If both are kept, a round has added as many snapshots and histories as it has come to. -/
theorem Setup.Comes.length_eq {st : State α} {w : Course α × ω} {i j : Nat} {d : Segment α}
    (h : s.Comes st w i j d) (htrace : w.1.trace.isSome) (hhistories : w.1.histories.isSome) :
    d.trace.length = i ∧ d.histories.length = j := by
  have hlogged {weight x y u r v}
      (hended : attempt (s.descent weight x) (w.1.innerRun, u) = (.ok y, r, v)) :
      r.history.toList.length = 1 := by
    unfold Setup.descent at hended
    simp only [attempt_bind_eq_ok, attempt_lift_eq_ok] at hended
    obtain ⟨_, _, ⟨-, rfl⟩, hrun⟩ := hended
    obtain ⟨history, hhistory⟩ := GradientDescent.exists_history_of_run_ok hhistories hrun
    rw [hhistory]
    rfl
  cases h with
  | started => exact ⟨rfl, rfl⟩
  | descended hended => exact ⟨rfl, hlogged hended⟩
  | closed hended hts => exact ⟨hts.length_eq htrace, hlogged hended⟩

/-- If both are kept, there is a snapshot of every history, and maybe the one of the opening. -/
theorem Setup.Interrupted.balanced {guess : Tensor α} {w w' : Course α × ω} {e : Failure} {d : Segment α}
    (h : s.Interrupted guess w e w' d) (htrace : w.1.trace.isSome) (hhistories : w.1.histories.isSome) :
    d.histories.length ≤ d.trace.length ∧ d.trace.length ≤ d.histories.length + 1 := by
  cases h with
  | refused => exact ⟨Nat.zero_le _, Nat.zero_le _⟩
  | opening => exact ⟨Nat.zero_le _, Nat.zero_le _⟩
  | @round _ _ v ts ns ds d _ hts hv h =>
    obtain ⟨q, hchain, -, i, j, hcomes⟩ := h
    obtain ⟨htraces, hjoined, htrace', hhistories'⟩ := Completes.length_join (fun h => h.length_eq) hchain
      (hv ▸ Course.isSome_trace_extend htrace _) (hv ▸ Course.isSome_histories_extend hhistories _)
    obtain ⟨hlast, hlast'⟩ := hcomes.length_eq htrace' hhistories'
    show ([] ++ ((Segment.join ds).histories ++ d.histories)).length
        ≤ (ts ++ ((Segment.join ds).trace ++ d.trace)).length ∧
      (ts ++ ((Segment.join ds).trace ++ d.trace)).length
        ≤ ([] ++ ((Segment.join ds).histories ++ d.histories)).length + 1
    rw [List.nil_append, List.length_append, List.length_append, List.length_append,
      hts.length_eq htrace, htraces, hjoined, hlast, hlast']
    have hij : (i = 0 ∧ j = 0) ∨ (i = 0 ∧ j = 1) ∨ (i = 1 ∧ j = 1) := by
      cases hcomes with
      | started => exact .inl ⟨rfl, rfl⟩
      | descended => exact .inr (.inl ⟨rfl, rfl⟩)
      | closed => exact .inr (.inr ⟨rfl, rfl⟩)
    omega

/-- Looking for infeasible points only evaluates constraints and tells. -/
theorem keeps_tellInfeasible {R : Course α × ω → Course α × ω → Prop} [Std.Refl R] [Trans R R R]
    (hnotify : ∀ n, Keeps R (Constrained.notify (m := m) n))
    {x : Tensor α}
    (hvalues : Keeps R (Constrained.evaluate (s.problem.constraintValues x) : Constrained m α _))
    (number : Option Nat) (told : Bool) : Keeps R (s.tellInfeasible number told x) := by
  unfold Setup.tellInfeasible
  split
  · exact .pure _
  · refine .bind hvalues fun gx => ?_
    dsimp only
    split
    · exact .bind (hnotify _) fun _ => .pure _
    · exact .pure _

/-- A round is followed through its parts. -/
theorem round_leaves (number : Nat) (st : State α) (w : Course α × ω) :
    Leaves (round s number st) w (fun _ w' => ∃ d, s.Comes st w 1 1 d ∧ w'.1 = w.1.extend d)
      fun w' => ∃ d, (∃ i j, s.Comes st w i j d) ∧ w'.1 = w.1.extend d := by
  unfold round
  refine .bind ((leaves_descend _ w).mono (fun _ _ => id) ?_) ?_
  · rintro w' ⟨ns, hw'⟩
    exact ⟨_, ⟨0, 0, .started⟩, hw'⟩
  rintro x w₁ ⟨r, hr, h₁⟩
  refine .bind ((leaves_snapshot _ w₁).mono (fun _ _ => id) ?_) ?_
  · rintro w' ⟨ns, hw'⟩
    refine ⟨⟨[], r.history.toList, r.notices ++ ns⟩, ⟨0, 1, .descended hr⟩, ?_⟩
    rw [hw', h₁, Course.extend_extend]
    simp
  rintro _ w₂ ⟨ts, hts, h₂⟩
  rw [h₁] at hts
  -- With its snapshot a round is closed, and none of the parts behind it touches the records.
  have hclosed (w' : Course α × ω) (hw' : SameRecords w₂ w') :
      ∃ d, s.Comes st w 1 1 d ∧ w'.1 = w.1.extend d := by
    obtain ⟨ns, hw'⟩ := hw'
    refine ⟨⟨ts, r.history.toList, r.notices ++ ns⟩, .closed hr (Course.takes_extend hts), ?_⟩
    rw [hw', h₂, h₁, Course.extend_extend, Course.extend_extend]
    simp
  refine (Leaves.of_keeps (R := SameRecords) ?_).mono (fun _ w' hw' => hclosed w' hw') fun w' hw' => ?_
  · exact .bind (keeps_tellInfeasible keeps_notify (keeps_evaluate _) _ _) fun told =>
      .bind (keeps_evaluate _) fun fx => .bind (keeps_notify _) fun _ =>
        keeps_settle keeps_notify _ _ _ _ _ _
  · obtain ⟨d, hd, hw'⟩ := hclosed w' hw'
    exact ⟨d, ⟨1, 1, hd⟩, hw'⟩

/-- The opening of a run adds nothing, unless it succeeds with a snapshot. -/
theorem opening_leaves (guess : Tensor α) (w : Course α × ω) :
    Leaves (s.opening guess) w
      (fun told w' => ∃ u ts ns,
        attempt (s.tellInfeasible none false (guess.convert s.precision)) w = (.ok told, u) ∧
        w.1.Takes (s.snapshot s.settings.initialWeight (guess.convert s.precision)) u.2 ts w'.2 ∧
          w'.1 = w.1.extend ⟨ts, [], ns⟩) (SameRecords w) := by
  have htell : Leaves (s.tellInfeasible none false (guess.convert s.precision)) w
      (fun _ => SameRecords w) (SameRecords w) :=
    .of_keeps (keeps_tellInfeasible keeps_notify (keeps_evaluate _) _ _)
  rcases htold : attempt (s.tellInfeasible none false (guess.convert s.precision)) w with ⟨e | told, u⟩
  · exact .of_error (attempt_bind_of_error htold _) (htell.error htold)
  obtain ⟨ns, hu⟩ := htell.ok htold
  refine .bind_of_ok htold (.bind ((leaves_snapshot _ u).mono (fun _ _ => id) fun w' hw' => ?_) ?_)
  · exact Trans.trans (show SameRecords w u from ⟨ns, hu⟩) hw'
  rintro _ w' ⟨ts, hts, hw'⟩
  rw [hu] at hts
  refine .pure ⟨u, ts, ns, rfl, Course.takes_extend hts, ?_⟩
  rw [hw', hu, Course.extend_extend]
  simp

/-- A run that fails is interrupted, and its records have grown by what it has added until then. -/
theorem interrupted_of_minimize_error {guess : Tensor α} {w w' : Course α × ω} {e : Failure}
    (h : attempt (minimize s.precision s.problem (.ok s.settings) guess) w = (.error e, w')) :
    ∃ d, s.Interrupted guess w e w' d ∧ w'.1 = w.1.extend d := by
  unfold minimize at h
  rcases hcheck : checkStart s.problem guess with e' | _
  · rw [hcheck, attempt_bind_of_error (attempt_lift _ w)] at h
    obtain ⟨he, rfl⟩ := Prod.mk.inj h
    obtain rfl := Except.error.inj he
    exact ⟨.empty, .refused hcheck rfl, (Course.extend_empty _).symm⟩
  rw [hcheck, attempt_bind_of_ok (attempt_lift _ w), attempt_bind_of_ok (attempt_lift _ w)] at h
  -- A run that fails before its first round fails in its opening, at the warning or at the first snapshot.
  have hopens (hopening : attempt (s.opening guess) w = (.error e, w')) :
      ∃ d, s.Interrupted guess w e w' d ∧ w'.1 = w.1.extend d := by
    obtain ⟨ns, hw'⟩ := (opening_leaves guess w).error hopening
    exact ⟨_, .opening hopening, hw'⟩
  unfold run at h
  rcases attempt_bind_eq_error.mp h with h | ⟨told, u, htold, h⟩
  · exact hopens (attempt_bind_of_error h _)
  rcases attempt_bind_eq_error.mp h with h | ⟨_, u, hshown, h⟩
  · exact hopens ((attempt_bind_of_ok htold _).trans (attempt_bind_of_error h _))
  have hopening : attempt (s.opening guess) w = (.ok told, u) :=
    (attempt_bind_of_ok htold _).trans ((attempt_bind_of_ok hshown _).trans (attempt_pure told u))
  obtain ⟨v, ts, ns, htold, hts, hu⟩ := (opening_leaves guess w).ok hopening
  -- Behind its rounds a run only sets its report.
  rcases attempt_bind_eq_error.mp h with h | ⟨⟨made, st⟩, u, -, h⟩
  · obtain ⟨ds, d, hfails, hw'⟩ := failsAfter_of_rounds_error round_leaves h
    exact ⟨_, .round htold hts hu hfails, by rw [hw', hu, Course.extend_extend]⟩
  · dsimp only at h
    rw [attempt_bind_of_ok (attempt_conclude _ u), attempt_pure] at h
    cases h

section Keeps

variable {R : ω → ω → Prop} [Std.Refl R] [Trans R R R] (hp : s.problem.Respects R)
include hp

theorem keeps_snapshot (weight : α) (x : Tensor α) : Keeps R (s.snapshot weight x) := by
  have hbarrier : Keeps R ((s.problem.barrier s.precision weight).evaluate x) := by
    intro w
    rw [Problem.attempt_evaluate_barrier]
    exact Problem.keeps_barrierValue hp.objective hp.constraints x w
  exact .bind (Problem.keeps_constraintValues hp.constraints x) fun _ => .bind (hp.objective x) fun _ =>
    .bind hbarrier fun _ => .pure _

theorem keeps_descent (weight : α) (x : Tensor α) : Keeps (Beside R) (s.descent weight x) := by
  refine .bind (.lift _) fun settings => keeps_of_descends (GradientDescent.run_descends _ x) (.pure _)
    (fun y => keeps_asRule fun w => ?_) fun y => ?_
  · rw [Problem.attempt_evaluate_barrier]
    exact Problem.keeps_barrierValue hp.objective hp.constraints y w
  · exact Problem.keeps_barrierGradient hp.constraints hp.gradient hp.constraintGradients y

/-- A run keeps what the functions of its problem keep. -/
theorem keeps_minimize (guess : Tensor α) :
    Keeps (Beside R) (minimize s.precision s.problem (.ok s.settings) guess) := by
  have htell (number : Option Nat) (told : Bool) (x : Tensor α) :
      Keeps (Beside R) (s.tellInfeasible number told x) :=
    keeps_tellInfeasible .constrained_notify
      (.constrained_evaluate (Problem.keeps_constraintValues hp.constraints x)) number told
  refine .bind (.lift _) fun _ => .bind_lift fun settings hsettings => ?_
  obtain rfl := Except.ok.inj hsettings
  refine .bind (htell _ _ _) fun _ => .bind (.snapshot (keeps_snapshot hp _ _)) fun _ => ?_
  refine .bind (.rounds (fun number st => ?_) _ _ _) fun _ => .bind (.conclude _) fun _ => .pure _
  exact .bind (.descend (keeps_descent hp _ _)) fun x => .bind (.snapshot (keeps_snapshot hp _ x)) fun _ =>
    .bind (htell _ _ x) fun told => .bind (.constrained_evaluate (hp.objective x)) fun fx =>
    .bind (.constrained_notify _) fun _ => keeps_settle .constrained_notify _ _ _ _ _ _

end Keeps

end LogBarrier

end Minimization
