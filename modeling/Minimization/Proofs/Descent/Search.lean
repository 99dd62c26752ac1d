import Minimization.Descent.LineSearch
import Minimization.Proofs.Stateful

/-!
# Line searches

A line search goes from one trial to the next, each of them a shrink behind the one before. `Shrinks`
follows it trial by trial, in whatever world the loss is evaluated, and counts the shrinks. It says all that
a search does: a search that ends has made such shrinks (`shrinks_of_search_ok`), and wherever they can be
made the search makes them (`Shrinks.attempt_eq`).

If the loss leaves no traces, the worlds between the trials do not matter. Then `Searched` names the trials
by their numbers, which is the same (`searched_iff`).
-/

namespace Minimization.GradientDescent

variable {α : Type}

/-! ## Sizes -/

/-- The step sizes that a line search records. -/
def recordSizes (sizes : List α) (h : History α) : History α :=
  { h with stepSizes := h.stepSizes ++ sizes }

@[simp] theorem recordSizes_nil : recordSizes ([] : List α) = id := by
  funext h
  rw [recordSizes, List.append_nil]
  rfl

/-- Sizes that are recorded in two goes are recorded in one. -/
theorem recordSizes_comp (xs ys : List α) :
    recordSizes ys ∘ recordSizes xs = recordSizes (xs ++ ys) := by
  funext h
  rw [Function.comp_apply, recordSizes, recordSizes, recordSizes, List.append_assoc]

variable [Scalar α]

/-- The trial size after some shrinks. -/
def Settings.shrunk (h : Settings α) (a : α) : Nat → α
  | 0 => a
  | i + 1 => h.shrunk (a * h.shrinkFactor) i

/-- The sizes after the first one, for a number of shrinks. -/
def Settings.laterSizes (h : Settings α) (a : α) (shrinks : Nat) : List α :=
  (List.range shrinks).map fun i => h.shrunk a (i + 1)

@[simp] theorem Settings.laterSizes_zero (h : Settings α) (a : α) : h.laterSizes a 0 = [] := rfl

theorem Settings.laterSizes_succ (h : Settings α) (a : α) (shrinks : Nat) :
    h.laterSizes a (shrinks + 1)
      = a * h.shrinkFactor :: h.laterSizes (a * h.shrinkFactor) shrinks := by
  rw [laterSizes, List.range_succ_eq_map, List.map_cons, List.map_map]
  rfl

/-! ## Trials -/

section Trials

variable {m : Type → Type} [Monad m] {ω : Type} [Stateful m ω] {s : Setup m α} {x d : Tensor α}
  {bound : α → α}

/-- A trial of a size along `d` is evaluated in a world, which leaves another one, and is rejected or
accepted. -/
def Tried (s : Setup m α) (x d : Tensor α) (bound : α → α) (a : α) (u : ω) (rejected : Bool) (v : ω) :
    Prop :=
  ∃ there answer value, x.moveBy (d.scale a) = .ok there ∧
    attempt (s.loss there) u = (.ok answer, v) ∧ answer.operand = .ok value ∧
    Scalar.lt (bound a) value = rejected

/-- A line search from the size `a` with `left` shrinks makes a number of them: every trial but the last
one is rejected, and the last one only if no shrinks are left. -/
inductive Shrinks (s : Setup m α) (x d : Tensor α) (bound : α → α) :
    (left : Nat) → (a : α) → (u : ω) → (shrinks : Nat) → (exhausted : Bool) → (v : ω) → Prop
  | accepted {left a u v} : Tried s x d bound a u false v → Shrinks s x d bound left a u 0 false v
  | exhausted {a u v} : Tried s x d bound a u true v → Shrinks s x d bound 0 a u 0 true v
  | shrunk {left a u v n exhausted w} : Tried s x d bound a u true v →
      Shrinks s x d bound left (a * s.settings.shrinkFactor) v n exhausted w →
      Shrinks s x d bound (left + 1) a u (n + 1) exhausted w

/-- No search makes more shrinks than are left to it. -/
theorem Shrinks.le {left n : Nat} {a : α} {u v : ω}
    {exhausted : Bool} (h : Shrinks s x d bound left a u n exhausted v) : n ≤ left := by
  induction h with
  | accepted _ => exact Nat.zero_le _
  | exhausted _ => exact Nat.le_refl 0
  | shrunk _ _ ih => exact Nat.succ_le_succ ih

/-- A search makes all of its shrinks if none of its trials is accepted. -/
theorem Shrinks.eq_of_exhausted {left n : Nat} {a : α} {u v : ω} {exhausted : Bool}
    (h : Shrinks s x d bound left a u n exhausted v) (he : exhausted = true) : n = left := by
  induction h with
  | accepted _ => cases he
  | exhausted _ => rfl
  | shrunk _ _ ih => exact congrArg (· + 1) (ih he)

/-- The last trial is accepted unless the search is exhausted. -/
theorem Shrinks.settled {left n : Nat} {a : α} {u v : ω} {exhausted : Bool}
    (h : Shrinks s x d bound left a u n exhausted v) :
    ∃ w, Tried s x d bound (s.settings.shrunk a n) w exhausted v := by
  induction h with
  | accepted htried => exact ⟨_, htried⟩
  | exhausted htried => exact ⟨_, htried⟩
  | shrunk _ _ ih => exact ih

/-- All trials before the last one are rejected. -/
theorem Shrinks.rejected {left n : Nat} {a : α} {u v : ω} {exhausted : Bool}
    (h : Shrinks s x d bound left a u n exhausted v) {i : Nat} (hi : i < n) :
    ∃ w w', Tried s x d bound (s.settings.shrunk a i) w true w' := by
  induction h generalizing i with
  | accepted _ => cases hi
  | exhausted _ => cases hi
  | shrunk htried _ ih =>
    cases i with
    | zero => exact ⟨_, _, htried⟩
    | succ i => exact ih (Nat.lt_of_succ_lt_succ hi)

/-- A search that ends has tried its first size. -/
theorem tried_of_search_ok {left : Nat} {a : α} {t : Trial α} {w w' : Run α × ω}
    (h : attempt (search s x d bound left a (d.scale a)) w = (.ok t, w')) :
    ∃ rejected v, Tried s x d bound a w.2 rejected v := by
  unfold search at h
  simp only [attempt_bind_eq_ok, attempt_lift_eq_ok, attempt_evaluate_eq_ok] at h
  obtain ⟨there, _, ⟨hthere, rfl⟩, answer, _, ⟨hanswer, -⟩, value, _, ⟨hvalue, rfl⟩, h⟩ := h
  exact ⟨_, _, there, answer, value, hthere, hanswer, hvalue, rfl⟩

/-- A search goes on from its first trial as the comparison says. -/
theorem Tried.attempt_eq {left : Nat} {a : α} {w : Run α × ω} {rejected : Bool} {v : ω}
    (h : Tried s x d bound a w.2 rejected v) :
    attempt (search s x d bound left a (d.scale a)) w = attempt (if !rejected then
        return ⟨a, d.scale a, false⟩
      else
        match left with
        | 0 => return ⟨a, d.scale a, true⟩
        | left + 1 => do
          Descent.record (·.addStepSize (a * s.settings.shrinkFactor))
          search s x d bound left (a * s.settings.shrinkFactor)
            (d.scale (a * s.settings.shrinkFactor)) : Descent m α (Trial α)) (w.1, v) := by
  obtain ⟨there, answer, value, hthere, hanswer, hvalue, rfl⟩ := h
  have hevaluate : attempt (Descent.evaluate (s.loss there) : Descent m α (Answer α)) w
      = (.ok answer, w.1, v) := by
    rw [attempt_evaluate, hanswer]
  rw [search.eq_def]
  refine (attempt_bind_of_ok (attempt_lift_eq_ok.mpr ⟨hthere, rfl⟩) _).trans
    ((attempt_bind_of_ok hevaluate _).trans
      ((attempt_bind_of_ok (attempt_lift_eq_ok.mpr ⟨hvalue, rfl⟩) _).trans ?_))
  cases left with
  | zero => rfl
  | succ left => rfl

variable {left n : Nat} {a : α} {w : Run α × ω} {u v : ω} {exhausted : Bool}

/-- A trial that is accepted ends the search. -/
theorem Tried.attempt_accepted (h : Tried s x d bound a w.2 false v) (left : Nat) :
    attempt (search s x d bound left a (d.scale a)) w = (.ok ⟨a, d.scale a, false⟩, w.1, v) :=
  h.attempt_eq.trans (attempt_pure ..)

/-- A trial that is rejected ends the search if no shrinks are left. -/
theorem Tried.attempt_exhausted (h : Tried s x d bound a w.2 true v) :
    attempt (search s x d bound 0 a (d.scale a)) w = (.ok ⟨a, d.scale a, true⟩, w.1, v) :=
  h.attempt_eq.trans (attempt_pure ..)

/-- Otherwise the search goes on with the next size. -/
theorem Tried.attempt_shrunk (h : Tried s x d bound a w.2 true v) (left : Nat) :
    attempt (search s x d bound (left + 1) a (d.scale a)) w =
      attempt (search s x d bound left (a * s.settings.shrinkFactor)
        (d.scale (a * s.settings.shrinkFactor)))
        (w.1.record (recordSizes [a * s.settings.shrinkFactor]), v) :=
  h.attempt_eq.trans (attempt_bind_of_ok (attempt_record _ _) _)

/-- A line search makes the shrinks that can be made. -/
theorem Shrinks.attempt_eq (h : Shrinks s x d bound left a u n exhausted v) (r : Run α) :
    attempt (search s x d bound left a (d.scale a)) (r, u)
      = (.ok ⟨s.settings.shrunk a n, d.scale (s.settings.shrunk a n), exhausted⟩,
          r.record (recordSizes (s.settings.laterSizes a n)), v) := by
  induction h generalizing r with
  | accepted htried =>
    rw [Settings.laterSizes_zero, recordSizes_nil, Run.record_id]
    exact htried.attempt_accepted _
  | exhausted htried =>
    rw [Settings.laterSizes_zero, recordSizes_nil, Run.record_id]
    exact htried.attempt_exhausted
  | shrunk htried _ ih =>
    rw [Tried.attempt_shrunk (w := (r, _)) htried, ih, Run.record_record, recordSizes_comp,
      Settings.laterSizes_succ, List.singleton_append]
    rfl

/-- A line search that ends has made some shrinks, and has recorded the sizes after the first one. -/
theorem shrinks_of_search_ok {t : Trial α} :
    ∀ {left : Nat} {a : α} {w w' : Run α × ω},
      attempt (search s x d bound left a (d.scale a)) w = (.ok t, w') →
      ∃ n, Shrinks s x d bound left a w.2 n t.exhausted w'.2 ∧
        t.stepSize = s.settings.shrunk a n ∧ t.step = d.scale t.stepSize ∧
        w'.1 = w.1.record (recordSizes (s.settings.laterSizes a n)) := by
  -- By induction on the shrinks that are left, for all first sizes at once.
  intro left
  induction left with
  | zero =>
    intro a w w' h
    obtain ⟨_ | _, v, htried⟩ := tried_of_search_ok h
    · obtain ⟨ht, rfl⟩ := Prod.mk.inj ((htried.attempt_accepted 0).symm.trans h)
      obtain rfl := Except.ok.inj ht
      exact ⟨0, .accepted htried, rfl, rfl, by simp⟩
    · obtain ⟨ht, rfl⟩ := Prod.mk.inj (htried.attempt_exhausted.symm.trans h)
      obtain rfl := Except.ok.inj ht
      exact ⟨0, .exhausted htried, rfl, rfl, by simp⟩
  | succ left ih =>
    intro a w w' h
    obtain ⟨_ | _, v, htried⟩ := tried_of_search_ok h
    · obtain ⟨ht, rfl⟩ := Prod.mk.inj ((htried.attempt_accepted (left + 1)).symm.trans h)
      obtain rfl := Except.ok.inj ht
      exact ⟨0, .accepted htried, rfl, rfl, by simp⟩
    · rw [htried.attempt_shrunk] at h
      obtain ⟨n, hshrinks, hsize, hstep, hrun⟩ := ih h
      -- One more shrink: this size is the first one that was rejected.
      refine ⟨n + 1, .shrunk htried hshrinks, hsize, hstep, ?_⟩
      rw [hrun, Run.record_record, recordSizes_comp, Settings.laterSizes_succ, List.singleton_append]

end Trials

/-! ## Losses without traces -/

section Traceless

variable {s : Setup Id α} {x d : Tensor α} {bound : α → α} {left shrinks : Nat} {a : α} {t : Trial α}
  {rejected : Bool}

/-- A trial of a size along `d` is evaluated and rejected, or evaluated and accepted. -/
def Tries (s : Setup Id α) (x d : Tensor α) (bound : α → α) (a : α) (rejected : Bool) : Prop :=
  ∃ there answer value, x.moveBy (d.scale a) = .ok there ∧ s.loss there = pure answer ∧
    answer.operand = .ok value ∧ Scalar.lt (bound a) value = rejected

/-- A line search from the size `a` with `left` shrinks settles on a trial after some shrinks: all
sizes before are rejected, and the last one is too if and only if the search is exhausted. -/
structure Searched (s : Setup Id α) (x d : Tensor α) (bound : α → α) (left : Nat) (a : α)
    (shrinks : Nat) (t : Trial α) : Prop where
  shrinks_le : shrinks ≤ left
  stepSize_eq : t.stepSize = s.settings.shrunk a shrinks
  step_eq : t.step = d.scale t.stepSize
  rejected : ∀ i < shrinks, Tries s x d bound (s.settings.shrunk a i) true
  settled : Tries s x d bound t.stepSize t.exhausted
  exhausted : t.exhausted = true → shrinks = left

/-- A trial without traces is one in the only world that there is. -/
theorem tries_iff_tried : Tries s x d bound a rejected ↔ Tried s x d bound a () rejected () := by
  have hloss (there : Tensor α) (answer : Answer α) :
      s.loss there = pure answer ↔ attempt (s.loss there) () = (.ok answer, ()) :=
    ⟨fun h => congrArg (fun o => (o, ())) h, fun h => (Prod.mk.inj h).1⟩
  simp only [Tries, Tried, hloss]

/-- Shrinks can be counted, or their trials numbered. -/
theorem searched_iff : Searched s x d bound left a shrinks t ↔
    Shrinks s x d bound left a () shrinks t.exhausted () ∧
      t.stepSize = s.settings.shrunk a shrinks ∧ t.step = d.scale t.stepSize := by
  constructor
  · intro h
    refine ⟨?_, h.stepSize_eq, h.step_eq⟩
    obtain ⟨hle, hsize, -, hrejected, hsettled, hexhausted⟩ := h
    rw [hsize] at hsettled
    -- By induction on the shrinks, from a smaller size each; the last trial settles in both accounts.
    induction shrinks generalizing left a with
    | zero =>
      cases he : t.exhausted with
      | false => exact .accepted (tries_iff_tried.mp (he ▸ hsettled))
      | true =>
        obtain rfl : 0 = left := hexhausted he
        exact .exhausted (tries_iff_tried.mp (he ▸ hsettled))
    | succ shrinks ih =>
      obtain ⟨left, rfl⟩ : ∃ k, left = k + 1 := Nat.exists_eq_add_of_le' (Nat.one_le_of_lt hle)
      refine .shrunk (tries_iff_tried.mp (hrejected 0 (Nat.succ_pos _))) ?_
      exact ih (Nat.le_of_succ_le_succ hle) hsize (fun i hi => hrejected (i + 1) (Nat.succ_lt_succ hi))
        hsettled fun he => Nat.succ.inj (hexhausted he)
  · rintro ⟨h, hsize, hstep⟩
    refine ⟨h.le, hsize, hstep, fun i hi => ?_, ?_, h.eq_of_exhausted⟩
    · obtain ⟨_, _, htried⟩ := h.rejected hi
      exact tries_iff_tried.mpr htried
    · obtain ⟨_, htried⟩ := h.settled
      exact hsize ▸ tries_iff_tried.mpr htried

end Traceless

end Minimization.GradientDescent
