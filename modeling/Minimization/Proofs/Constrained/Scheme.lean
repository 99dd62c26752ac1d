import Minimization.Proofs.Chained
import Minimization.Proofs.Stateful
import Minimization.Proofs.Tensor.Rounding

/-!
# Methods that make rounds

The constrained solvers share their outer loop: a run opens with a state, makes rounds until one of them
is the last one or their number reaches a limit, and reports the state that it ends with. A `Scheme` is
this loop. `Stands` says where a run is after some rounds, and `run_ok` that a run which ends has stood
there.

A scheme that never ends early can be compared with one that makes the same rounds, but stops after the
first one that settles: `Stops.cut` says that the second run is the first one, cut off there.
-/

namespace Minimization

/-! ## The end of a round -/

namespace Constrained

variable {α : Type} [Scalar α]

/-- The end of a round hands the state on, and at most tells that the run settles. -/
theorem attempt_settle_ok {m : Type → Type} [Monad m] {ω : Type} [Stateful m ω] {σ : Type}
    {tolerance : Tolerance α} {x y : Tensor α} {asked : α → α} {notice : α → α → Notice α} {next st : σ}
    {done : Bool} {w w' : Course α × ω}
    (h : attempt (settle (m := m) tolerance x y asked notice next) w = (.ok (st, done), w')) :
    next = st ∧ ∃ notices, w' = (w.1.extend ⟨[], [], notices⟩, w.2) ∧
      ∀ k ∈ notices, ∃ a b, k = notice a b := by
  have hsame : (w.1.extend ⟨[], [], []⟩, w.2) = w := congrArg (·, w.2) (Course.extend_empty w.1)
  unfold settle at h
  split at h
  next =>
    obtain ⟨heq, rfl⟩ := attempt_pure_eq_ok.mp h
    exact ⟨(Prod.mk.inj heq).1, [], hsame.symm, nofun⟩
  next =>
    obtain ⟨moved, _, hmoved, h⟩ := attempt_bind_eq_ok.mp h
    obtain ⟨-, rfl⟩ := attempt_lift_eq_ok.mp hmoved
    obtain ⟨within, _, hwithin, h⟩ := attempt_bind_eq_ok.mp h
    obtain ⟨-, rfl⟩ := attempt_lift_eq_ok.mp hwithin
    rcases within with _ | t
    · obtain ⟨heq, rfl⟩ := attempt_pure_eq_ok.mp h
      exact ⟨(Prod.mk.inj heq).1, [], hsame.symm, nofun⟩
    · dsimp only at h
      rw [attempt_bind_of_ok (attempt_constrained_notify _ w), attempt_pure_eq_ok] at h
      refine ⟨(Prod.mk.inj h.1).1, [notice moved t], ?_, List.forall_mem_singleton.mpr ⟨moved, t, rfl⟩⟩
      rw [Course.extend_notices]
      exact h.2.symm

/-- The decision whether a round is the last one leaves nothing but notices. -/
theorem settle_ok {σ : Type} {tolerance : Tolerance α} {x y : Tensor α} {asked : α → α}
    {notice : α → α → Notice α} {next st : σ} {done : Bool} {c c' : Course α}
    (h : perform (settle tolerance x y asked notice next) c = (.ok (st, done), c')) :
    next = st ∧ ∃ notices, c' = c.extend ⟨[], [], notices⟩ ∧ ∀ k ∈ notices, ∃ a b, k = notice a b := by
  obtain ⟨hst, notices, hc', hnotices⟩ := attempt_settle_ok (attempt_of_perform h)
  exact ⟨hst, notices, congrArg Prod.fst hc', hnotices⟩

/-- With a tolerance the numbers decide. -/
theorem settle_upTo {σ : Type} {t moved : α} {x y : Tensor α} {asked : α → α}
    {notice : α → α → Notice α} {st : σ}
    (hmoved : y.dist x = .ok moved) (c : Course α) :
    perform (settle (.upTo t) x y asked notice st) c =
      if Scalar.le moved t && Scalar.le (asked moved) t then
        (.ok (st, true), c.extend ⟨[], [], [notice moved t]⟩)
      else (.ok (st, false), c) := by
  unfold settle
  show perform (liftM (y.dist x) >>= fun moved =>
    liftM (within (.upTo t) moved (asked moved)) >>= _) c = _
  rw [hmoved, lift_ok_bind, within, lift_ok_bind]
  cases Scalar.le moved t && Scalar.le (asked moved) t with
  | false => rfl
  | true =>
    rw [if_pos rfl, if_pos rfl]
    exact (perform_bind_of_ok (perform_constrained_notify _ c) _).trans (perform_pure _ _)

/-- Whether a round is the last one can be decided for a tolerance that is a number. -/
theorem settle_total {σ : Type} {tolerance : Tolerance α} (ht : tolerance ≠ .incomparable)
    {x y : Tensor α} (hshape : y.shape = x.shape) (asked : α → α) (notice : α → α → Notice α) (next : σ)
    (c : Course α) :
    ∃ done c', perform (settle tolerance x y asked notice next) c = (.ok (next, done), c') := by
  obtain ⟨moved, hmoved⟩ := Tensor.dist_ok hshape
  cases tolerance with
  | none => exact ⟨false, c, rfl⟩
  | upTo t =>
    rw [settle_upTo hmoved]
    split
    next => exact ⟨true, _, rfl⟩
    next => exact ⟨false, c, rfl⟩
  | incomparable => exact absurd rfl ht

end Constrained

/-! ## Schemes -/

/-- A method that makes rounds, which are counted from one. -/
structure Scheme (σ α : Type) where
  opening : Constrained Id α σ
  round : Nat → σ → Constrained Id α (σ × Bool)
  limit : Nat
  point : σ → Tensor α
  report : Nat → σ → ConstrainedReport α

namespace Scheme

variable {σ α : Type}

/-- The run of a scheme. -/
def run (S : Scheme σ α) : Constrained Id α (Tensor α) := do
  let st ← S.opening
  let (made, st) ← Constrained.rounds S.round S.limit 0 st
  Constrained.conclude (S.report made st)
  return S.point st

/-! ## Where a run stands -/

/-- The round with a number leads from a state and a course to others. -/
def Advances (S : Scheme σ α) (p : σ × Course α) (number : Nat) (q : σ × Course α) : Prop :=
  ∃ done, perform (S.round number p.1) p.2 = (.ok (q.1, done), q.2)

/-- A run with a course at its start has this state and this course after `n` rounds. -/
def Stands (S : Scheme σ α) (c : Course α) (n : Nat) (p : σ × Course α) : Prop :=
  ∃ o : σ × Course α, perform S.opening c = (.ok o.1, o.2) ∧ Chained S.Advances o (List.range' 1 n) p

/-- No round is ever the last one. -/
def Endless (S : Scheme σ α) : Prop :=
  ∀ {n st u next done v}, perform (S.round n st) u = (.ok (next, done), v) → done = false

variable {S S' : Scheme σ α} {c : Course α} {n m : Nat} {p p' q : σ × Course α}

/-- Rounds are determined by where they start, and so is where a run stands. -/
theorem Advances.unique (h : S.Advances p n q) {q' : σ × Course α} (h' : S.Advances p n q') :
    q = q' := by
  obtain ⟨_, h⟩ := h
  obtain ⟨_, h'⟩ := h'
  have heq := h.symm.trans h'
  rw [Prod.mk.injEq, Except.ok.injEq, Prod.mk.injEq] at heq
  exact Prod.ext heq.1.1 heq.2

theorem Stands.unique (h : S.Stands c n p) (h' : S.Stands c n p') : p = p' := by
  obtain ⟨o, ho, h⟩ := h
  obtain ⟨o', ho', h'⟩ := h'
  have heq := ho.symm.trans ho'
  rw [Prod.mk.injEq, Except.ok.injEq] at heq
  obtain rfl : o = o' := Prod.ext heq.1 heq.2
  exact h.unique (fun he he' => he.unique he') h'

/-- One more round leads from where a run stands to where it stands then. -/
theorem Stands.next (h : S.Stands c n p) (hq : S.Advances p (n + 1) q) : S.Stands c (n + 1) q := by
  obtain ⟨o, ho, h⟩ := h
  refine ⟨o, ho, ?_⟩
  rw [List.range'_1_concat, Nat.add_comm 1 n]
  exact h.snoc hq

/-- Wherever a run stands but at the start, it has got there by a round. -/
theorem Stands.previous (h : S.Stands c (n + 1) q) : ∃ p, S.Stands c n p ∧ S.Advances p (n + 1) q := by
  obtain ⟨o, ho, h⟩ := h
  rw [List.range'_1_concat, Nat.add_comm 1 n] at h
  obtain ⟨p, hp, hq⟩ := h.unsnoc
  exact ⟨p, ⟨o, ho, hp⟩, hq⟩

/-- A run has made every round before it comes to stand somewhere. -/
theorem Stands.earlier (h : S.Stands c m q) (hn : n < m) :
    ∃ p p', S.Stands c n p ∧ S.Advances p (n + 1) p' := by
  induction hn generalizing q with
  | refl =>
    obtain ⟨p, hp, hq⟩ := h.previous
    exact ⟨p, q, hp, hq⟩
  | step _ ih =>
    obtain ⟨p, hp, -⟩ := h.previous
    exact ih hp

/-- Rounds that succeed lead to where the run stands then. -/
theorem rounds_ok {left made : Nat} {st : σ} {c' : Course α} (hp : S.Stands c n p)
    (h : perform (Constrained.rounds S.round left n p.1) p.2 = (.ok (made, st), c')) :
    S.Stands c made (st, c') ∧ made ≤ n + left ∧ (S.Endless → made = n + left) := by
  induction left generalizing n p with
  | zero =>
    obtain ⟨heq, rfl⟩ := perform_pure_eq_ok.mp h
    obtain ⟨rfl, rfl⟩ := Prod.mk.inj heq
    exact ⟨hp, Nat.le_refl _, fun _ => rfl⟩
  | succ left ih =>
    unfold Constrained.rounds at h
    obtain ⟨⟨next, done⟩, u, hround, h⟩ := perform_bind_eq_ok.mp h
    have hnext : S.Stands c (n + 1) (next, u) := hp.next ⟨done, hround⟩
    cases done with
    | true =>
      obtain ⟨heq, rfl⟩ := perform_pure_eq_ok.mp h
      obtain ⟨rfl, rfl⟩ := Prod.mk.inj heq
      refine ⟨hnext, by omega, fun hendless => ?_⟩
      cases hendless hround
    | false =>
      obtain ⟨hstands, hle, heq⟩ := ih hnext h
      refine ⟨hstands, by omega, fun hendless => ?_⟩
      rw [heq hendless]
      omega

/-- A run that ends has made a number of rounds, and reports where it stands then. -/
theorem run_ok {x : Tensor α} {v : Course α} (h : perform S.run c = (.ok x, v)) :
    ∃ n p, S.Stands c n p ∧ n ≤ S.limit ∧ x = S.point p.1 ∧ v = { p.2 with report := S.report n p.1 } ∧
      (S.Endless → n = S.limit) := by
  unfold run at h
  obtain ⟨st₀, c₀, hopening, h⟩ := perform_bind_eq_ok.mp h
  obtain ⟨⟨made, st⟩, c₁, hrounds, h⟩ := perform_bind_eq_ok.mp h
  dsimp only at h
  rw [perform_bind_of_ok (perform_conclude _ _), perform_pure_eq_ok] at h
  have hstart : S.Stands c 0 (st₀, c₀) := ⟨(st₀, c₀), hopening, .none⟩
  obtain ⟨hstands, hle, heq⟩ := rounds_ok hstart hrounds
  rw [Nat.zero_add] at hle heq
  exact ⟨made, (st, c₁), hstands, hle, h.1.symm, h.2.symm, heq⟩

/-- Rounds succeed, if every round does that starts where the invariant holds. -/
theorem rounds_total {I : σ → Prop} (hround : ∀ {number st u}, I st →
      ∃ next done v, perform (S.round number st) u = (.ok (next, done), v) ∧ I next)
    (left made : Nat) {st : σ} (hst : I st) (u : Course α) :
    ∃ r v, perform (Constrained.rounds S.round left made st) u = (.ok r, v) := by
  induction left generalizing made st u with
  | zero => exact ⟨_, _, rfl⟩
  | succ left ih =>
    obtain ⟨next, done, v, hmade, hnext⟩ := hround hst
    unfold Constrained.rounds
    rw [perform_bind_of_ok hmade]
    cases done with
    | true => exact ⟨_, _, rfl⟩
    | false => exact ih (made + 1) hnext v

/-- A run is completed if every round is, and keeps what the next one needs. -/
theorem run_total {I : σ → Prop} (hround : ∀ {number st u}, I st →
      ∃ next done v, perform (S.round number st) u = (.ok (next, done), v) ∧ I next)
    {st : σ} {c' : Course α} (hopening : perform S.opening c = (.ok st, c')) (hst : I st) :
    ∃ x v, perform S.run c = (.ok x, v) := by
  obtain ⟨r, v, hrounds⟩ := rounds_total hround S.limit 0 hst c'
  unfold run
  rw [perform_bind_of_ok hopening, perform_bind_of_ok hrounds]
  exact ⟨_, _, rfl⟩

/-- What chained steps add to a course is what each of them adds, in order. -/
theorem course_eq {ε : Type} {made : σ × Course α → ε → σ × Course α → Prop} {es : List ε}
    (trace : ε → List (Snapshot α)) (history : ε → History α) (h : Chained made p es q)
    (hmade : ∀ {p e q}, made p e q →
      ∃ notices, q.2 = p.2.extend ⟨trace e, [history e], notices⟩) :
    ∃ notices, q.2 = p.2.extend ⟨es.flatMap trace, es.map history, notices⟩ := by
  induction h with
  | none => exact ⟨[], (Course.extend_empty _).symm⟩
  | @cons p q r e es he _ ih =>
    obtain ⟨first, hq⟩ := hmade he
    obtain ⟨rest, hr⟩ := ih
    refine ⟨first ++ rest, ?_⟩
    rw [hr, hq, Course.extend_extend]
    rfl

/-! ## Runs that are cut off -/

/-- None of the first `n` rounds settles. -/
def Unsettled (S : Scheme σ α) (settles : σ → σ → Prop) (c : Course α) (n : Nat) : Prop :=
  ∀ k p q, k < n → S.Stands c k p → S.Stands c (k + 1) q → ¬ settles p.1 q.1

/-- The run cut off after the first of its rounds that settles, if any does. -/
inductive Cut (S : Scheme σ α) (settles : σ → σ → Prop) (c : Course α) :
    Except Failure (Tensor α) × Course α → Prop
  | settled {n p q notice} : n < S.limit → S.Stands c n p → S.Stands c (n + 1) q →
      settles p.1 q.1 → S.Unsettled settles c n →
      S.Cut settles c (.ok (S.point q.1),
        { q.2.extend ⟨[], [], [notice]⟩ with report := S.report (n + 1) q.1 })
  | unsettled : S.Unsettled settles c S.limit → S.Cut settles c (perform S.run c)

/-- `S` never ends early, and `S'` makes the same rounds, but ends after one that settles. -/
structure Stops (S' S : Scheme σ α) (settles : σ → σ → Prop) : Prop where
  opening_eq : S'.opening = S.opening
  limit_eq : S'.limit = S.limit
  point_eq : S'.point = S.point
  report_eq : S'.report = S.report
  endless : S.Endless
  failed : ∀ {n st u e v}, perform (S.round n st) u = (.error e, v) →
    perform (S'.round n st) u = (.error e, v)
  settled : ∀ {n st u next done v}, perform (S.round n st) u = (.ok (next, done), v) →
    settles st next →
    ∃ notice, perform (S'.round n st) u = (.ok (next, true), v.extend ⟨[], [], [notice]⟩)
  unsettled : ∀ {n st u next done v}, perform (S.round n st) u = (.ok (next, done), v) →
    ¬ settles st next → perform (S'.round n st) u = (.ok (next, false), v)

variable {settles : σ → σ → Prop}

/-- A run without a tolerance goes on to the limit. -/
theorem Stops.run_ok (h : Stops S' S settles) {x : Tensor α} {v : Course α}
    (hrun : perform S.run c = (.ok x, v)) :
    ∃ p, S.Stands c S.limit p ∧ x = S.point p.1 ∧ v = { p.2 with report := S.report S.limit p.1 } := by
  obtain ⟨n, p, hstands, -, hx, hv, heq⟩ := Scheme.run_ok hrun
  obtain rfl : n = S.limit := heq h.endless
  exact ⟨p, hstands, hx, hv⟩

/-- A round that does not settle, or is never made, adds to those that do not. -/
theorem Unsettled.next (h : S.Unsettled settles c n) (hp : S.Stands c n p)
    (hq : ∀ q, S.Advances p (n + 1) q → ¬ settles p.1 q.1) : S.Unsettled settles c (n + 1) := by
  intro k p' q' hk hp' hq'
  rcases Nat.lt_succ_iff_lt_or_eq.mp hk with hk | rfl
  · exact h k p' q' hk hp' hq'
  · obtain rfl := hp.unique hp'
    obtain ⟨p', q, hp', hadvances⟩ := hq'.earlier (Nat.lt_succ_self k)
    obtain rfl := hp.unique hp'
    obtain rfl := hq'.unique (hp.next hadvances)
    exact hq _ hadvances

/-- Where a run fails, no later round is made. -/
theorem Unsettled.of_failed (h : S.Unsettled settles c n) (hp : S.Stands c n p)
    (hfailed : ∀ q, ¬ S.Advances p (n + 1) q) : S.Unsettled settles c m := by
  intro k p' q' _ hp' hq'
  rcases Nat.lt_or_ge k n with hk | hk
  · exact h k p' q' hk hp' hq'
  · obtain ⟨p', q, hp', hadvances⟩ := hq'.earlier (Nat.lt_succ_of_le hk)
    obtain rfl := hp.unique hp'
    exact absurd hadvances (hfailed q)

/-- Rounds that go on from some which do not settle end after the first one that does, or they are those
of the scheme that never ends early. -/
theorem Stops.rounds_cut (h : Stops S' S settles) (left : Nat) (hp : S.Stands c n p)
    (hn : S.Unsettled settles c n) :
    (∃ k p' q notice, k < n + left ∧ S.Stands c k p' ∧ S.Stands c (k + 1) q ∧ settles p'.1 q.1 ∧
      S.Unsettled settles c k ∧
      perform (Constrained.rounds S'.round left n p.1) p.2
        = (.ok (k + 1, q.1), q.2.extend ⟨[], [], [notice]⟩)) ∨
    S.Unsettled settles c (n + left) ∧
      perform (Constrained.rounds S'.round left n p.1) p.2
        = perform (Constrained.rounds S.round left n p.1) p.2 := by
  -- By induction on the rounds that are left, from wherever the run stands.
  induction left generalizing n p with
  | zero => exact .inr ⟨hn, rfl⟩
  | succ left ih =>
    unfold Constrained.rounds
    rcases hround : perform (S.round (n + 1) p.1) p.2 with ⟨e | ⟨next, done⟩, u⟩
    · -- Both schemes fail here, and no later round is made that could settle.
      have hfailed : ∀ q, ¬ S.Advances p (n + 1) q := by
        rintro q ⟨done, hq⟩
        cases hround.symm.trans hq
      refine .inr ⟨hn.of_failed hp hfailed, ?_⟩
      rw [perform_bind_of_error hround, perform_bind_of_error (h.failed hround)]
    · obtain rfl := h.endless hround
      have hadvances : S.Advances p (n + 1) (next, u) := ⟨false, hround⟩
      by_cases hsettles : settles p.1 next
      · -- The round is the first one that settles, and only one of the schemes goes on.
        obtain ⟨notice, hround'⟩ := h.settled hround hsettles
        refine .inl ⟨n, p, (next, u), notice, by omega, hp, hp.next hadvances, hsettles, hn, ?_⟩
        rw [perform_bind_of_ok hround']
        rfl
      · have hnext : S.Unsettled settles c (n + 1) := hn.next hp fun q hq => by
          obtain rfl := hadvances.unique hq
          exact hsettles
        rw [perform_bind_of_ok hround, perform_bind_of_ok (h.unsettled hround hsettles)]
        rw [show n + (left + 1) = n + 1 + left by omega]
        exact ih (hp.next hadvances) hnext

/-- The run of a scheme that stops where a round settles is that of the scheme which never ends early,
cut off there. -/
theorem Stops.cut (h : Stops S' S settles) (c : Course α) : S.Cut settles c (perform S'.run c) := by
  rcases hopening : perform S.opening c with ⟨e | st₀, c₀⟩
  · have hrun : perform S'.run c = perform S.run c := by
      unfold run
      rw [h.opening_eq, perform_bind_of_error hopening, perform_bind_of_error hopening]
    rw [hrun]
    refine .unsettled fun k p q _ hp _ => ?_
    obtain ⟨o, ho, -⟩ := hp
    cases hopening.symm.trans ho
  · have hstart : S.Stands c 0 (st₀, c₀) := ⟨(st₀, c₀), hopening, .none⟩
    have hnone : S.Unsettled settles c 0 := fun _ _ _ hk => nomatch hk
    -- Behind the opening, a run is its rounds and their report.
    have hrun : ∀ T : Scheme σ α, T.opening = S.opening →
        perform T.run c = perform (do
          let (made, st) ← Constrained.rounds T.round T.limit 0 st₀
          Constrained.conclude (T.report made st)
          return T.point st) c₀ := by
      intro T hT
      unfold run
      rw [hT, perform_bind_of_ok hopening]
    have hcut := h.rounds_cut S.limit hstart hnone
    rw [Nat.zero_add] at hcut
    obtain ⟨k, p, q, notice, hk, hp, hq, hsettles, hunsettled, hrounds⟩ | ⟨hunsettled, hrounds⟩ := hcut
    · rw [hrun S' h.opening_eq, h.limit_eq, perform_bind_of_ok hrounds, h.report_eq, h.point_eq]
      exact .settled hk hp hq hsettles hunsettled
    · have heq : perform S'.run c = perform S.run c := by
        rw [hrun S' h.opening_eq, hrun S rfl, h.limit_eq, h.report_eq, h.point_eq, perform_bind,
          perform_bind, hrounds]
      rw [heq]
      exact .unsettled hunsettled

end Scheme

end Minimization
