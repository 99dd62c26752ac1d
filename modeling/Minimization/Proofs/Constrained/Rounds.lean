import Mathlib.Algebra.BigOperators.Group.Finset.Basic
import Mathlib.Algebra.Order.BigOperators.Group.Finset
import Minimization.Constrained.Multipliers
import Minimization.Proofs.Constrained.Landscape
import Minimization.Proofs.Constrained.Scheme

/-!
# The rounds of the method of multipliers

A run of the method of multipliers is the list of its rounds. `Round.Follows` says where a round leads:
to a point with constraint values that are computed there, and to multipliers that are raised by them
with the weight of this round, before it grows. `Rounds` chains them, and `Ends` says how a run goes on
from there, whether it succeeds or not: `minimize_rounds` is the bridge from the program.

On exact numbers with a nonnegative weight and growth, the rounds so far determine the weight of a state,
and they bound its multipliers: there is one per constraint, and it lies between zero and what the
violations sum up to.
-/

namespace Minimization

variable {m : Type → Type} [Monad m] {ω : Type} [Stateful m ω]

/-- Values are computed of all constraints, or of none. -/
theorem Problem.length_of_constraintValues_ok {α : Type} [Scalar α] {p : Problem m α} {x : Tensor α}
    {gx : List α} {u u' : ω} (h : attempt (p.constraintValues x) u = (.ok gx, u')) :
    gx.length = p.constraintCount := by
  -- The values are collected behind those that are there already.
  have hloop : ∀ (cs : List (ScalarFunction m α)) (acc : List α) (u : ω),
      attempt (List.mapM.loop (fun g => g.evaluate x) cs acc) u = (.ok gx, u') →
      gx.length = acc.length + cs.length := by
    intro cs
    induction cs with
    | nil =>
      intro acc u h
      obtain ⟨rfl, -⟩ := attempt_pure_eq_ok.mp h
      exact List.length_reverse
    | cons c cs ih =>
      intro acc u h
      obtain ⟨a, v, -, hrest⟩ := attempt_bind_eq_ok.mp h
      rw [ih (a :: acc) v hrest, List.length_cons, List.length_cons]
      omega
  exact (hloop p.constraints [] u h).trans (Nat.zero_add _)

namespace AugmentedLagrangian

section Rounds

variable {α : Type} [Scalar α]

/-! ## One round -/

/-- A completed round: the state that it starts in, the point that it leads to, and the values of the
constraints there. -/
structure Round (α : Type) where
  start : State α
  point : Tensor α
  values : List α

/-- The state after a round. -/
def Round.next (k : Round α) (h : Settings α) : State α :=
  ⟨k.point, raised k.start.multipliers k.start.weight k.values, k.start.weight * h.growth⟩

/-- A round up to its new point. -/
def reach (s : Setup m α) (st : State α) : Constrained m α (Tensor α) := do
  let objective ← s.objective st
  Constrained.snapshot (s.snapshot st objective st.point)
  let x ← Constrained.descend (s.descent objective st.point)
  Constrained.snapshot (s.snapshot st objective x)
  return x

/-- The round is made from one world to another. -/
structure Round.Follows (k : Round α) (s : Setup m α) (number : Nat) (w w' : Course α × ω) :
    Prop where
  made : ∃ done, attempt (round s number k.start) w = (.ok (k.next s.settings, done), w')
  reached : ∃ u v, attempt (reach s k.start) w = (.ok k.point, u) ∧
    attempt (s.problem.constraintValues k.point) u.2 = (.ok k.values, v)

/-- A round that succeeds follows. -/
theorem round_ok {s : Setup m α} {number : Nat} {st next : State α} {done : Bool}
    {w w' : Course α × ω} (h : attempt (round s number st) w = (.ok (next, done), w')) :
    ∃ k : Round α, k.start = st ∧ k.next s.settings = next ∧ k.Follows s number w w' := by
  have hround := h
  unfold round at h
  simp only [attempt_bind_eq_ok] at h
  obtain ⟨objective, _, hobjective, _, _, hbefore, x, _, hx, _, u, hafter, gx, v, hgx, fx, _, -, _, _,
    -, h⟩ := h
  -- Whatever the tolerance decides, it is the same state that is handed on.
  have hnext : next = ⟨x, raised st.multipliers st.weight gx, st.weight * s.settings.growth⟩ :=
    (Constrained.attempt_settle_ok h).1.symm
  refine ⟨⟨st, x, gx⟩, rfl, hnext.symm, ⟨done, ?_⟩, u, v.2, ?_, ?_⟩
  · rw [hround, hnext]
    rfl
  · unfold reach
    rw [attempt_bind_of_ok hobjective, attempt_bind_of_ok hbefore, attempt_bind_of_ok hx,
      attempt_bind_of_ok hafter, attempt_pure]
  · exact (attempt_constrained_evaluate_eq_ok.mp hgx).1

/-! ## Runs -/

/-- The state that a run starts in. -/
def Setup.start (s : Setup m α) (guess : Tensor α) : State α :=
  ⟨guess.convert s.precision, s.problem.constraints.map fun _ => Scalar.zero,
    s.settings.initialWeight⟩

/-- The rounds lead from a state in one world to a state in another. -/
inductive Rounds (s : Setup m α) (start : State α) (w : Course α × ω) :
    List (Round α) → State α → Course α × ω → Prop
  | none : Rounds s start w [] start w
  | snoc {ks k u v} : Rounds s start w ks k.start u → k.Follows s (ks.length + 1) u v →
      Rounds s start w (ks ++ [k]) (k.next s.settings) v

/-- How a run ends that has made some rounds: it is refused at the start, it succeeds, or the next round
fails. -/
inductive Ends (s : Setup m α) (guess : Tensor α) :
    List (Round α) → State α → Course α × ω → Except Failure (Tensor α) × Course α × ω → Prop
  | refused {start u e} : checkStart s.problem guess = .error e →
      Ends s guess [] start u (.error e, u)
  | succeeded {ks last u} :
      Ends s guess ks last u
        (.ok last.point, { u.1 with report := ⟨last.multipliers, last.weight, ks.length⟩ }, u.2)
  | failed {ks last u e v} : attempt (round s (ks.length + 1) last) u = (.error e, v) →
      Ends s guess ks last u (.error e, v)

/-- Rounds that go on from given ones end in a state, or one of them fails. -/
theorem rounds_rounds {s : Setup m α} {start : State α} {w : Course α × ω} (left : Nat) :
    ∀ {ks : List (Round α)} {st : State α} {u : Course α × ω}, Rounds s start w ks st u →
      ∃ ks' last v, Rounds s start w ks' last v ∧
        (attempt (Constrained.rounds (round s) left ks.length st) u = (.ok (ks'.length, last), v) ∨
          ∃ e v', attempt (round s (ks'.length + 1) last) v = (.error e, v') ∧
            attempt (Constrained.rounds (round s) left ks.length st) u = (.error e, v')) := by
  -- By induction on the rounds that are left, for all rounds that were made.
  induction left with
  | zero =>
    intro ks st u hks
    exact ⟨ks, st, u, hks, .inl (attempt_pure _ _)⟩
  | succ left ih =>
    intro ks st u hks
    unfold Constrained.rounds
    rcases hround : attempt (round s (ks.length + 1) st) u with ⟨e | ⟨next, done⟩, v⟩
    · exact ⟨ks, st, u, hks, .inr ⟨e, v, hround, attempt_bind_of_error hround _⟩⟩
    rw [attempt_bind_of_ok hround]
    obtain ⟨k, rfl, rfl, hk⟩ := round_ok hround
    have hsnoc := hks.snoc hk
    have hlength : (ks ++ [k]).length = ks.length + 1 := by simp
    cases done with
    | true => exact ⟨ks ++ [k], _, v, hsnoc, .inl (by rw [hlength]; exact attempt_pure _ _)⟩
    | false =>
      obtain ⟨ks', last, v', hks', h⟩ := ih hsnoc
      rw [hlength] at h
      exact ⟨ks', last, v', hks', h⟩

/-- Every run is made of rounds, and ends after them. -/
theorem minimize_rounds (s : Setup m α) (guess : Tensor α) (w : Course α × ω) :
    ∃ ks last v, Rounds s (s.start guess) w ks last v ∧
      Ends s guess ks last v (attempt (minimize s.precision s.problem (.ok s.settings) guess) w) := by
  unfold minimize
  rcases hstart : checkStart s.problem guess with e | _
  · refine ⟨[], _, _, .none, ?_⟩
    rw [attempt_bind_of_error (attempt_lift _ _)]
    exact .refused hstart
  rw [attempt_bind_of_ok (attempt_lift _ _), attempt_bind_of_ok (attempt_lift _ _)]
  have hnone : Rounds s (s.start guess) w [] (s.start guess) w := .none
  obtain ⟨ks, last, v, hks, h | ⟨e, v', hround, h⟩⟩ :=
    rounds_rounds s.settings.maxRounds.toNat hnone
  · refine ⟨ks, last, v, hks, ?_⟩
    have hrun : attempt (run s guess) w
        = (.ok last.point, { v.1 with report := ⟨last.multipliers, last.weight, ks.length⟩ }, v.2) :=
      (attempt_bind_of_ok h _).trans <|
        (attempt_bind_of_ok (attempt_conclude _ v) _).trans (attempt_pure _ _)
    rw [hrun]
    exact .succeeded
  · refine ⟨ks, last, v, hks, ?_⟩
    have hrun : attempt (run s guess) w = (.error e, v') := attempt_bind_of_error h _
    rw [hrun]
    exact .failed hround

/-- The states of a run: the one that it starts in, and those after its rounds. -/
def Setup.states (s : Setup m α) (guess : Tensor α) (ks : List (Round α)) : List (State α) :=
  s.start guess :: ks.map (·.next s.settings)

/-- The value of a constraint at the point of a round, by their positions. -/
def valueAt (ks : List (Round α)) (k i : Nat) : α :=
  ((ks[k]?.map Round.values).getD []).getD i Scalar.zero

theorem valueAt_append_left {ks ks' : List (Round α)} {k : Nat} (hk : k < ks.length) (i : Nat) :
    valueAt (ks ++ ks') k i = valueAt ks k i := by
  rw [valueAt, List.getElem?_append_left hk, valueAt]

theorem valueAt_length {ks : List (Round α)} {k : Round α} {i : Nat} {g : α}
    (h : k.values[i]? = some g) : valueAt (ks ++ [k]) ks.length i = g := by
  rw [valueAt, List.getElem?_concat_length, Option.map_some, Option.getD_some, List.getD, h,
    Option.getD_some]

/-- Some first rounds lead to the state after them. -/
theorem Rounds.take {s : Setup m α} {guess : Tensor α} {w v : Course α × ω} {ks : List (Round α)}
    {last : State α} (h : Rounds s (s.start guess) w ks last v) {n : Nat} {st : State α}
    (hst : (s.states guess ks)[n]? = some st) :
    ∃ u, Rounds s (s.start guess) w (ks.take n) st u := by
  induction h with
  | none =>
    obtain ⟨hn, rfl⟩ := List.getElem?_eq_some_iff.mp hst
    obtain rfl : n = 0 := by simpa [Setup.states] using hn
    exact ⟨w, .none⟩
  | @snoc ks k u v hks hk ih =>
    have hstates : s.states guess (ks ++ [k]) = s.states guess ks ++ [k.next s.settings] := by
      simp [Setup.states]
    have hlength : (s.states guess ks).length = ks.length + 1 := by
      simp [Setup.states]
    rw [hstates] at hst
    -- The state is one of those before the last round, the one after it, or none.
    rcases lt_trichotomy n (ks.length + 1) with hn | rfl | hn
    · rw [List.getElem?_append_left (hlength ▸ hn)] at hst
      rw [List.take_append_of_le_length (Nat.le_of_lt_succ hn)]
      exact ih hst
    · rw [← hlength, List.getElem?_concat_length, Option.some.injEq] at hst
      subst hst
      rw [List.take_of_length_le (by simp)]
      exact ⟨v, hks.snoc hk⟩
    · rw [List.getElem?_eq_none (by simp [hlength]; omega)] at hst
      cases hst

/-- The rounds lead to the last of the states. -/
theorem Rounds.states_last {s : Setup m α} {guess : Tensor α} {w v : Course α × ω}
    {ks : List (Round α)} {last : State α} (h : Rounds s (s.start guess) w ks last v) :
    (s.states guess ks)[ks.length]? = some last := by
  cases h with
  | none => rfl
  | snoc _ _ => simp [Setup.states]

end Rounds

/-! ## Exact numbers -/

section Exact

open ExactScalar

/-- A raised multiplier is not negative, and it grows by no more than the violation, times the weight
and two. -/
theorem raised_bounds {multipliers gs : List ℝ} {weight : ℝ} (hw : 0 ≤ weight) {i : Nat} {l : ℝ}
    (h : (raised multipliers weight gs)[i]? = some l) :
    ∃ l₀ g, multipliers[i]? = some l₀ ∧ gs[i]? = some g ∧ 0 ≤ l ∧
      (0 ≤ l₀ → l ≤ l₀ + 2 * weight * max 0 g) := by
  rw [raised, List.getElem?_zipWith_eq_some] at h
  obtain ⟨l₀, g, hl₀, hg, rfl⟩ := h
  have hmax : Scalar.max (Scalar.zero : ℝ) (l₀ + Scalar.two * weight * g)
      = max 0 (l₀ + 2 * weight * g) := by
    rw [zero_eq, two_eq]
    exact max_ofReal (α := ℝ) 0 _
  rw [hmax]
  refine ⟨l₀, g, hl₀, hg, le_max_left _ _, fun hl => max_le ?_ ?_⟩
  · positivity
  · gcongr
    exact le_max_right 0 g

variable {s : Setup m ℝ} {guess : Tensor ℝ} {w v : Course ℝ × ω} {ks : List (Round ℝ)}
  {st last : State ℝ}

/-- The weight grows with every round. -/
theorem Rounds.weight_eq (h : Rounds s (s.start guess) w ks last v) :
    last.weight = s.settings.initialWeight * s.settings.growth ^ ks.length := by
  induction h with
  | none => exact (mul_one _).symm
  | @snoc ks k _ _ _ _ ih =>
    rw [List.length_append, List.length_singleton, pow_succ, ← mul_assoc, ← ih]
    rfl

/-- There is one multiplier per constraint. -/
theorem Rounds.length_multipliers (h : Rounds s (s.start guess) w ks last v) :
    last.multipliers.length = s.problem.constraintCount := by
  induction h with
  | none => exact List.length_map _
  | @snoc ks k _ _ _ hk ih =>
    obtain ⟨_, _, -, hvalues⟩ := hk.reached
    show (List.zipWith _ k.start.multipliers k.values).length = _
    rw [List.length_zipWith, ih, Problem.length_of_constraintValues_ok hvalues, Nat.min_self]

/-- So there is an augmented objective. -/
theorem Rounds.objective_ok (h : Rounds s (s.start guess) w ks last v) :
    ∃ objective, s.objective last = .ok objective := by
  have hshape : last.multiplierVector.shape = [s.problem.constraintCount] := by
    rw [← h.length_multipliers]
    rfl
  unfold Setup.objective Problem.augmented
  rw [if_neg (not_not_intro hshape)]
  exact ⟨_, rfl⟩

/-- The multipliers lie between zero and what the violations sum up to. -/
theorem Rounds.multipliers_bounds (hweight : 0 ≤ s.settings.initialWeight)
    (hgrowth : 0 ≤ s.settings.growth) (h : Rounds s (s.start guess) w ks last v) {i : Nat} {l : ℝ}
    (hl : last.multipliers[i]? = some l) :
    0 ≤ l ∧ l ≤ ∑ k ∈ Finset.range ks.length,
      2 * (s.settings.initialWeight * s.settings.growth ^ k) * max 0 (valueAt ks k i) := by
  induction h generalizing l with
  | none =>
    obtain ⟨_, -, rfl⟩ := List.mem_map.mp (List.mem_of_getElem? hl)
    rw [zero_eq]
    exact ⟨le_refl 0, le_refl 0⟩
  | @snoc ks k _ _ hks hk ih =>
    -- The multipliers are raised with the weight of the round that ends, before it grows.
    have hw : 0 ≤ k.start.weight := by
      rw [hks.weight_eq]
      positivity
    obtain ⟨l₀, g, hl₀, hg, hnonneg, hle⟩ := raised_bounds hw hl
    obtain ⟨h₀, hsum⟩ := ih hl₀
    refine ⟨hnonneg, ?_⟩
    rw [List.length_append, List.length_singleton, Finset.sum_range_succ, valueAt_length hg]
    calc l ≤ l₀ + 2 * k.start.weight * max 0 g := hle h₀
      _ ≤ _ := by
        rw [hks.weight_eq]
        gcongr
        refine hsum.trans_eq (Finset.sum_congr rfl fun j hj => ?_)
        rw [valueAt_append_left (Finset.mem_range.mp hj)]

/-- In every run of the method of multipliers on exact numbers, with a nonnegative weight and growth
and whether it succeeds or not, every state has the weight that its number of rounds gives, one
multiplier per constraint, and an augmented objective. Every multiplier lies between zero and the sum of
the violations so far, each times two and the weight of its round; it is zero where there was no
violation. -/
theorem minimize_multipliers (s : Setup m ℝ) (hweight : 0 ≤ s.settings.initialWeight)
    (hgrowth : 0 ≤ s.settings.growth) (guess : Tensor ℝ) (w : Course ℝ × ω) :
    ∃ ks last v, Rounds s (s.start guess) w ks last v ∧
      Ends s guess ks last v (attempt (minimize s.precision s.problem (.ok s.settings) guess) w) ∧
      (s.states guess ks)[ks.length]? = some last ∧
      ∀ n st, (s.states guess ks)[n]? = some st →
        st.weight = s.settings.initialWeight * s.settings.growth ^ n ∧
        st.multipliers.length = s.problem.constraintCount ∧
        (∃ objective, s.objective st = .ok objective) ∧
        ∀ i l, st.multipliers[i]? = some l →
          0 ≤ l ∧
          l ≤ ∑ k ∈ Finset.range n,
            2 * (s.settings.initialWeight * s.settings.growth ^ k) * max 0 (valueAt ks k i) ∧
          ((∀ k < n, valueAt ks k i ≤ 0) → l = 0) := by
  obtain ⟨ks, last, v, hks, hends⟩ := minimize_rounds s guess w
  refine ⟨ks, last, v, hks, hends, hks.states_last, fun n st hst => ?_⟩
  obtain ⟨u, htake⟩ := hks.take hst
  have hn : n ≤ ks.length := by
    have := (List.getElem?_eq_some_iff.mp hst).1
    simpa [Setup.states, Nat.lt_succ_iff] using this
  have hlength : (ks.take n).length = n := List.length_take_of_le hn
  refine ⟨hlength ▸ htake.weight_eq, htake.length_multipliers, htake.objective_ok,
    fun i l hl => ?_⟩
  obtain ⟨hnonneg, hle⟩ := htake.multipliers_bounds hweight hgrowth hl
  -- The violations of the first rounds are the same in the longer run.
  have hvalue : ∀ k < n, valueAt (ks.take n) k i = valueAt ks k i := by
    intro k hk
    rw [valueAt, List.getElem?_take_of_lt hk, valueAt]
  have hsum : l ≤ ∑ k ∈ Finset.range n,
      2 * (s.settings.initialWeight * s.settings.growth ^ k) * max 0 (valueAt ks k i) := by
    rw [hlength] at hle
    refine hle.trans_eq (Finset.sum_congr rfl fun k hk => ?_)
    rw [hvalue k (Finset.mem_range.mp hk)]
  refine ⟨hnonneg, hsum, fun hsatisfied => le_antisymm (hsum.trans_eq ?_) hnonneg⟩
  refine Finset.sum_eq_zero fun k hk => ?_
  rw [max_eq_left (hsatisfied k (Finset.mem_range.mp hk)), mul_zero]

/-- Ten rounds for the square of a coordinate among the numbers from one to three, with weights that
double. -/
theorem minimize_multipliers_square :
    let f : Landscape 1 := ⟨fun v => v 0 ^ 2, fun v => (2 : ℝ) • v⟩
    let g₁ : Landscape 1 := ⟨fun v => 1 - v 0, fun _ => -EuclideanSpace.single 0 1⟩
    let g₂ : Landscape 1 := ⟨fun v => v 0 - 3, fun _ => EuclideanSpace.single 0 1⟩
    let inner : GradientDescent.Settings ℝ := ⟨1, 1 / 2, 6 / 5, 1 / 10 ^ 8, 1 / 100, 100, 20⟩
    let s : Setup Id ℝ :=
      ⟨.double, Problem.euclidean f [g₁, g₂] rfl, ⟨10, 1, 2, .none, .ok inner⟩⟩
    let guess : Tensor ℝ := .ofPoint .double (0 : Point 1)
    let w : Course ℝ × Unit := (⟨⟨[], 0, 0⟩, none, none, []⟩, ())
    (0 ≤ s.settings.initialWeight ∧ 0 ≤ s.settings.growth) ∧
    ∃ ks last v, Rounds s (s.start guess) w ks last v ∧
      Ends s guess ks last v (attempt (minimize .double s.problem (.ok s.settings) guess) w) ∧
      last.weight = 2 ^ ks.length ∧ last.multipliers.length = 2 ∧
      ∀ l ∈ last.multipliers, 0 ≤ l := by
  intro f g₁ g₂ inner s guess w
  have hweight : 0 ≤ s.settings.initialWeight := zero_le_one
  have hgrowth : 0 ≤ s.settings.growth := zero_le_two
  obtain ⟨ks, last, v, hks, hends, hlast, hstates⟩ :=
    minimize_multipliers s hweight hgrowth guess w
  obtain ⟨hw, hlength, -, hbounds⟩ := hstates _ _ hlast
  refine ⟨⟨hweight, hgrowth⟩, ks, last, v, hks, hends, hw.trans (one_mul _), hlength, fun l hl => ?_⟩
  obtain ⟨i, hi⟩ := List.mem_iff_getElem?.mp hl
  exact (hbounds i l hi).1

end Exact

end AugmentedLagrangian

end Minimization
