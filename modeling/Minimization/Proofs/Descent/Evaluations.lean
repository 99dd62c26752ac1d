import Minimization.Descent.LineSearch
import Minimization.Descent.Moments
import Minimization.Proofs.Stateful

/-!
# What a descent evaluates

Gradient descent and moment descent treat a world alike: every iteration prepares it once, evaluates the
loss and the gradient there, and after that only losses, along its line search; a run ends with one more
loss. Nothing else touches the world. `Evaluated` says that a world comes from another one by evaluations
only, and in which order; `Descends` says the above of a whole run, with the point where it breaks off if
it fails. It holds for both kinds of descent (`GradientDescent.run_descends`, `Adam.run_descends`), for
whatever functions and numbers.
-/

namespace Minimization

/-- What can be evaluated. -/
inductive Query where
  | loss
  | gradient
  deriving DecidableEq, Repr

variable {m : Type → Type} [Monad m] {ω : Type} [Stateful m ω] {α β : Type}

/-! ## Evaluations -/

/-- A world comes from another one by evaluations in this order. -/
inductive Evaluated (loss : Rule m α) (gradient : Field m α) : List Query → ω → ω → Prop
  | none {w} : Evaluated loss gradient [] w w
  | loss {x qs w w'} : Evaluated loss gradient qs (attempt (loss x) w).2 w' →
      Evaluated loss gradient (.loss :: qs) w w'
  | gradient {x qs w w'} : Evaluated loss gradient qs (attempt (gradient x) w).2 w' →
      Evaluated loss gradient (.gradient :: qs) w w'

section Evaluated

variable {loss : Rule m α} {gradient : Field m α} {qs rs : List Query} {u v w : ω}

/-- Evaluations one after the other are evaluations. -/
theorem Evaluated.append (h : Evaluated loss gradient qs u v)
    (h' : Evaluated loss gradient rs v w) : Evaluated loss gradient (qs ++ rs) u w := by
  induction h with
  | none => exact h'
  | loss _ ih => exact .loss (ih h')
  | gradient _ ih => exact .gradient (ih h')

/-- Converting an answer leaves no trace. -/
theorem attempt_number_snd (f : Rule m α) (x : Tensor α) (w : ω) :
    (attempt (f.number x) w).2 = (attempt (f x) w).2 := by
  unfold Rule.number
  rw [attempt_bind]
  rcases attempt (f x) w with ⟨e | a, u⟩
  · rfl
  · exact congrArg Prod.snd (attempt_lift a.converted u)

end Evaluated

/-! ## Parts of a descent -/

section Parts

variable (loss : Rule m α) (gradient : Field m α)

/-- Between two worlds there are only evaluations of losses. -/
def Searching (w w' : Run α × ω) : Prop :=
  ∃ n, Evaluated loss gradient (List.replicate n .loss) w.2 w'.2

variable {loss gradient}

/-- What does not touch the world has evaluated nothing. -/
theorem Searching.of_eq {w w' : Run α × ω} (h : w.2 = w'.2) : Searching loss gradient w w' := by
  refine ⟨0, ?_⟩
  rw [h]
  exact .none

instance : Std.Refl (Searching (ω := ω) loss gradient) where
  refl _ := .of_eq rfl

instance : Trans (Searching (ω := ω) loss gradient) (Searching loss gradient)
    (Searching loss gradient) where
  trans := by
    rintro u v w ⟨i, hi⟩ ⟨j, hj⟩
    refine ⟨i + j, ?_⟩
    rw [← List.replicate_append_replicate]
    exact hi.append hj

theorem keeps_evaluate_loss (x : Tensor α) :
    Keeps (Searching loss gradient) (Descent.evaluate (loss x)) := by
  intro w
  rw [attempt_evaluate]
  exact ⟨1, .loss .none⟩

/-- An iteration that succeeds prepares the world, evaluates the loss and the gradient, and then only
losses. -/
def Iterates (before : Evaluation m Unit) (loss : Rule m α) (gradient : Field m α) (u w : ω) : Prop :=
  ∃ v n, attempt before u = (.ok (), v) ∧
    Evaluated loss gradient (.loss :: .gradient :: List.replicate n .loss) v w

/-- An iteration that fails does so when it prepares the world, or after the first or later
evaluations. -/
inductive Breaks (before : Evaluation m Unit) (loss : Rule m α) (gradient : Field m α) (u : ω)
    (e : Failure) : ω → Prop
  | unprepared {v} : attempt before u = (.error e, v) → Breaks before loss gradient u e v
  | early {v w} : attempt before u = (.ok (), v) →
      Evaluated loss gradient [.loss] v w → Breaks before loss gradient u e w
  | late {v w n} : attempt before u = (.ok (), v) →
      Evaluated loss gradient (.loss :: .gradient :: List.replicate n .loss) v w →
      Breaks before loss gradient u e w

/-- The computation is an iteration. -/
def IsIteration (before : Evaluation m Unit) (loss : Rule m α) (gradient : Field m α)
    (c : Descent m α β) : Prop :=
  ∀ w, match attempt c w with
    | (.ok _, w') => Iterates before loss gradient w.2 w'.2
    | (.error e, w') => Breaks before loss gradient w.2 e w'.2

/-- What the iterations of both kinds of descent have in common. -/
theorem isIteration_of_rest {before : Evaluation m Unit} {x : Tensor α}
    {rest : α → Tensor α → Descent m α β}
    (hrest : ∀ l g, Keeps (Searching loss gradient) (rest l g)) :
    IsIteration before loss gradient (do
      Descent.evaluate before
      let l ← Descent.evaluate (loss.number x)
      let g ← Descent.evaluate (gradient x)
      rest l g : Descent m α β) := by
  intro w
  rw [attempt_bind, attempt_evaluate]
  rcases hbefore : attempt before w.2 with ⟨e | _, v⟩
  · exact .unprepared hbefore
  dsimp only
  rw [attempt_bind, attempt_evaluate]
  rcases hl : attempt (loss.number x) v with ⟨e | l, v₁⟩
  all_goals
    obtain rfl : (attempt (loss x) v).2 = v₁ := by rw [← attempt_number_snd, hl]
  · exact .early hbefore (.loss .none)
  dsimp only
  rw [attempt_bind, attempt_evaluate]
  rcases hg : attempt (gradient x) (attempt (loss x) v).2 with ⟨e | g, v₂⟩
  all_goals
    obtain rfl : (attempt (gradient x) (attempt (loss x) v).2).2 = v₂ := by rw [hg]
  · exact .late (n := 0) hbefore (.loss (.gradient .none))
  dsimp only
  -- What follows evaluates nothing but losses, which counts them, also where it fails.
  obtain ⟨n, hn⟩ := hrest l g (w.1, (attempt (gradient x) (attempt (loss x) v).2).2)
  generalize attempt (rest l g) (w.1, (attempt (gradient x) (attempt (loss x) v).2).2) = o at hn
  rcases o with ⟨e | b, w'⟩
  · exact .late hbefore (.loss (.gradient hn))
  · exact ⟨v, n, hbefore, .loss (.gradient hn)⟩

/-! ## Loops -/

/-- So many iterations lead from one world to another. -/
inductive Iterations (before : Evaluation m Unit) (loss : Rule m α) (gradient : Field m α) :
    Nat → ω → ω → Prop
  | none {w} : Iterations before loss gradient 0 w w
  | cons {n u v w} : Iterates before loss gradient u v → Iterations before loss gradient n v w →
      Iterations before loss gradient (n + 1) u w

/-- The computation makes at least `least` iterations and counts them on from `steps`, or an iteration
fails. -/
def Loops (before : Evaluation m Unit) (loss : Rule m α) (gradient : Field m α) (count : β → Nat)
    (steps least : Nat) (c : Descent m α β) : Prop :=
  ∀ w, match attempt c w with
    | (.ok b, w') => ∃ n, least ≤ n ∧ count b = steps + n ∧ Iterations before loss gradient n w.2 w'.2
    | (.error e, w') => ∃ n v, Iterations before loss gradient n w.2 v ∧
        Breaks before loss gradient v e w'.2

section Loops

variable {before : Evaluation m Unit} {γ : Type} {count : γ → Nat} {steps : Nat}

theorem Loops.pure {c : γ} (h : count c = steps) :
    Loops before loss gradient count steps 0 (pure c) := by
  intro w
  rw [attempt_pure]
  exact ⟨0, Nat.le_refl 0, h, .none⟩

/-- A loop that makes an iteration makes no fewer than none. -/
theorem Loops.weaken {c : Descent m α γ} (h : Loops before loss gradient count steps 1 c) :
    Loops before loss gradient count steps 0 c := by
  intro w
  have hw := h w
  generalize attempt c w = o at hw ⊢
  rcases o with ⟨e | b, w'⟩
  · exact hw
  · obtain ⟨n, -, hn⟩ := hw
    exact ⟨n, Nat.zero_le n, hn⟩

/-- One more iteration before a loop. -/
theorem Loops.bind {c : Descent m α β} {f : β → Descent m α γ}
    (hc : IsIteration before loss gradient c)
    (hf : ∀ b, Loops before loss gradient count (steps + 1) 0 (f b)) :
    Loops before loss gradient count steps 1 (c >>= f) := by
  intro w
  have hw := hc w
  rw [attempt_bind]
  generalize attempt c w = o at hw ⊢
  rcases o with ⟨e | b, w₁⟩
  · exact ⟨0, w.2, .none, hw⟩
  dsimp only at hw ⊢
  have hb := hf b w₁
  generalize attempt (f b) w₁ = o at hb ⊢
  rcases o with ⟨e | d, w₂⟩
  · obtain ⟨n, v, hn, hv⟩ := hb
    exact ⟨n + 1, v, .cons hw hn, hv⟩
  · obtain ⟨n, -, hcount, hn⟩ := hb
    exact ⟨n + 1, Nat.le_add_left 1 n, by rw [hcount]; omega, .cons hw hn⟩

end Loops

/-! ## Runs -/

/-- What a run does to a world: some iterations, at least one, and then one more loss; or some
iterations, and one that fails. -/
inductive Descends (before : Evaluation m Unit) (loss : Rule m α) (gradient : Field m α) (u : ω) :
    Except Failure β → Report α → ω → Prop
  | ended {n v o report w} : 1 ≤ n → Iterations before loss gradient n u v →
      Evaluated loss gradient [.loss] v w → report.iterations = n →
      Descends before loss gradient u o report w
  | broken {n v e report w} : Iterations before loss gradient n u v →
      Breaks before loss gradient v e w → Descends before loss gradient u (.error e) report w

/-- Between two states of a run the world stays the same, and so does the number of iterations that is
reported. -/
def Settled (w w' : Run α × ω) : Prop :=
  w.2 = w'.2 ∧ w.1.report.iterations = w'.1.report.iterations

instance : Std.Refl (Settled (α := α) (ω := ω)) where
  refl _ := ⟨rfl, rfl⟩

instance : Trans (Settled (α := α) (ω := ω)) Settled Settled where
  trans h h' := ⟨h.1.trans h'.1, h.2.trans h'.2⟩

/-- The end of a run evaluates the loss once more. -/
theorem descends_of_loop {before : Evaluation m Unit} {c : Descent m α β} {count : β → Nat}
    {γ : Type} {rest : β → α → Descent m α γ} (point : β → Tensor α)
    (hc : Loops before loss gradient count 0 1 c) (hrest : ∀ b l, Keeps Settled (rest b l))
    (w : Run α × ω) :
    let o := attempt (do
      let b ← c
      Descent.reporting fun r => { r with iterations := count b }
      let l ← Descent.evaluate (loss.number (point b))
      rest b l : Descent m α γ) w
    Descends before loss gradient w.2 o.1 o.2.1.report o.2.2 := by
  have hw := hc w
  rw [attempt_bind]
  generalize attempt c w = o at hw ⊢
  rcases o with ⟨e | b, w₁⟩
  · obtain ⟨n, v, hn, hv⟩ := hw
    exact .broken hn hv
  obtain ⟨n, hpos, hcount, hn⟩ := hw
  rw [Nat.zero_add] at hcount
  dsimp only
  rw [attempt_bind_of_ok (attempt_reporting _ w₁), attempt_bind, attempt_evaluate]
  dsimp only
  -- Whether its answer is a number or not, the loss was evaluated once.
  rcases hl : attempt (loss.number (point b)) w₁.2 with ⟨e | l, v⟩
  all_goals
    obtain rfl : (attempt (loss (point b)) w₁.2).2 = v := by rw [← attempt_number_snd, hl]
  · exact .ended hpos hn (.loss .none) hcount
  · obtain ⟨hworld, hiterations⟩ := hrest b l _
    refine .ended hpos hn (.loss (x := point b) ?_) (hiterations.symm.trans hcount)
    rw [← hworld]
    exact .none

end Parts

/-! ## Gradient descent -/

namespace GradientDescent

variable [Scalar α]

/-- A line search evaluates nothing but losses, and only changes the history. -/
theorem keeps_search {R : Run α × ω → Run α × ω → Prop} [Std.Refl R] [Trans R R R] {s : Setup m α}
    (hl : ∀ x, Keeps R (Descent.evaluate (s.loss x))) (hrecord : ∀ f w, R w (w.1.record f, w.2))
    (x d : Tensor α) (bound : α → α) (left : Nat) : ∀ (a : α) (step : Tensor α),
      Keeps R (search s x d bound left a step) := by
  -- By induction on the shrinks that are left.
  induction left with
  | zero =>
    intro a step
    unfold search
    refine .bind (.lift _) fun there => .bind (hl there) fun answer => .bind (.lift _) fun value => ?_
    split
    · exact .pure _
    · exact .pure _
  | succ left ih =>
    intro a step
    unfold search
    refine .bind (.lift _) fun there => .bind (hl there) fun answer => .bind (.lift _) fun value => ?_
    split
    · exact .pure _
    · exact .bind (.record (hrecord _)) fun _ => ih _ _

/-- Once the gradient is evaluated, an iteration searches a step and takes it. -/
theorem isIteration (s : Setup m α) (x : Tensor α) (a : α) :
    IsIteration s.before s.loss s.gradient (iteration s x a) :=
  isIteration_of_rest fun _ _ => .bind (.lift _) fun _ => .bind (.lift _) fun _ =>
    .bind (.record fun _ => .of_eq rfl) fun _ => .bind (.lift _) fun _ =>
      .bind (keeps_search keeps_evaluate_loss (fun _ _ => .of_eq rfl) x _ _ _ _ _) fun _ =>
        .bind (.lift _) fun _ => .bind (.reporting fun _ => .of_eq rfl) fun _ => .pure _

/-- The loop makes one iteration after the other, by induction on those that may follow the first one. -/
theorem iterate_loops (s : Setup m α) (left : Nat) :
    ∀ (x : Tensor α) (a : α) (steps exhausted : Nat),
      Loops s.before s.loss s.gradient Ending.steps steps 1 (iterate s left x a steps exhausted) := by
  induction left with
  | zero =>
    intro x a steps exhausted
    unfold iterate
    exact .bind (isIteration s x a) fun _ => .pure rfl
  | succ left ih =>
    intro x a steps exhausted
    unfold iterate
    refine .bind (isIteration s x a) fun _ => ?_
    dsimp only
    split
    · exact .pure rfl
    · exact (ih _ _ _ _).weaken

/-- What a gradient descent does to a world. -/
theorem run_descends (s : Setup m α) (guess : Tensor α) (w : Run α × ω) :
    let o := attempt (run s guess) w
    Descends s.before s.loss s.gradient w.2 o.1 o.2.1.report o.2.2 := by
  refine descends_of_loop Ending.point (iterate_loops s _ _ _ 0 0) (fun ending l => ?_) w
  -- After the last loss the run only records and tells what it has done.
  refine .bind (.reporting fun _ => ⟨rfl, rfl⟩) fun _ =>
    .bind (.record fun _ => ⟨rfl, rfl⟩) fun _ => ?_
  have hended : Keeps Settled (do
      Descent.notify (.descentEnded s.name ending.reason ending.steps l)
      return ending.point : Descent m α (Tensor α)) :=
    .bind (.notify fun _ => ⟨rfl, rfl⟩) fun _ => .pure _
  split
  · exact .bind (.notify fun _ => ⟨rfl, rfl⟩) fun _ => hended
  · exact hended

end GradientDescent

/-! ## Moment descent -/

namespace Adam

variable [Scalar α]

/-- Once the gradient is evaluated, an iteration computes a step and takes it. -/
theorem isIteration (s : Setup m α) (t : Nat) (x : Tensor α) (ms : Moments α) :
    IsIteration s.before s.loss s.gradient (iteration s t x ms) :=
  isIteration_of_rest fun _ _ => .bind (.lift _) fun _ => .bind (.lift _) fun _ =>
    .bind (.lift _) fun _ => .bind (.lift _) fun _ => .bind (.record fun _ => .of_eq rfl) fun _ =>
      .bind (.lift _) fun _ => .bind (.reporting fun _ => .of_eq rfl) fun _ => .pure _

/-- So does that of a moment descent. -/
theorem iterate_loops (s : Setup m α) (left : Nat) :
    ∀ (steps : Nat) (x : Tensor α) (ms : Moments α),
      Loops s.before s.loss s.gradient Prod.fst steps 1 (iterate s left (steps + 1) x ms) := by
  induction left with
  | zero =>
    intro steps x ms
    unfold iterate
    exact .bind (isIteration s _ x ms) fun _ => .pure rfl
  | succ left ih =>
    intro steps x ms
    unfold iterate
    refine .bind (isIteration s _ x ms) fun _ => ?_
    dsimp only
    split
    · exact .pure rfl
    · exact (ih _ _ _).weaken

/-- What a moment descent does to a world. -/
theorem run_descends (s : Setup m α) (guess : Tensor α) (w : Run α × ω) :
    let o := attempt (run s guess) w
    Descends s.before s.loss s.gradient w.2 o.1 o.2.1.report o.2.2 := by
  refine descends_of_loop Prod.snd (iterate_loops s _ 0 _ _) (fun _ l => ?_) w
  exact .bind (.reporting fun _ => ⟨rfl, rfl⟩) fun _ =>
    .bind (.record fun _ => ⟨rfl, rfl⟩) fun _ => .bind .report fun _ =>
      .bind (.notify fun _ => ⟨rfl, rfl⟩) fun _ => .pure _

end Adam

end Minimization
