import Minimization.Proofs.Descent.Path
import Minimization.Proofs.Descent.Succeeding
import Minimization.Proofs.Float.Order

/-!
# Descents where the loss is not a number

A line search rejects a trial whose loss is above the bound of its size, and it takes every other trial.
Where the loss or the bound is not a number that comparison fails, so the trial is taken, and the search
does not count as exhausted (`Step.Settles`). The decrease that a search is meant to ensure is therefore
what its step has exactly if the search is not exhausted and both sides of the comparison are numbers. Once
a descent is at a point whose loss is not a number, no bound is one any more, and it takes the first trial
of every search.
-/

namespace Minimization.GradientDescent

open Scalar (IsNumber OrdersNumbers)

variable {α : Type}

/-- At every array of a shape the loss is the number that `f` says, and the gradient is an array of that
shape. -/
structure Setup.Evaluates (s : Setup Id α) (shape : List Nat) (f : Tensor α → α) : Prop where
  before : s.before = pure ()
  loss : ∀ x : Tensor α, x.shape = shape → s.loss x = pure (.ofNumber (f x))
  gradient : ∀ x : Tensor α, x.shape = shape → ∃ g, s.gradient x = pure g ∧ g.shape = shape

/-- The descent along a loss and a field that are given as functions. -/
def Setup.ofFunctions (settings : Settings α) (f : Tensor α → α) (g : Tensor α → Tensor α) : Setup Id α where
  name := "GradientDescent"
  precision := .double
  settings := settings
  loss x := pure (.ofNumber (f x))
  gradient x := pure (g x)
  before := pure ()

theorem Setup.evaluates_ofFunctions (settings : Settings α) (f : Tensor α → α) {g : Tensor α → Tensor α}
    {shape : List Nat} (hg : ∀ x : Tensor α, x.shape = shape → (g x).shape = shape) :
    (Setup.ofFunctions settings f g).Evaluates shape f where
  before := rfl
  loss _ _ := rfl
  gradient x hx := ⟨g x, rfl, hg x hx⟩

/-- A descent on a function of its points has answers everywhere. -/
theorem Setup.Evaluates.answering {s : Setup Id α} {shape : List Nat} {f : Tensor α → α}
    (hs : s.Evaluates shape f) : Answering (fun _ : Unit => True) s.before s.loss s.gradient shape where
  before := by
    rw [hs.before]
    exact .pure trivial
  loss x hx := by
    rw [hs.loss x hx]
    exact .pure ⟨f x, rfl⟩
  gradient x hx := by
    obtain ⟨g, hg, hshape⟩ := hs.gradient x hx
    rw [hg]
    exact .pure hshape

variable [Scalar α]

/-! ## Steps -/

/-- The array that the search of a step tries after some shrinks. -/
def Step.tried (k : Step α) (s : Setup Id α) (i : Nat) : Except Failure (Tensor α) :=
  k.point.moveBy (k.direction.scale (s.settings.shrunk k.firstSize i))

/-- The bound that the search of a step compares with after some shrinks. -/
def Step.boundAfter (k : Step α) (s : Setup Id α) (i : Nat) : α :=
  k.bound s (s.settings.shrunk k.firstSize i)

/-- How the search of a step settles. -/
structure Step.Settles (k : Step α) (s : Setup Id α) (f : Tensor α → α) : Prop where
  loss_eq : k.loss = f k.point
  stepSize_eq : k.trial.stepSize = s.settings.shrunk k.firstSize k.shrinks
  next_eq : k.tried s k.shrinks = .ok k.next
  /-- What is rejected is above its bound, so both are numbers. -/
  rejected : ∀ i < k.shrinks, ∃ z, k.tried s i = .ok z ∧ Scalar.lt (k.boundAfter s i) (f z) = true
  /-- A trial that cannot be compared with its bound is taken, and the search is not exhausted. -/
  incomparable : ∀ i ≤ k.shrinks, ∀ z, k.tried s i = .ok z →
    ¬(IsNumber (k.boundAfter s i) ∧ IsNumber (f z)) → k.next = z ∧ k.trial.exhausted = false
  /-- The loss decreases as it should exactly if the search is not exhausted and both sides can be
  compared. -/
  sufficient_iff : Scalar.le (f k.next) (k.boundAfter s k.shrinks) = true ↔
    k.trial.exhausted = false ∧ IsNumber (k.boundAfter s k.shrinks) ∧ IsNumber (f k.next)

variable {s : Setup Id α} {shape : List Nat} {f : Tensor α → α}

/-- A trial compares the value at the point that it moves to. -/
theorem Tries.exists_ok (hs : s.Evaluates shape f) {x d : Tensor α} {bound : α → α} {a : α} {rejected : Bool}
    (h : Tries s x d bound a rejected) (hx : x.shape = shape) :
    ∃ z, x.moveBy (d.scale a) = .ok z ∧ Scalar.lt (bound a) (f z) = rejected := by
  obtain ⟨z, answer, value, hz, hanswer, hvalue, hlt⟩ := h
  have hshape : z.shape = shape := (Tensor.shape_of_moveBy_ok hz).trans hx
  obtain rfl := Evaluation.pure_inj.mp (hanswer.symm.trans (hs.loss z hshape))
  obtain rfl := Except.ok.inj hvalue
  exact ⟨z, hz, hlt⟩

/-- An iteration settles on the first trial that is not above its bound, what is not a number counting as
not above. -/
theorem Step.Follows.settles {k : Step α} {x : Tensor α} {a : α} (hk : k.Follows s x a)
    (hs : s.Evaluates shape f) (ho : OrdersNumbers α) (hx : x.shape = shape) : k.Settles s f := by
  obtain rfl := hk.point_eq
  obtain rfl := hk.firstSize_eq
  have hloss : k.loss = f k.point := by
    have h := hk.loss_eq
    rw [Rule.number, hs.loss _ hx] at h
    exact (Evaluation.pure_inj.mp h).symm
  have hnext : k.tried s k.shrinks = .ok k.next := by
    rw [Step.tried, ← hk.searched.stepSize_eq, ← hk.searched.step_eq]
    exact hk.next_eq
  have hrejected (i : Nat) (hi : i < k.shrinks) :
      ∃ z, k.tried s i = .ok z ∧ Scalar.lt (k.boundAfter s i) (f z) = true :=
    (hk.searched.rejected i hi).exists_ok hs hx
  -- The search is exhausted if its last trial is rejected like those before.
  have hexhausted : Scalar.lt (k.boundAfter s k.shrinks) (f k.next) = k.trial.exhausted := by
    obtain ⟨z, hz, hlt⟩ := hk.searched.settled.exists_ok hs hx
    rw [hk.searched.stepSize_eq] at hz hlt
    obtain rfl := Except.ok.inj (hnext.symm.trans hz)
    exact hlt
  refine ⟨hloss, hk.searched.stepSize_eq, hnext, hrejected, fun i hi z hz hnot => ?_, ?_⟩
  · -- A trial before the last one was rejected, and that is a comparison of numbers.
    rcases Nat.lt_or_eq_of_le hi with hi | rfl
    · obtain ⟨z', hz', hlt⟩ := hrejected i hi
      obtain rfl := Except.ok.inj (hz.symm.trans hz')
      exact absurd (ho.isNumber_of_lt hlt) hnot
    · obtain rfl := Except.ok.inj (hz.symm.trans hnext)
      exact ⟨rfl, hexhausted.symm.trans (ho.lt_eq_false hnot)⟩
  · rw [ho.le_iff, hexhausted]

/-! ## Paths -/

/-- The points of a path with its end are its start with what its steps lead to. -/
theorem Path.forall_points_iff {P : Tensor α → Prop} {left : Nat} {x y : Tensor α} {a : α}
    {ks : List (Step α)} {reason : StopReason} (hp : Path s left x a ks y reason) :
    (∀ k ∈ ks, P k.point) ∧ P y ↔ P x ∧ ∀ k ∈ ks, P k.next := by
  induction hp with
  | full hk => simp [hk.point_eq]
  | small hk _ => simp [hk.point_eq]
  | step hk _ _ ih =>
    simp only [List.forall_mem_cons, hk.point_eq, and_assoc, ih]

/-- So does every step of a path. -/
theorem Path.settles {left : Nat} {x y : Tensor α} {a : α} {ks : List (Step α)} {reason : StopReason}
    (hp : Path s left x a ks y reason) (hs : s.Evaluates shape f) (ho : OrdersNumbers α)
    (hx : x.shape = shape) : y.shape = shape ∧ ∀ k ∈ ks, k.Settles s f := by
  obtain ⟨⟨-, hy⟩, hmem⟩ := hp.invariant (I := fun x _ => x.shape = shape) hx fun k _ x a hk hx =>
    (Tensor.shape_of_moveBy_ok hk.next_eq).trans hx
  refine ⟨hy, fun k hk => ?_⟩
  obtain ⟨x, a, hfollows, hx⟩ := hmem k hk
  exact hfollows.settles hs ho hx

/-! ## Descents on floats -/

section Floats

variable {s : Setup Id Float} {f : Tensor Float → Float} {k : Step Float}

/-- With a finite promise, the decrease is as it should be exactly if the search is not exhausted and
the loss is a number at both ends of the step. -/
theorem Step.Settles.decreases_iff (hk : k.Settles s f)
    (hpromise : Scalar.isFinite (s.settings.sufficientShare * k.trial.stepSize * k.slope) = true) :
    Scalar.le (f k.next) (k.bound s k.trial.stepSize) = true ↔
      k.trial.exhausted = false ∧ IsNumber (f k.point) ∧ IsNumber (f k.next) := by
  have hbound : IsNumber (k.bound s k.trial.stepSize) ↔ IsNumber (f k.point) := by
    rw [← hk.loss_eq]
    exact Scalar.isNumber_add_iff hpromise
  have hiff := hk.sufficient_iff
  rw [Step.boundAfter, ← hk.stepSize_eq, hbound] at hiff
  exact hiff

/-- A search from where the loss is not a number takes its first trial. -/
theorem Step.Settles.of_undefined (hk : k.Settles s f) (hundefined : ¬IsNumber (f k.point)) :
    k.shrinks = 0 ∧ k.trial.exhausted = false := by
  have hbound (i : Nat) : ¬IsNumber (k.boundAfter s i) := by
    rw [← hk.loss_eq] at hundefined
    exact fun h => hundefined (Scalar.isNumber_of_add h)
  constructor
  · refine Nat.eq_zero_of_not_pos fun hpos => ?_
    obtain ⟨z, -, hlt⟩ := hk.rejected 0 hpos
    exact hbound 0 (Scalar.ordersNumbers_float.isNumber_of_lt hlt).1
  · exact (hk.incomparable k.shrinks (Nat.le_refl _) k.next hk.next_eq fun h => hbound _ h.1).2

/-- A descent that can evaluate its functions completes, and its searches settle. -/
theorem exists_settles (hs : s.Evaluates shape f) {guess : Tensor Float} (hguess : guess.shape = shape)
    (r : Run Float) :
    ∃ y ks reason r', perform (run s guess) r = (.ok y, r') ∧ Completed s guess r ks y reason r' ∧
      r'.report.loss = f y ∧ ∀ k ∈ ks, k.Settles s f := by
  obtain ⟨y, ⟨r', _⟩, hrun, -, -⟩ := (succeeds_run hs.answering Scalar.discernsZero_float hguess).exists_ok
    (w := (r, ())) trivial
  have hperform : perform (run s guess) r = (.ok y, r') := congrArg (fun p => (p.1, p.2.1)) hrun
  obtain ⟨ks, reason, hc⟩ := run_ok hperform
  obtain ⟨hy, hsettles⟩ := hc.path.settles hs Scalar.ordersNumbers_float hguess
  have hloss := hc.loss
  rw [Rule.number, hs.loss y hy] at hloss
  exact ⟨y, ks, reason, r', hperform, hc, (Evaluation.pure_inj.mp hloss).symm, hsettles⟩

/-- A descent on floats completes, whatever its loss is. Its searches reject what is above its bound and
take what cannot be compared with it. A step with a finite promise has the decrease that it should have
exactly if its search is not exhausted and the loss is a number at both of its ends; from where the loss
is not a number, the first trial is taken. The losses that are recorded are numbers exactly if that of the
guess is one and those that the steps lead to are. -/
theorem run_settles (hs : s.Evaluates shape f) {guess : Tensor Float} (hguess : guess.shape = shape)
    (r : Run Float) :
    ∃ y ks reason r', perform (run s guess) r = (.ok y, r') ∧ Completed s guess r ks y reason r' ∧
      (∀ k ∈ ks, k.Settles s f ∧
        (Scalar.isFinite (s.settings.sufficientShare * k.trial.stepSize * k.slope) = true →
          (Scalar.le (f k.next) (k.bound s k.trial.stepSize) = true ↔
            k.trial.exhausted = false ∧ IsNumber (f k.point) ∧ IsNumber (f k.next))) ∧
        (¬IsNumber (f k.point) → k.shrinks = 0 ∧ k.trial.exhausted = false)) ∧
      (r.history = some .empty → ∃ h, r'.history = some h ∧
        ((∀ loss ∈ h.losses, IsNumber loss) ↔
          IsNumber (f (guess.convert s.precision)) ∧ ∀ k ∈ ks, IsNumber (f k.next))) := by
  obtain ⟨y, ks, reason, r', hrun, hc, hloss, hsettles⟩ := exists_settles hs hguess r
  refine ⟨y, ks, reason, r', hrun, hc, fun k hk => ?_, fun hr => ?_⟩
  · exact ⟨hsettles k hk, (hsettles k hk).decreases_iff, (hsettles k hk).of_undefined⟩
  · refine ⟨_, by rw [hc.history, hr]; rfl, ?_⟩
    rw [← hc.path.forall_points_iff (P := fun x => IsNumber (f x)), ← hloss]
    show (∀ loss ∈ ([] ++ ks.map fun k => k.loss) ++ [r'.report.loss], IsNumber loss) ↔ _
    rw [List.nil_append, List.map_congr_left fun k hk => (hsettles k hk).loss_eq]
    simp [or_imp, forall_and]

end Floats

/-! ## A loss on half a line -/

/-- The first entry from one half on; below one half, nothing that is a number. -/
def fromHalf (x : Tensor Float) : Float :=
  let a := x.entries.headD Scalar.zero
  if Scalar.lt a Scalar.half then Scalar.zero / Scalar.zero else a

/-- The descent of one step along `fromHalf`, whose gradient is one. -/
def alongHalf : Setup Id Float :=
  .ofFunctions ⟨Scalar.one, Scalar.half, Scalar.decimal 12 1, Scalar.decimal 1 8, Scalar.decimal 1 2, 1, 20⟩
    fromHalf fun x => x.map fun _ => Scalar.one

theorem evaluates_alongHalf : alongHalf.Evaluates [1] fromHalf :=
  Setup.evaluates_ofFunctions _ _ fun _ hx => hx

/-- A descent from one along the loss that is no number below one half. -/
theorem run_settles_fromHalf :
    let guess : Tensor Float := .vector .double [Scalar.one]
    let r : Run Float := ⟨⟨Scalar.zero, Scalar.zero, 0⟩, some .empty, []⟩
    (alongHalf.Evaluates [1] fromHalf ∧ guess.shape = [1]) ∧
    ∃ y ks reason r', perform (run alongHalf guess) r = (.ok y, r') ∧
      Completed alongHalf guess r ks y reason r' ∧
      (∀ k ∈ ks, k.Settles alongHalf fromHalf ∧
        (Scalar.isFinite (alongHalf.settings.sufficientShare * k.trial.stepSize * k.slope) = true →
          (Scalar.le (fromHalf k.next) (k.bound alongHalf k.trial.stepSize) = true ↔
            k.trial.exhausted = false ∧ IsNumber (fromHalf k.point) ∧ IsNumber (fromHalf k.next))) ∧
        (¬IsNumber (fromHalf k.point) → k.shrinks = 0 ∧ k.trial.exhausted = false)) ∧
      (r.history = some .empty → ∃ h, r'.history = some h ∧
        ((∀ loss ∈ h.losses, IsNumber loss) ↔
          IsNumber (fromHalf (guess.convert alongHalf.precision)) ∧ ∀ k ∈ ks, IsNumber (fromHalf k.next))) := by
  intro guess r
  exact ⟨⟨evaluates_alongHalf, rfl⟩, run_settles evaluates_alongHalf rfl r⟩

/-- The loss of the guess is a number and so is the gradient, but the first trial leads to where the loss
is none. It is taken: the search is not exhausted, the decrease is not what it should be, and the loss
that is reported is not a number. -/
theorem run_takes_undefined :
    let guess : Tensor Float := .vector .double [Scalar.one]
    let r : Run Float := ⟨⟨Scalar.zero, Scalar.zero, 0⟩, some .empty, []⟩
    IsNumber (fromHalf guess) ∧
    ∃ y k reason r', perform (run alongHalf guess) r = (.ok y, r') ∧
      Completed alongHalf guess r [k] y reason r' ∧ k.trial.exhausted = false ∧
      Scalar.le (fromHalf k.next) (k.bound alongHalf k.trial.stepSize) = false ∧
      ¬IsNumber r'.report.loss := by
  intro guess r
  refine ⟨by decide +kernel, ?_⟩
  have hguess : guess.shape = [1] := rfl
  obtain ⟨y, ks, reason, r', hrun, hc, hloss, hsettles⟩ := exists_settles evaluates_alongHalf hguess r
  have hundefined : ¬IsNumber r'.report.loss := by
    have hr : r' = (perform (run alongHalf guess) r).2 := by rw [hrun]
    rw [hr]
    decide +kernel
  -- One step is all that the settings allow, and it leads to the point that is returned.
  obtain ⟨k, rfl, rfl⟩ : ∃ k, ks = [k] ∧ k.next = y := by
    cases hc.path with
    | full hk => exact ⟨_, rfl, rfl⟩
  have hk := hsettles k (List.mem_singleton_self k)
  rw [hloss] at hundefined
  have hexhausted := (hk.incomparable k.shrinks (Nat.le_refl _) k.next hk.next_eq fun h => hundefined h.2).2
  refine ⟨k.next, k, reason, r', hrun, hc, hexhausted, ?_, hloss ▸ hundefined⟩
  rw [← Bool.not_eq_true]
  exact fun hle => hundefined (Scalar.ordersNumbers_float.isNumber hle).1

end Minimization.GradientDescent
