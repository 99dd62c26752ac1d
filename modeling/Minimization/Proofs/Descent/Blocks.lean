import Mathlib.Data.List.Chain
import Minimization.Proofs.Descent.Entries
import Minimization.Proofs.Descent.Path
import Minimization.Proofs.Descent.Search
import Minimization.Proofs.Tensor.Rounding

/-!
# The blocks of step sizes of a gradient descent

The step sizes that a gradient descent records come in blocks, one for every iteration: the first trial
size and then one more after every shrink of its line search. `Settings.block` computes a block from its
first size and the number of shrinks, which is what `Shrinks` counts in whatever world the loss is
evaluated. `Makes` says what an iteration shows in the history, and that it hands the last size of its
block, grown, on to the next one.

Structure: one iteration makes one entry (`leadsTo_of_iteration_ok`), and a loop that ends chains them
(`leads_of_iterate_ok`), stopping where the limit or a small step says so (`Halts`). An entry keeps the worlds
in which the iteration started and ended, because the next one starts where it ended.
-/

namespace Minimization.GradientDescent

variable {m : Type → Type} [Monad m] {ω : Type} [Stateful m ω] {α : Type} [Scalar α]

/-! ## Blocks -/

/-- The block of an iteration with a first trial size and a number of shrinks. -/
def Settings.block (h : Settings α) (a : α) (shrinks : Nat) : List α := a :: h.laterSizes a shrinks

/-- One more shrink puts the rejected size in front of the block of the next one. -/
theorem Settings.block_succ (h : Settings α) (a : α) (n : Nat) :
    h.block a (n + 1) = a :: h.block (a * h.shrinkFactor) n :=
  congrArg (List.cons a) (h.laterSizes_succ a n)

theorem Settings.length_block (h : Settings α) (a : α) (n : Nat) : (h.block a n).length = n + 1 := by
  rw [block, laterSizes, List.length_cons, List.length_map, List.length_range]

/-- Every size of a block is the one before it, shrunk once. -/
theorem Settings.isChain_block (h : Settings α) (a : α) (n : Nat) :
    (h.block a n).IsChain fun b c => c = b * h.shrinkFactor := by
  induction n generalizing a with
  | zero => exact .singleton a
  | succ n ih =>
    rw [block_succ]
    exact .cons_cons rfl (ih _)

/-- The last size of a block is the one that the search has settled on. -/
theorem Settings.getLast?_block (h : Settings α) (a : α) (n : Nat) :
    (h.block a n).getLast? = some (h.shrunk a n) := by
  induction n generalizing a with
  | zero => rfl
  | succ n ih =>
    rw [block_succ, List.getLast?_cons, ih]
    rfl

/-! ## Iterations -/

/-- Once the world is prepared, an iteration evaluates the loss and the gradient, and its line search from
the size `a` makes `n` shrinks. -/
def Searches (s : Setup m α) (e : Entry α ω) (a : α) (n : Nat) : Prop :=
  ∃ gradient slope u v exhausted,
    attempt (s.loss.number e.point) e.prepared = (.ok e.loss, u) ∧
    attempt (s.gradient e.point) u = (.ok gradient, v) ∧ gradient.size = e.point.size ∧
    (gradient.scale (-Scalar.one)).normalizeAbove Tensor.negligible = .ok e.direction ∧
    gradient.inner e.direction = .ok slope ∧
    Shrinks s e.point e.direction (fun a => e.loss + s.settings.sufficientShare * a * slope)
      s.settings.maxShrinks.toNat a v n exhausted e.finish

/-- What an iteration with the first trial size `a` shows in the history, and the size `b` that it hands
on. -/
structure Makes (s : Setup m α) (a : α) (e : Entry α ω) (b : α) : Prop where
  prepared : attempt s.before e.start = (.ok (), e.prepared)
  searched : ∃ n, Searches s e a n ∧ e.sizes = s.settings.block a n
  last_size : e.sizes.getLast? = some e.reported
  next_eq : e.point.moveBy (e.direction.scale e.reported) = .ok e.next
  handed : b = e.reported * s.settings.growthFactor

theorem Searches.loss_eq {s : Setup m α} {e : Entry α ω} {a : α} {n : Nat} (h : Searches s e a n) :
    ∃ u, attempt (s.loss.number e.point) e.prepared = (.ok e.loss, u) := by
  obtain ⟨_, _, u, _, _, hloss, -⟩ := h
  exact ⟨u, hloss⟩

/-- A direction has as many entries as the point, because the gradient was checked for that. -/
theorem Searches.size_eq {s : Setup m α} {e : Entry α ω} {a : α} {n : Nat} (h : Searches s e a n) :
    e.direction.size = e.point.size := by
  obtain ⟨gradient, _, _, _, _, -, -, hsize, hdirection, -⟩ := h
  rw [Tensor.size_of_normalizeAbove_ok hdirection, ← hsize]
  exact List.length_map _

/-- Normalizing leaves the precision of the gradient to the direction. -/
theorem Searches.precision_eq {s : Setup m α} {p : Precision}
    (hgradient : ∀ x g u u', attempt (s.gradient x) u = (.ok g, u') → g.precision = p) {e : Entry α ω}
    {a : α} {n : Nat} (h : Searches s e a n) : e.direction.precision = p := by
  obtain ⟨gradient, _, _, _, _, -, heval, -, hdirection, -⟩ := h
  have hprecision : e.direction.precision = (gradient.scale (-Scalar.one)).precision :=
    Tensor.precision_of_normalizeAbove_ok hdirection
  rw [hprecision]
  exact hgradient _ gradient _ _ heval

/-- No block has more sizes than the limit of shrinks allows. -/
theorem Searches.le {s : Setup m α} {e : Entry α ω} {a : α} {n : Nat} (h : Searches s e a n) :
    n ≤ s.settings.maxShrinks.toNat := by
  obtain ⟨_, _, _, _, _, -, -, -, -, -, hshrinks⟩ := h
  exact hshrinks.le

/-- An iteration that succeeds makes an entry. -/
theorem leadsTo_of_iteration_ok {s : Setup m α} {x y : Tensor α} {a : α} {t : Trial α}
    {w w' : Run α × ω} (h : attempt (iteration s x a) w = (.ok (t, y), w')) :
    ∃ e : Entry α ω, t.step = e.direction.scale e.reported ∧
      e.LeadsTo (Makes s) ⟨a, x, w.1, w.2⟩ ⟨t.stepSize * s.settings.growthFactor, y, w'.1, w'.2⟩ := by
  unfold iteration at h
  simp only [attempt_bind_eq_ok, attempt_lift_eq_ok, attempt_evaluate_eq_ok, attempt_record_eq_ok,
    attempt_reporting_eq_ok, attempt_pure_eq_ok, Prod.mk.injEq] at h
  obtain ⟨_, w₀, ⟨hbefore, hrun₀⟩, loss, w₁, ⟨hloss, hrun₁⟩, gradient, w₂, ⟨hgradient, hrun₂⟩, _, _,
    ⟨hcheck, rfl⟩, d, _, ⟨hd, rfl⟩, _, _, rfl, slope, _, ⟨hslope, rfl⟩, trial, w₃, hsearch, next, _,
    ⟨hnext, rfl⟩, _, _, rfl, ⟨rfl, rfl⟩, rfl⟩ := h
  obtain ⟨n, hshrinks, hsize, hstep, hrun₃⟩ := shrinks_of_search_ok hsearch
  refine ⟨⟨x, loss, d, s.settings.block a n, next, trial.stepSize, w.2, w₀.2, w₃.2⟩, hstep,
    ⟨hbefore, ⟨n, ⟨gradient, slope, w₁.2, w₂.2, trial.exhausted, hloss, hgradient,
      checkGradient_eq_ok.mp hcheck, hd, hslope, hshrinks⟩, rfl⟩, ?_, hstep ▸ hnext, rfl⟩,
    rfl, rfl, rfl, ?_, rfl⟩
  · rw [hsize]
    exact s.settings.getLast?_block a n
  · -- The iteration and its search record in two goes what the entry records in one.
    dsimp only
    rw [hrun₃, ← hrun₂, ← hrun₁, ← hrun₀, Entry.after, Run.record_record]
    congr 3
    funext h
    show History.mk _ _ _ ((h.stepSizes ++ [a]) ++ s.settings.laterSizes a n) = _
    rw [List.append_assoc]
    simp [recordEntries, Settings.block, History.addPosition, History.addLoss, History.addDirection,
      History.addStepSize, Tensor.toVector]

/-! ## Runs -/

/-- The step of an iteration is no longer than the length that ends a descent. -/
def Settings.IsSmall (h : Settings α) (e : Entry α ω) : Prop :=
  Scalar.le (e.direction.scale e.reported).norm h.terminationStep = true

/-- The iterations of a loop that ends make the entries of its history. -/
theorem leads_of_iterate_ok {s : Setup m α} {ending : Ending α} {left : Nat} {x : Tensor α} {a : α}
    {i j : Nat} {w w' : Run α × ω} (h : attempt (iterate s left x a i j) w = (.ok ending, w')) :
    ∃ es b, Halts s.settings.IsSmall left es ∧
      Leads (Makes s) ⟨a, x, w.1, w.2⟩ es ⟨b, ending.point, w'.1, w'.2⟩ ∧
      ending.steps = i + es.length := by
  -- By induction on the iterations that may follow; the entries are those of the world they are made in.
  induction left generalizing x a i j w with
  | zero =>
    unfold iterate at h
    obtain ⟨⟨t, y⟩, w₁, hi, h⟩ := attempt_bind_eq_ok.mp h
    obtain ⟨e, -, he⟩ := leadsTo_of_iteration_ok hi
    obtain ⟨rfl, rfl⟩ := attempt_pure_eq_ok.mp h
    exact ⟨[e], _, .last, .cons he .none, rfl⟩
  | succ left ih =>
    unfold iterate at h
    obtain ⟨⟨t, y⟩, w₁, hi, h⟩ := attempt_bind_eq_ok.mp h
    obtain ⟨e, hstep, he⟩ := leadsTo_of_iteration_ok hi
    dsimp only at h
    rw [hstep] at h
    split at h
    next hsmall =>
      obtain ⟨rfl, rfl⟩ := attempt_pure_eq_ok.mp h
      exact ⟨[e], _, .small hsmall, .cons he .none, rfl⟩
    next hlarge =>
      obtain ⟨es, b, hhalts, hes, hsteps⟩ := ih h
      refine ⟨e :: es, b, .step hlarge hhalts, .cons he hes, ?_⟩
      rw [hsteps, List.length_cons]
      omega

end Minimization.GradientDescent
