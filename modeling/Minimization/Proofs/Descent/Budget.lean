import Mathlib.Algebra.Ring.Nat
import Minimization.Proofs.Descent.Layout
import Minimization.Proofs.Descent.Projection
import Minimization.Proofs.Descent.Succeeding
import Minimization.Proofs.Descent.Visits

/-!
# The budget of a descent

How much a descent takes is known up to what its functions answer. Its loop makes the first number of
iterations, at least one, that reaches the limit or ends with a small step (`Halts`); a line search makes
at most the number of shrinks that is allowed; and every iteration of gradient descent evaluates the
gradient once and the loss twice and once more for every shrink, while one of moment descent evaluates
both once. The loss is evaluated once more at the end. `GradientDescent.Budget` and `Adam.Budget` say so of
a run, whose functions are replaced by ones that also note where they are evaluated.
-/

namespace Minimization

variable {m : Type → Type} [Monad m] {ω : Type} [Stateful m ω] {α : Type} [Scalar α] {I : ω → Prop}

/-- If every entry evaluates some functions, a chain of entries does so one entry after the other. -/
theorem Leads.queries_eq {σ : Type} {made : σ → Entry α (List (Visit α) × ω) → σ → Prop}
    {asks : Entry α (List (Visit α) × ω) → List Query}
    (hmade : ∀ {a e b}, made a e b → queries e.finish = queries e.start ++ asks e)
    {p q : Standing σ α (List (Visit α) × ω)} {es : List (Entry α (List (Visit α) × ω))}
    (h : Leads made p es q) : queries q.world = queries p.world ++ es.flatMap asks := by
  induction h with
  | none => exact (List.append_nil _).symm
  | cons he _ ih =>
    rw [ih, ← he.finish_eq, hmade he.made, he.start_eq, List.flatMap_cons, List.append_assoc]

/-- A loop with a limit makes at least one step, and no more than the limit says otherwise. -/
theorem Halts.length_mem {ε : Type} {small : ε → Prop} {limit : Int} {es : List ε}
    (h : Halts small (limit - 1).toNat es) : 1 ≤ es.length ∧ (es.length : Int) ≤ max 1 limit := by
  have hle := h.length_le
  exact ⟨h.isLeast.1.1, by omega⟩

/-! ## Gradient descent -/

namespace GradientDescent

/-- The descent with functions that note where they are evaluated. -/
def Setup.noted (s : Setup m α) : Setup (StateT (List (Visit α)) m) α :=
  ⟨s.name, s.precision, s.settings, visiting .loss s.loss, visiting .gradient s.gradient, s.before.beside _⟩

/-- The number of shrinks of an iteration: it records one size more. -/
def shrinksOf (e : Entry α ω) : Nat := e.sizes.length - 1

/-- What an iteration evaluates. -/
def queriesOf (e : Entry α ω) : List Query :=
  .loss :: .gradient :: List.replicate (shrinksOf e + 1) .loss

/-- A gradient descent from a guess that succeeds and leads to `y`, with the iterations `es` that it makes
and the visits that its functions are paid. -/
structure Budget (s : Setup m α) (guess : Tensor α) (w : Run α × ω)
    (es : List (Entry α (List (Visit α) × ω))) (visits : List (Visit α)) (y : Tensor α)
    (w' : Run α × ω) : Prop where
  ended : attempt (run s guess) w = (.ok y, w')
  noted : attempt (run s.noted guess) (w.1, [], w.2) = (.ok y, w'.1, visits, w'.2)
  made : ∃ q, q.point = y ∧
    Leads (Makes s.noted) ⟨s.settings.initialStep, guess.convert s.precision, w.1, [], w.2⟩ es q
  iterations : w'.1.report.iterations = es.length
  least : IsLeast {k : Nat | 1 ≤ k ∧
    (s.settings.maxSteps ≤ k ∨ ∃ e, es[k - 1]? = some e ∧ s.settings.IsSmall e)} es.length
  capped : 1 ≤ es.length ∧ (es.length : Int) ≤ max 1 s.settings.maxSteps
  shrinks : ∀ e ∈ es, (∃ a, Searches s.noted e a (shrinksOf e)) ∧
    (shrinksOf e : Int) ≤ max 0 s.settings.maxShrinks
  gradients : (visits.map Visit.query).count .gradient = es.length
  losses : (visits.map Visit.query).count .loss = 1 + (es.map fun e => 2 + shrinksOf e).sum
  told : ∃ told, w'.1.notices = w.1.notices ++ told ∧ told.countP Notice.isEnding = 1

section Queries

variable {s : Setup m α}

/-- A trial evaluates the loss once. -/
theorem Tried.queries_eq {x d : Tensor α} {bound : α → α} {a : α} {rejected : Bool}
    {u v : List (Visit α) × ω} (h : Tried s.noted x d bound a u rejected v) :
    queries v = queries u ++ [.loss] := by
  obtain ⟨_, _, _, -, heval, -⟩ := h
  exact queries_of_visiting heval

/-- A line search evaluates the loss once, and once more for every shrink. -/
theorem Shrinks.queries_eq {x d : Tensor α} {bound : α → α} {left n : Nat} {a : α} {exhausted : Bool}
    {u v : List (Visit α) × ω} (h : Shrinks s.noted x d bound left a u n exhausted v) :
    queries v = queries u ++ List.replicate (n + 1) .loss := by
  induction h with
  | accepted htried => exact htried.queries_eq
  | exhausted htried => exact htried.queries_eq
  | shrunk htried _ ih => rw [ih, htried.queries_eq, List.append_assoc, List.replicate_succ (n := _ + 1)]; rfl

/-- The shrinks of an iteration are counted by the sizes that it records. -/
theorem Makes.searches {a b : α} {e : Entry α ω} {s : Setup m α} (h : Makes s a e b) :
    Searches s e a (shrinksOf e) := by
  obtain ⟨n, hsearches, hsizes⟩ := h.searched
  rw [shrinksOf, hsizes, Settings.length_block, Nat.add_sub_cancel]
  exact hsearches

/-- An iteration evaluates the loss, the gradient, and then the loss for every trial. -/
theorem Makes.queries_eq {a b : α} {e : Entry α (List (Visit α) × ω)} (h : Makes s.noted a e b) :
    queries e.finish = queries e.start ++ queriesOf e := by
  obtain ⟨_, _, u, v, _, hloss, hgradient, -, -, -, hshrinks⟩ := h.searches
  rw [hshrinks.queries_eq, queries_of_visiting hgradient, queries_of_number_visiting hloss,
    queries_of_beside h.prepared, List.append_assoc, List.append_assoc]
  rfl

omit [Scalar α] in
/-- A run evaluates the gradient once in every iteration. -/
theorem count_gradient (es : List (Entry α ω)) :
    (es.flatMap queriesOf ++ [Query.loss]).count .gradient = es.length := by
  have he (e : Entry α ω) : (queriesOf e).count .gradient = 1 := by
    rw [queriesOf, List.count_cons_of_ne (by decide), List.count_cons_self, List.count_replicate,
      if_neg (by decide)]
  rw [List.count_append, List.count_flatMap, show List.count Query.gradient ∘ queriesOf = _ from funext he,
    List.map_const', List.sum_replicate_nat, Nat.mul_one]
  rfl

omit [Scalar α] in
/-- It evaluates the loss twice in every iteration, once more for every shrink, and once at the end. -/
theorem count_loss (es : List (Entry α ω)) :
    (es.flatMap queriesOf ++ [Query.loss]).count .loss = 1 + (es.map fun e => 2 + shrinksOf e).sum := by
  have he (e : Entry α ω) : (queriesOf e).count .loss = 2 + shrinksOf e := by
    rw [queriesOf, List.count_cons_self, List.count_cons_of_ne (by decide), List.count_replicate_self]
    omega
  rw [List.count_append, List.count_flatMap, show List.count Query.loss ∘ queriesOf = _ from funext he,
    Nat.add_comm]
  rfl

end Queries

/-- A gradient descent has a budget, if its functions have an answer everywhere. -/
theorem exists_budget (hz : Scalar.DiscernsZero α) {s : Setup m α} {guess : Tensor α}
    (hf : Answering I s.before s.loss s.gradient guess.shape) {w : Run α × ω} (hw : I w.2) :
    ∃ es visits y w', Budget s guess w es visits y w' ∧ I w'.2 := by
  obtain ⟨y, w', hrun, -, hw'⟩ := (succeeds_run hf hz rfl).exists_ok (w := w) hw
  obtain ⟨visits, hnoted⟩ := (run_refines Run.unnoticed_id (visiting_refines .loss s.loss)
    (visiting_refines .gradient s.gradient) (beside_refines _ s.before) s.name s.precision s.settings
    guess).exists_visits hrun
  obtain ⟨es, q, hhalts, hq, hes, hloss, hiterations, -, -, htold⟩ := leads_of_run_ok hnoted
  have hvisits : visits.map Visit.query = es.flatMap queriesOf ++ [.loss] := by
    have hend := queries_of_number_visiting hloss
    rw [hes.queries_eq Makes.queries_eq] at hend
    exact hend
  refine ⟨es, visits, y, w', ⟨hrun, hnoted, ⟨q, hq, hes⟩, hiterations, hhalts.isLeast,
    hhalts.length_mem, fun e he => ?_, ?_, ?_, htold⟩, hw'⟩
  · obtain ⟨_, _, he⟩ := hes.made_of_mem he
    have hsearches := he.made.searches
    have hle : shrinksOf e ≤ s.settings.maxShrinks.toNat := hsearches.le
    exact ⟨⟨_, hsearches⟩, by omega⟩
  · rw [hvisits]
    exact count_gradient es
  · rw [hvisits]
    exact count_loss es

end GradientDescent

/-! ## Moment descent -/

namespace Adam

/-- The descent with functions that note where they are evaluated. -/
def Setup.noted (s : Setup m α) : Setup (StateT (List (Visit α)) m) α :=
  ⟨s.precision, s.settings, visiting .loss s.loss, visiting .gradient s.gradient, s.before.beside _⟩

/-- A moment descent from a guess that succeeds and leads to `y`, with the iterations `es` that it makes
and the visits that its functions are paid. -/
structure Budget (s : Setup m α) (guess : Tensor α) (w : Run α × ω)
    (es : List (Entry α (List (Visit α) × ω))) (visits : List (Visit α)) (y : Tensor α)
    (w' : Run α × ω) : Prop where
  ended : attempt (run s guess) w = (.ok y, w')
  noted : attempt (run s.noted guess) (w.1, [], w.2) = (.ok y, w'.1, visits, w'.2)
  made : ∃ q, q.point = y ∧
    Leads (Makes s.noted)
      ⟨(1, .start (guess.convert s.precision)), guess.convert s.precision, w.1, [], w.2⟩ es q
  iterations : w'.1.report.iterations = es.length
  least : IsLeast {k : Nat | 1 ≤ k ∧
    (s.settings.maxSteps ≤ k ∨ ∃ e, es[k - 1]? = some e ∧ s.settings.IsSmall e)} es.length
  capped : 1 ≤ es.length ∧ (es.length : Int) ≤ max 1 s.settings.maxSteps
  gradients : (visits.map Visit.query).count .gradient = es.length
  losses : (visits.map Visit.query).count .loss = es.length + 1

/-- An iteration without a line search evaluates the loss and the gradient once. -/
theorem Makes.queries_eq {s : Setup m α} {a b : Nat × Moments α} {e : Entry α (List (Visit α) × ω)}
    (h : Makes s.noted a e b) : queries e.finish = queries e.start ++ [.loss, .gradient] := by
  obtain ⟨u, hloss, hgradient⟩ := h.evaluated
  rw [queries_of_visiting hgradient, queries_of_number_visiting hloss, queries_of_beside h.prepared,
    List.append_assoc]
  rfl

omit [Scalar α] in
theorem count_query (es : List (Entry α ω)) (q : Query) :
    ((es.flatMap fun _ => [Query.loss, Query.gradient]) ++ [Query.loss]).count q
      = es.length + if q = .loss then 1 else 0 := by
  have he (e : Entry α ω) : [Query.loss, Query.gradient].count q = 1 := by
    cases q <;> rfl
  rw [List.count_append, List.count_flatMap,
    show (List.count q ∘ fun _ : Entry α ω => [Query.loss, Query.gradient]) = _ from funext he,
    List.map_const', List.sum_replicate_nat, Nat.mul_one]
  cases q <;> rfl

/-- A moment descent with proper settings has a budget, if its functions have an answer everywhere. -/
theorem exists_budget (hs : Scalar.KeepsSigns α) {s : Setup m α} (hh : s.settings.IsProper)
    {guess : Tensor α} (hf : Answering I s.before s.loss s.gradient guess.shape) {w : Run α × ω}
    (hw : I w.2) :
    ∃ es visits y w', Budget s guess w es visits y w' ∧ I w'.2 := by
  obtain ⟨y, w', hrun, -, hw'⟩ := (succeeds_run hf hs hh rfl).exists_ok (w := w) hw
  obtain ⟨visits, hnoted⟩ := (run_refines Run.unnoticed_id (visiting_refines .loss s.loss)
    (visiting_refines .gradient s.gradient) (beside_refines _ s.before) s.precision s.settings
    guess).exists_visits hrun
  obtain ⟨es, q, hhalts, hq, hes, hloss, hiterations, -⟩ := leads_of_run_ok hnoted
  have hvisits : visits.map Visit.query
      = (es.flatMap fun _ => [.loss, .gradient]) ++ [.loss] := by
    have hend := queries_of_number_visiting hloss
    rw [hes.queries_eq Makes.queries_eq] at hend
    exact hend
  refine ⟨es, visits, y, w', ⟨hrun, hnoted, ⟨q, hq, hes⟩, hiterations, hhalts.isLeast,
    hhalts.length_mem, ?_, ?_⟩, hw'⟩
  · rw [hvisits]
    exact count_query es .gradient
  · rw [hvisits]
    exact count_query es .loss

end Adam

end Minimization
