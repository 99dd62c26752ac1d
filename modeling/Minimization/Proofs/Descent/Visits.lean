import Minimization.Proofs.Descent.Evaluations

/-!
# Where functions are evaluated

To see at which points a run evaluates its functions, they are replaced by functions that also note
where they are evaluated (`visiting`). The notes are a state beside the world, which nothing else looks
at, so that the functions do what they did before (`visiting_refines`). What has been evaluated so far is read
off the notes (`queries`).

A note is taken before the function is evaluated, so an evaluation that fails is noted as well.
-/

namespace Minimization

variable {m : Type → Type} [Monad m] {ω : Type} [Stateful m ω] {α β : Type}

/-- An evaluation of a function, and the point where it is made. -/
structure Visit (α : Type) where
  query : Query
  point : Tensor α

/-- The function also notes where it is evaluated, whether the evaluation succeeds or not. -/
def visiting (q : Query) (f : Tensor α → Evaluation m β) (x : Tensor α) :
    Evaluation (StateT (List (Visit α)) m) β :=
  ExceptT.mk fun seen => do
    let r ← (f x).run
    return (r, seen ++ [⟨q, x⟩])

/-- An evaluation that leaves a state alone. -/
def Evaluation.beside (σ : Type) (e : Evaluation m β) : Evaluation (StateT σ m) β :=
  ExceptT.mk (StateT.lift e.run)

theorem attempt_visiting (q : Query) (f : Tensor α → Evaluation m β) (x : Tensor α)
    (w : List (Visit α) × ω) :
    attempt (visiting q f x) w = ((attempt (f x) w.2).1, w.1 ++ [⟨q, x⟩], (attempt (f x) w.2).2) := by
  have h : Stateful.run ((f x).run >>= fun r => pure (r, w.1 ++ [⟨q, x⟩])) w.2
      = (((attempt (f x) w.2).1, w.1 ++ [⟨q, x⟩]), (attempt (f x) w.2).2) := by
    rw [Stateful.run_bind, Stateful.run_pure]
    rfl
  exact attempt_of_run h

/-- Apart from the notes, the function is the same. -/
theorem visiting_refines (q : Query) (f : Tensor α → Evaluation m β) (x : Tensor α) :
    Refines Prod.snd (visiting q f x) (f x) := by
  intro w
  rw [attempt_visiting]
  rfl

/-- An evaluation beside a list of visits does what it does without one. -/
theorem beside_refines (σ : Type) (e : Evaluation m β) :
    Refines (Prod.snd : σ × ω → ω) (e.beside σ) e := by
  intro w
  rw [Evaluation.beside, attempt_beside]
  rfl

/-- A descent that does the same apart from its notes has the same outcome, and some notes. -/
theorem Refines.exists_visits {c' : Descent (StateT (List (Visit α)) m) α β}
    {c : Descent m α β} (h : Refines (Prod.map id (Prod.snd : List (Visit α) × ω → ω)) c' c)
    {w w' : Run α × ω} {o : Except Failure β} (hc : attempt c w = (o, w')) :
    ∃ visits, attempt c' (w.1, [], w.2) = (o, w'.1, visits, w'.2) := by
  have hnoted := h (w.1, [], w.2)
  change _ = attempt c w at hnoted
  rw [hc] at hnoted
  rcases hc' : attempt c' (w.1, [], w.2) with ⟨o', r, visits, v⟩
  rw [hc'] at hnoted
  obtain ⟨rfl, rfl⟩ := Prod.mk.inj hnoted
  exact ⟨visits, rfl⟩

/-! ## What has been evaluated -/

/-- What has been evaluated so far, in order. -/
def queries (w : List (Visit α) × ω) : List Query := w.1.map Visit.query

/-- A function that notes its visits notes one for every evaluation, whether it fails or not. -/
theorem queries_of_visiting {q : Query} {f : Tensor α → Evaluation m β} {x : Tensor α}
    {w w' : List (Visit α) × ω} {o : Except Failure β} (h : attempt (visiting q f x) w = (o, w')) :
    queries w' = queries w ++ [q] := by
  rw [attempt_visiting] at h
  obtain ⟨-, rfl⟩ := Prod.mk.inj h
  exact List.map_append

/-- Converting what a loss answers is not an evaluation of its own. -/
theorem queries_of_number_visiting {f : Rule m α} {x : Tensor α} {w w' : List (Visit α) × ω}
    {o : Except Failure α} (h : attempt (Rule.number (visiting .loss f) x) w = (o, w')) :
    queries w' = queries w ++ [.loss] := by
  have hsnd := attempt_number_snd (visiting .loss f) x w
  rw [h] at hsnd
  exact queries_of_visiting (Prod.ext rfl hsnd.symm)

theorem queries_of_beside {e : Evaluation m β} {w w' : List (Visit α) × ω} {o : Except Failure β}
    (h : attempt (e.beside (List (Visit α))) w = (o, w')) : queries w' = queries w := by
  rw [Evaluation.beside, attempt_beside] at h
  obtain ⟨-, rfl⟩ := Prod.mk.inj h
  rfl

end Minimization
