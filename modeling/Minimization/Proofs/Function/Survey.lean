import Minimization.Function.Difference
import Minimization.Proofs.Descent.Visits

/-!
# Functions that are evaluated at a list of points

A `survey` evaluates a function at some points, one after the other. `Surveyed` says how it goes: all
evaluations succeed, or the first one that fails is the last one that is made. Which points were visited
can be seen from a function that notes them, and the notes make no difference (`exists_surveyed`).

Some computations change a working vector in place, evaluate a function at it, and put it back. `Surveys`
says that such a computation evaluates what a survey does and fails where the survey fails, and which vector
it leaves in either case; it goes through a computation part by part.
-/

namespace Minimization

variable {m : Type → Type} [Monad m] {ω : Type} [Stateful m ω] {α β γ δ : Type}

/-! ## Surveys -/

/-- The values of a function at some points. -/
def survey (f : Tensor α → Evaluation m β) : List (Tensor α) → Evaluation m (List β)
  | [] => pure []
  | y :: ys => do
    let v ← f y
    let vs ← survey f ys
    return v :: vs

/-- The evaluations of a function at some points, one after the other, have these values and lead from
one world to another. -/
inductive Evaluates (f : Tensor α → Evaluation m β) : ω → List (Tensor α) → List β → ω → Prop
  | none {w} : Evaluates f w [] [] w
  | cons {w u w' y v ys vs} : attempt (f y) w = (.ok v, u) → Evaluates f u ys vs w' →
      Evaluates f w (y :: ys) (v :: vs) w'

theorem Evaluates.length_eq {f : Tensor α → Evaluation m β} {w w' : ω} {ys : List (Tensor α)}
    {vs : List β} (h : Evaluates f w ys vs w') : vs.length = ys.length := by
  induction h with
  | none => rfl
  | cons _ _ ih => rw [List.length_cons, List.length_cons, ih]

theorem Evaluates.append {f : Tensor α → Evaluation m β} {w u w' : ω} {ys zs : List (Tensor α)}
    {vs us : List β} (hys : Evaluates f w ys vs u) (hzs : Evaluates f u zs us w') :
    Evaluates f w (ys ++ zs) (vs ++ us) w' := by
  induction hys with
  | none => exact hzs
  | cons hy _ ih => exact .cons hy (ih hzs)

/-- Evaluations that leave no traces, item by item. -/
theorem Evaluates.flatMap {f : Tensor α → Evaluation m β} {w : ω} {points : γ → List (Tensor α)}
    {values : γ → List β} (h : ∀ i, Evaluates f w (points i) (values i) w) (is : List γ) :
    Evaluates f w (is.flatMap points) (is.flatMap values) w := by
  induction is with
  | nil => exact .none
  | cons i is ih =>
    rw [List.flatMap_cons, List.flatMap_cons]
    exact (h i).append ih

/-- How a survey of some points goes, which of them it visits, and the world that it leaves: it has values
at all of them, or it ends with the first evaluation that fails. -/
inductive Surveyed (f : Tensor α → Evaluation m β) (w : ω) (points : List (Tensor α)) :
    Except Failure (List β) → List (Tensor α) → ω → Prop
  | complete {values w'} : Evaluates f w points values w' → Surveyed f w points (.ok values) points w'
  | failed {j y values u e w'} : points[j]? = some y → Evaluates f w (points.take j) values u →
      attempt (f y) u = (.error e, w') → Surveyed f w points (.error e) (points.take (j + 1)) w'

/-- A survey with one more point before the others. -/
theorem Surveyed.cons {f : Tensor α → Evaluation m β} {w u w' : ω} {y : Tensor α} {v : β}
    {ys visited : List (Tensor α)} {o : Except Failure (List β)} (hy : attempt (f y) w = (.ok v, u))
    (h : Surveyed f u ys o visited w') :
    Surveyed f w (y :: ys) (o.map (v :: ·)) (y :: visited) w' := by
  cases h with
  | complete hvalues => exact .complete (.cons hy hvalues)
  | @failed j _ _ _ _ _ hj hvalues he => exact .failed (j := j + 1) hj (.cons hy hvalues) he

theorem attempt_survey_nil (f : Tensor α → Evaluation m β) (w : ω) :
    attempt (survey f []) w = (.ok [], w) :=
  attempt_pure _ _

theorem attempt_survey_of_error {f : Tensor α → Evaluation m β} {w u : ω} {y : Tensor α} {e : Failure}
    (hy : attempt (f y) w = (.error e, u)) (ys : List (Tensor α)) :
    attempt (survey f (y :: ys)) w = (.error e, u) :=
  attempt_bind_of_error hy _

theorem attempt_survey_of_ok {f : Tensor α → Evaluation m β} {w u : ω} {y : Tensor α} {v : β}
    (hy : attempt (f y) w = (.ok v, u)) (ys : List (Tensor α)) :
    attempt (survey f (y :: ys)) w
      = ((attempt (survey f ys) u).1.map (v :: ·), (attempt (survey f ys) u).2) := by
  rw [survey, attempt_bind_of_ok hy, attempt_bind]
  rcases attempt (survey f ys) u with ⟨e | vs, w'⟩
  · rfl
  · exact attempt_pure _ _

/-- Every survey goes this way, and the same way if the function notes where it is evaluated. -/
theorem exists_surveyed (q : Query) (f : Tensor α → Evaluation m β) (points : List (Tensor α)) :
    ∀ (w : ω) (seen : List (Visit α)), ∃ o visited w', Surveyed f w points o visited w' ∧
      attempt (survey f points) w = (o, w') ∧
      attempt (survey (visiting q f) points) (seen, w) = (o, seen ++ visited.map (Visit.mk q), w') := by
  induction points with
  | nil =>
    intro w seen
    refine ⟨_, [], w, .complete .none, attempt_survey_nil f w, ?_⟩
    rw [List.map_nil, List.append_nil]
    exact attempt_survey_nil _ _
  | cons y ys ih =>
    intro w seen
    have hnoted := attempt_visiting q f y (seen, w)
    rcases hy : attempt (f y) w with ⟨e | v, u⟩
    all_goals rw [hy] at hnoted
    · exact ⟨_, _, u, .failed (j := 0) rfl .none hy, attempt_survey_of_error hy ys,
        attempt_survey_of_error hnoted ys⟩
    · obtain ⟨o, visited, w', hsurveyed, hplain, hseen⟩ := ih u (seen ++ [⟨q, y⟩])
      refine ⟨_, _, w', hsurveyed.cons hy, ?_, ?_⟩
      · rw [attempt_survey_of_ok hy, hplain]
      · rw [attempt_survey_of_ok hnoted, hseen, List.map_cons, List.append_assoc]
        rfl

/-- Evaluations that succeed make up a survey. -/
theorem Evaluates.attempt_survey {f : Tensor α → Evaluation m β} {w w' : ω} {points : List (Tensor α)}
    {values : List β} (h : Evaluates f w points values w') :
    attempt (survey f points) w = (.ok values, w') := by
  induction h with
  | none => exact attempt_survey_nil f _
  | cons hy _ ih =>
    rw [attempt_survey_of_ok hy, ih]
    rfl

/-- Points are surveyed one list after the other. -/
theorem attempt_survey_append (f : Tensor α → Evaluation m β) (ys zs : List (Tensor α)) :
    ∀ w : ω, attempt (survey f (ys ++ zs)) w =
      match attempt (survey f ys) w with
      | (.ok vs, u) => ((attempt (survey f zs) u).1.map (vs ++ ·), (attempt (survey f zs) u).2)
      | (.error e, u) => (.error e, u) := by
  induction ys with
  | nil =>
    intro w
    rw [attempt_survey_nil, List.nil_append]
    dsimp only
    rcases attempt (survey f zs) w with ⟨e | vs, w'⟩
    · rfl
    · rfl
  | cons y ys ih =>
    intro w
    rw [List.cons_append]
    rcases hy : attempt (f y) w with ⟨e | v, u⟩
    · rw [attempt_survey_of_error hy, attempt_survey_of_error hy]
    · rw [attempt_survey_of_ok hy, attempt_survey_of_ok hy, ih]
      rcases attempt (survey f ys) u with ⟨e | vs, u'⟩
      · rfl
      · dsimp only [Except.map]
        rcases attempt (survey f zs) u' with ⟨e | ws, w'⟩
        · rfl
        · rfl

/-! ## Computations on a working vector -/

/-- Started with the vector `x`, the computation evaluates a function where a survey of the points does. If
the survey succeeds, so does the computation, and `Q` holds of the values, its answer and the vector that it
leaves. If the survey fails, so does the computation, and `E` holds of the vector that it leaves. -/
def Surveys (f : Tensor α → Evaluation m β) (E : Tensor α → Prop) (x : Tensor α)
    (points : List (Tensor α)) (c : Perturbing m α γ) (Q : List β → γ → Tensor α → Prop) : Prop :=
  ∀ w : ω, match attempt (survey f points) w with
    | (.ok vs, w') => ∃ b y, attempt c (x, w) = (.ok b, y, w') ∧ Q vs b y
    | (.error e, w') => ∃ y, attempt c (x, w) = (.error e, y, w') ∧ E y

namespace Surveys

variable {f : Tensor α → Evaluation m β} {E : Tensor α → Prop} {x y : Tensor α}
  {points points' : List (Tensor α)} {c : Perturbing m α γ} {g : γ → Perturbing m α δ} {b : γ}
  {P Q : List β → γ → Tensor α → Prop} {R : List β → δ → Tensor α → Prop}

theorem mono (hc : Surveys f E x points c P) (h : ∀ vs b y, P vs b y → Q vs b y) :
    Surveys f E x points c Q := by
  intro w
  have hw := hc w
  generalize attempt (survey f points) w = o at hw ⊢
  rcases o with ⟨e | vs, w'⟩
  · exact hw
  · obtain ⟨b, y, hb, hP⟩ := hw
    exact ⟨b, y, hb, h vs b y hP⟩

theorem pure (h : Q [] b x) : Surveys f E x [] (pure b : Perturbing m α γ) Q := by
  intro w
  rw [attempt_survey_nil]
  exact ⟨b, x, attempt_pure b (x, w), h⟩

theorem bind (hc : Surveys f E x points c P)
    (hg : ∀ vs b y, P vs b y → Surveys f E y points' (g b) fun ws d z => R (vs ++ ws) d z) :
    Surveys f E x (points ++ points') (c >>= g) R := by
  intro w
  have hw := hc w
  rw [attempt_survey_append]
  generalize attempt (survey f points) w = o at hw ⊢
  rcases o with ⟨e | vs, u⟩
  · obtain ⟨y, hy, hE⟩ := hw
    exact ⟨y, attempt_bind_of_error hy g, hE⟩
  · obtain ⟨b, y, hb, hP⟩ := hw
    have hu := hg vs b y hP u
    rw [attempt_bind_of_ok hb]
    dsimp only
    generalize attempt (survey f points') u = o at hu ⊢
    rcases o with ⟨e | ws, w'⟩
    · exact hu
    · exact hu

/-- A part that evaluates nothing and does not fail. -/
theorem bind_of_ok (hc : ∀ w : ω, attempt c (x, w) = (.ok b, y, w))
    (hg : Surveys f E y points (g b) R) : Surveys f E x points (c >>= g) R := by
  intro w
  rw [attempt_bind_of_ok (hc w)]
  exact hg w

/-- What follows the last evaluation. -/
theorem bind_rest (hc : Surveys f E x points c P)
    (hg : ∀ vs b y, P vs b y → Surveys f E y [] (g b) fun ws d z => R (vs ++ ws) d z) :
    Surveys f E x points (c >>= g) R := by
  rw [← List.append_nil points]
  exact hc.bind hg

/-- A loop whose items leave the vector as it was surveys the points of its items, one item after the
other. Its answers are made of all values by `combine`, which takes the answer for an item from the values
of that item. -/
theorem mapM {items : List δ} {pointsOf : δ → List (Tensor α)} {step : δ → Perturbing m α γ}
    {combine : List β → List γ} (hnil : combine [] = [])
    (h : ∀ i ∈ items, Surveys f E x (pointsOf i) (step i) fun vs b y =>
      (∀ ws, combine (vs ++ ws) = b :: combine ws) ∧ y = x) :
    Surveys f E x (items.flatMap pointsOf) (items.mapM step) fun vs bs y => bs = combine vs ∧ y = x := by
  -- The answers are collected behind those that are there already.
  have hloop : ∀ (items : List δ) (acc : List γ),
      (∀ i ∈ items, Surveys f E x (pointsOf i) (step i) fun vs b y =>
        (∀ ws, combine (vs ++ ws) = b :: combine ws) ∧ y = x) →
      Surveys f E x (items.flatMap pointsOf) (List.mapM.loop step items acc) fun vs bs y =>
        bs = acc.reverse ++ combine vs ∧ y = x := by
    intro items
    induction items with
    | nil =>
      intro acc _
      refine .pure ⟨?_, rfl⟩
      rw [hnil, List.append_nil]
    | cons i items ih =>
      intro acc h
      rw [List.flatMap_cons]
      refine .bind (h i (List.mem_cons_self ..)) fun vs b y ⟨hb, hy⟩ => ?_
      subst hy
      refine (ih (b :: acc) fun j hj => h j (List.mem_cons_of_mem i hj)).mono
        fun ws bs y ⟨hbs, hy⟩ => ⟨?_, hy⟩
      rw [hbs, hb, List.reverse_cons, List.append_assoc, List.singleton_append]
  exact hloop items [] h

end Surveys

end Minimization
