import Minimization.Proofs.Function.Survey
import Minimization.Proofs.Tensor.Entries

/-!
# What gradient estimators evaluate

An estimator changes the vector in place, one coordinate at a time. All the same it evaluates its function
as if it had made a copy for every point (`Difference.points`): whenever a coordinate is changed the others
are what they were, and it is put back before anything else happens, also when the evaluation fails. So a run
is a survey of these points (`Estimator.surveys_components`), the estimate is made of the values at them, and
the vector is left as it was (`Estimator.run_probes`).

Nothing is assumed about the numbers, except that the entries of the vector are kept with its precision:
otherwise putting an entry back would round it.
-/

namespace Minimization

variable {m : Type → Type} [Monad m] {ω : Type} [Stateful m ω] {α β : Type} [Scalar α]

/-- The rule that answers with the values of a function. -/
def Rule.ofNumbers (f : Tensor α → Evaluation m α) : Rule m α := fun x => do return .ofNumber (← f x)

/-- The points where a gradient is estimated from, in order. -/
def Difference.points : Difference → α → Tensor α → List (Tensor α)
  | .forward, h, x => x :: (List.range x.size).map fun i => x.modifyAt i (· + h)
  | .central, h, x =>
    (List.range x.size).flatMap fun i => [x.modifyAt i (· + h), x.modifyAt i (· - h)]

/-- The number is component `i` of the estimate that is made of the values at the points. -/
def Difference.IsComponent : Difference → α → List α → Nat → α → Prop
  | .forward, h, values, i, c => ∃ here plus, values[0]? = some here ∧ values[i + 1]? = some plus ∧
      c = (plus - here) / h
  | .central, h, values, i, c => ∃ plus minus, values[2 * i]? = some plus ∧
      values[2 * i + 1]? = some minus ∧ c = (plus - minus) * (Scalar.half / h)

/-- The vector is the estimate that is made of the values, kept with a precision. -/
structure Difference.IsEstimate (d : Difference) (h : α) (p : Precision) (n : Nat) (values : List α)
    (g : Tensor α) : Prop where
  shape_eq : g.shape = [n]
  component : ∀ i < n, ∃ c, d.IsComponent h values i c ∧ g.entries[i]? = some (Scalar.round p c)

/-- What is answered, when the survey of the points goes this way: an estimate that is made of the values, or
the failure of the evaluation that ended the survey. -/
inductive Difference.Answers (d : Difference) (h : α) (p : Precision) (n : Nat) :
    Except Failure (List α) → Except Failure (Tensor α) → Prop
  | estimate {values g} : d.IsEstimate h p n values g → Answers d h p n (.ok values) (.ok g)
  | failure (e) : Answers d h p n (.error e) (.error e)

/-! ## Components -/

/-- The components of an estimate, from the values at its points. -/
def Difference.quotients (h : α) : Difference → List α → List α
  | .forward, here :: values => values.map fun plus => (plus - here) / h
  | .central, plus :: minus :: values =>
    (plus - minus) * (Scalar.half / h) :: Difference.quotients h .central values
  | _, _ => []

theorem Difference.isComponent_of_quotients {d : Difference} {h c : α} {values : List α} {i : Nat}
    (hc : (d.quotients h values)[i]? = some c) : d.IsComponent h values i c := by
  fun_induction Difference.quotients h d values generalizing i with
  | case1 here values =>
    rw [List.getElem?_map, Option.map_eq_some_iff] at hc
    obtain ⟨plus, hplus, rfl⟩ := hc
    exact ⟨here, plus, rfl, hplus, rfl⟩
  | case2 plus minus values ih =>
    cases i with
    | zero => exact ⟨plus, minus, rfl, rfl, (Option.some.inj hc).symm⟩
    | succ i => exact ih hc
  | case3 => cases hc

theorem Difference.length_points (d : Difference) (h : α) (x : Tensor α) :
    (d.points h x).length = match d with
      | .forward => x.size + 1
      | .central => x.size * 2 := by
  cases d with
  | forward => rw [points, List.length_cons, List.length_map, List.length_range]
  | central =>
    rw [points, List.length_flatMap]
    show ((List.range x.size).map fun _ => 2).sum = x.size * 2
    rw [List.map_const', List.sum_replicate_nat, List.length_range]

theorem Difference.length_quotients {d : Difference} {h : α} {x : Tensor α} {values : List α}
    (hv : values.length = (d.points h x).length) : (d.quotients h values).length = x.size := by
  rw [length_points] at hv
  generalize x.size = n at hv ⊢
  fun_induction Difference.quotients h d values generalizing n with
  | case1 here values => simpa using hv
  | case2 plus minus values ih =>
    simp only [List.length_cons] at hv
    rw [List.length_cons, ih (n - 1) (by dsimp only; omega)]
    omega
  | case3 values d hforward hcentral =>
    match d, values with
    | .forward, [] => cases hv
    | .forward, here :: values => exact (hforward here values rfl rfl).elim
    | .central, [] => simp only [List.length_nil] at hv ⊢; omega
    | .central, [_] => simp only [List.length_cons, List.length_nil] at hv; omega
    | .central, plus :: minus :: values => exact (hcentral plus minus values rfl rfl).elim

/-- The quotients of the values at the points make up the estimate. -/
theorem Difference.isEstimate_vector {d : Difference} {h : α} {x : Tensor α} {values : List α}
    (hv : values.length = (d.points h x).length) (p : Precision) :
    d.IsEstimate h p x.size values (.vector p (d.quotients h values)) where
  shape_eq := congrArg (fun n => [n]) (length_quotients hv)
  component i hi := by
    obtain ⟨c, hc⟩ : ∃ c, (d.quotients h values)[i]? = some c :=
      ⟨_, List.getElem?_eq_getElem (by rwa [length_quotients hv])⟩
    refine ⟨c, isComponent_of_quotients hc, ?_⟩
    show ((d.quotients h values).map (Scalar.round p))[i]? = _
    rw [List.getElem?_map, hc]
    rfl

/-! ## Changes in place -/

namespace Perturbing

omit [Scalar α] in
theorem attempt_vector (w : Tensor α × ω) :
    attempt (vector : Perturbing m α (Tensor α)) w = (.ok w.1, w) := by
  have h : Stateful.run ((pure (w.1, w.1) : m (Tensor α × Tensor α)) >>= fun p =>
      pure ((Except.ok p.1 : Except Failure (Tensor α)), p.2)) w.2 = ((.ok w.1, w.1), w.2) := by
    rw [Stateful.run_bind, Stateful.run_pure, Stateful.run_pure]
  exact attempt_of_run h

theorem attempt_change (i : Nat) (v : α) (w : Tensor α × ω) :
    attempt (change i v : Perturbing m α Unit) w = (.ok (), w.1.setAt i v, w.2) :=
  attempt_modify _ w

omit [Scalar α] in
theorem attempt_valueOf (f : Rule m α) (w : Tensor α × ω) :
    attempt (valueOf f) w = ((attempt (f w.1) w.2).1, w.1, (attempt (f w.1) w.2).2) := by
  have h : Stateful.run ((pure (w.1, w.1) : m (Tensor α × Tensor α)) >>= fun p =>
      (f p.1).run >>= fun a => pure (a, p.2)) w.2
        = (((attempt (f w.1) w.2).1, w.1), (attempt (f w.1) w.2).2) := by
    rw [Stateful.run_bind, Stateful.run_pure, Stateful.run_bind, Stateful.run_pure]
    rfl
  exact attempt_of_run h

theorem attempt_restoring (i : Nat) (v : α) (c : Perturbing m α β) (w : Tensor α × ω) :
    attempt (restoring i v c) w
      = ((attempt c w).1, (attempt c w).2.1.setAt i v, (attempt c w).2.2) := by
  have h : Stateful.run ((c.run.run w.1) >>= fun p =>
      (pure (PUnit.unit, p.2.setAt i v) : m (PUnit × Tensor α)) >>= fun q => pure (p.1, q.2)) w.2
        = (((attempt c w).1, (attempt c w).2.1.setAt i v), (attempt c w).2.2) := by
    rw [Stateful.run_bind, Stateful.run_bind, Stateful.run_pure, Stateful.run_pure]
    rfl
  exact attempt_of_run h

omit [Scalar α] in
theorem attempt_valueOf_ofNumbers (f : Tensor α → Evaluation m α) (w : Tensor α × ω) :
    attempt (valueOf (.ofNumbers f)) w
      = ((attempt (f w.1) w.2).1.map .ofNumber, w.1, (attempt (f w.1) w.2).2) := by
  rw [attempt_valueOf, Rule.ofNumbers, attempt_bind]
  rcases attempt (f w.1) w.2 with ⟨e | v, u⟩
  · rfl
  · dsimp only
    rw [attempt_pure]
    rfl

end Perturbing

/-! ## Surveys of estimators -/

open Perturbing

section Parts

variable {f : Tensor α → Evaluation m α} {E : Tensor α → Prop} {x z : Tensor α}
  {points : List (Tensor α)} {i : Nat} {v : α}

omit [Scalar α] in
theorem Surveys.bind_vector {g : Tensor α → Perturbing m α β} {R : List α → β → Tensor α → Prop}
    (hg : Surveys f E x points (g x) R) : Surveys f E x points (vector >>= g) R :=
  .bind_of_ok (fun w => attempt_vector (x, w)) hg

theorem Surveys.bind_change {g : Unit → Perturbing m α β} {R : List α → β → Tensor α → Prop}
    (hg : Surveys f E (x.setAt i v) points (g ()) R) :
    Surveys f E x points (change i v >>= g) R :=
  .bind_of_ok (fun w => attempt_change i v (x, w)) hg

omit [Scalar α] in
theorem Surveys.bind_operand {g : α → Perturbing m α β} {R : List α → β → Tensor α → Prop} {a : α}
    (hg : Surveys f E x points (g a) R) :
    Surveys f E x points (liftM (Answer.ofNumber a).operand >>= g) R :=
  .bind_of_ok (fun w => attempt_lift (.ok a) (x, w)) hg

omit [Scalar α] in
theorem Surveys.valueOf (hE : E x) : Surveys f E x [x] (valueOf (.ofNumbers f)) fun vs a y =>
    (∃ b, vs = [b] ∧ a = .ofNumber b) ∧ y = x := by
  intro w
  have hvalue := attempt_valueOf_ofNumbers f (x, w)
  rcases hx : attempt (f x) w with ⟨e | b, u⟩
  all_goals rw [hx] at hvalue
  · rw [attempt_survey_of_error hx]
    exact ⟨x, hvalue, hE⟩
  · rw [attempt_survey_of_ok hx, attempt_survey_nil]
    exact ⟨_, x, hvalue, ⟨b, rfl, rfl⟩, rfl⟩

omit [Scalar α] in
theorem Surveys.bind_valueOf {g : Answer α → Perturbing m α β} {R : List α → β → Tensor α → Prop}
    (hE : E x) (hg : ∀ b, Surveys f E x points (g (.ofNumber b)) fun vs d z => R (b :: vs) d z) :
    Surveys f E x (x :: points) (Perturbing.valueOf (.ofNumbers f) >>= g) R := by
  refine (Surveys.valueOf hE).bind ?_
  rintro _ _ _ ⟨⟨b, rfl, rfl⟩, rfl⟩
  exact hg b

/-- If putting the coordinate back leads to the same vector wherever the computation ends, that vector is
left. -/
theorem Surveys.restoring {c : Perturbing m α β} {Q : List α → β → Prop}
    (hc : Surveys f (fun y => y.setAt i v = z) x points c fun vs b y => Q vs b ∧ y.setAt i v = z) :
    Surveys f (· = z) x points (restoring i v c) fun vs b y => Q vs b ∧ y = z := by
  intro w
  have hw := hc w
  have hrestored := attempt_restoring i v c (x, w)
  generalize attempt (survey f points) w = o at hw ⊢
  rcases o with ⟨e | vs, w'⟩
  · obtain ⟨y, hy, hz⟩ := hw
    rw [hy, hz] at hrestored
    exact ⟨z, hrestored, rfl⟩
  · obtain ⟨b, y, hb, hQ, hz⟩ := hw
    rw [hb, hz] at hrestored
    exact ⟨b, z, hrestored, hQ, rfl⟩

end Parts

namespace Estimator

variable {f : Tensor α → Evaluation m α} {x : Tensor α} {i : Nat} {v : α}

/-- A coordinate is moved forwards and put back. -/
theorem surveys_forwardComponent (hx : x.IsKept x.precision) (hv : x.entries[i]? = some v)
    (d : Difference) (h here : α) :
    Surveys f (· = x) x [x.modifyAt i (· + h)]
      (forwardComponent ⟨d, .ofNumbers f, h⟩ (.ofNumber here) i v) fun vs c y =>
        (∃ plus, vs = [plus] ∧ c = (plus - here) / h) ∧ y = x := by
  have hback : (x.modifyAt i (· + h)).setAt i v = x := by
    rw [Tensor.setAt_modifyAt, Tensor.setAt_self hx hv]
  refine .bind_change ?_
  rw [Tensor.setAt_apply hv (· + h)]
  refine .bind_rest (P := fun vs a y => (∃ plus, vs = [plus] ∧ a = .ofNumber plus) ∧ y = x)
    (.restoring ?_) ?_
  · exact Surveys.mono (.valueOf hback) fun _ _ _ ⟨hplus, hy⟩ => ⟨hplus, hy ▸ hback⟩
  · rintro _ _ _ ⟨⟨plus, rfl, rfl⟩, rfl⟩
    exact .bind_operand (.bind_operand (.pure ⟨⟨plus, rfl, rfl⟩, rfl⟩))

/-- A coordinate is moved to both sides and put back. -/
theorem surveys_centralComponent (hx : x.IsKept x.precision) (hv : x.entries[i]? = some v)
    (d : Difference) (h : α) :
    Surveys f (· = x) x [x.modifyAt i (· + h), x.modifyAt i (· - h)]
      (centralComponent ⟨d, .ofNumbers f, h⟩ i v) fun vs c y =>
        (∃ plus minus, vs = [plus, minus] ∧ c = (plus - minus) * (Scalar.half / h)) ∧ y = x := by
  have hback : ∀ g : α → α, (x.modifyAt i g).setAt i v = x := by
    intro g
    rw [Tensor.setAt_modifyAt, Tensor.setAt_self hx hv]
  refine .bind_rest (P := fun vs a y =>
    (∃ plus minus, vs = [plus, minus] ∧ a = (.ofNumber plus, .ofNumber minus)) ∧ y = x)
    (.restoring ?_) ?_
  · refine .bind_change ?_
    rw [Tensor.setAt_apply hv (· + h)]
    refine .bind_valueOf (hback (· + h)) fun plus => ?_
    refine .bind_change ?_
    rw [Tensor.setAt_modifyAt, Tensor.setAt_apply hv (· - h)]
    refine .bind_valueOf (hback (· - h)) fun minus => ?_
    exact .pure ⟨⟨plus, minus, rfl, rfl⟩, hback (· - h)⟩
  · rintro _ _ _ ⟨⟨plus, minus, rfl, rfl⟩, rfl⟩
    exact .bind_operand (.bind_operand (.pure ⟨⟨plus, minus, rfl, rfl⟩, rfl⟩))

omit [Scalar α] in
/-- The points of all coordinates, in order. -/
theorem flatMap_zipIdx (x : Tensor α) (g : Nat → List (Tensor α)) :
    x.entries.zipIdx.flatMap (fun p => g p.2) = (List.range x.size).flatMap g := by
  have hindices : x.entries.zipIdx.map Prod.snd = List.range x.size := by
    rw [List.zipIdx_map_snd, List.range_eq_range', Tensor.size]
  rw [← hindices, List.flatMap_map]

/-- The components are made of the values at the points, and the vector is put back. -/
theorem surveys_components (hx : x.IsKept x.precision) (p : Precision) (d : Difference) (h : α) :
    Surveys f (· = x) x (d.points h x) (components p ⟨d, .ofNumbers f, h⟩) fun vs g y =>
      g = .vector p (d.quotients h vs) ∧ y = x := by
  have hentry : ∀ {q : α × Nat}, q ∈ x.entries.zipIdx → x.entries[q.2]? = some q.1 :=
    List.mem_zipIdx_iff_getElem?.mp
  refine .bind_vector ?_
  cases d with
  | forward =>
    refine .bind_valueOf rfl fun here => ?_
    have hloop : Surveys f (· = x) x (x.entries.zipIdx.flatMap fun q => [x.modifyAt q.2 (· + h)])
        (x.entries.zipIdx.mapM fun q =>
          forwardComponent ⟨.forward, .ofNumbers f, h⟩ (.ofNumber here) q.2 q.1)
        fun vs cs y => cs = vs.map (fun plus => (plus - here) / h) ∧ y = x :=
      .mapM rfl fun q hq => (surveys_forwardComponent hx (hentry hq) _ h here).mono
        fun vs c y ⟨⟨plus, hvs, hc⟩, hy⟩ => ⟨fun ws => by rw [hvs, hc]; rfl, hy⟩
    rw [flatMap_zipIdx x fun i => [x.modifyAt i (· + h)], ← List.map_eq_flatMap] at hloop
    refine .bind_rest hloop fun vs cs y ⟨hcs, hy⟩ => .pure ⟨?_, hy⟩
    rw [hcs, List.append_nil]
    rfl
  | central =>
    have hloop : Surveys f (· = x) x
        (x.entries.zipIdx.flatMap fun q => [x.modifyAt q.2 (· + h), x.modifyAt q.2 (· - h)])
        (x.entries.zipIdx.mapM fun q => centralComponent ⟨.central, .ofNumbers f, h⟩ q.2 q.1)
        fun vs cs y => cs = Difference.quotients h .central vs ∧ y = x :=
      .mapM rfl fun q hq => (surveys_centralComponent hx (hentry hq) _ h).mono
        fun vs c y ⟨⟨plus, minus, hvs, hc⟩, hy⟩ => ⟨fun ws => by rw [hvs, hc]; rfl, hy⟩
    rw [flatMap_zipIdx x fun i => [x.modifyAt i (· + h), x.modifyAt i (· - h)]] at hloop
    refine .bind_rest hloop fun vs cs y ⟨hcs, hy⟩ => .pure ⟨?_, hy⟩
    rw [hcs, List.append_nil]

/-- A run is a survey of the points, and the vector is put back however the survey goes. -/
theorem run_of_survey (hx : x.IsKept x.precision) (p : Precision) (d : Difference) (h : α) {w w' : ω}
    {values : Except Failure (List α)} (hs : attempt (survey f (d.points h x)) w = (values, w')) :
    Stateful.run (run p ⟨d, .ofNumbers f, h⟩ x) w
      = ((values.map fun vs => .vector p (d.quotients h vs), x), w') := by
  have hw := surveys_components (f := f) hx p d h w
  rw [hs] at hw
  have hrun : ∀ {o y}, attempt (components p ⟨d, .ofNumbers f, h⟩) (x, w) = (o, y, w') →
      Stateful.run (run p ⟨d, .ofNumbers f, h⟩ x) w = ((o, y), w') :=
    congrArg fun r : Except Failure (Tensor α) × Tensor α × ω => ((r.1, r.2.1), r.2.2)
  rcases values with e | vs
  · obtain ⟨y, hy, rfl⟩ := hw
    exact hrun hy
  · obtain ⟨g, y, hg, rfl, rfl⟩ := hw
    exact hrun hg

/-- An estimator with a positive step evaluates its function at its points in order and up to the first
failure, as a function that notes its evaluations tells. Its answer is the estimate that is made of the values,
or that failure. The vector is left as it was. -/
theorem run_probes (d : Difference) (f : Tensor α → Evaluation m α) {h : α}
    (hh : Scalar.le h Scalar.zero = false) (p : Precision) {x : Tensor α}
    (hx : x.IsKept x.precision) (w : ω) :
    ∃ (e : Estimator m α) (noting : Estimator (StateT (List (Visit α)) m) α)
        (values : Except Failure (List α)) (answer : Except Failure (Tensor α))
        (visited : List (Tensor α)) (w' : ω),
      of? d (.ofNumbers f) h = some e ∧ of? d (.ofNumbers (visiting .loss f)) h = some noting ∧
      Surveyed f w (d.points h x) values visited w' ∧ d.Answers h p x.size values answer ∧
      Stateful.run (e.run p x) w = ((answer, x), w') ∧
      Stateful.run (noting.run p x) ([], w) = ((answer, x), visited.map (Visit.mk .loss), w') := by
  obtain ⟨values, visited, w', hsurveyed, hplain, hnoted⟩ :=
    exists_surveyed .loss f (d.points h x) w []
  refine ⟨_, _, values, values.map fun vs => .vector p (d.quotients h vs), visited, w', ?_, ?_,
    hsurveyed, ?_, run_of_survey hx p d h hplain, run_of_survey hx p d h hnoted⟩
  · rw [of?, hh]
    rfl
  · rw [of?, hh]
    rfl
  · cases hsurveyed with
    | complete hvalues => exact .estimate (Difference.isEstimate_vector hvalues.length_eq p)
    | failed => exact .failure _

/-- Central differences of a function whose third evaluation fails, the one that moves the second coordinate
forwards: both coordinates are what they were. -/
theorem run_probes_third_fails :
    let f : Tensor Float → Evaluation (StateT Nat Id) Float := fun x => do
      let n ← getThe Nat
      set (n + 1)
      if n = 2 then throw .noMember else return x.entries.foldl (· + ·) 0.5
    let x : Tensor Float := .vector .double [1.0, 2.0]
    let h : Float := 0.0001
    (Scalar.le h Scalar.zero = false ∧ x.IsKept x.precision) ∧
    Stateful.run (run .double ⟨.central, .ofNumbers f, h⟩ x) (0, ()) = ((.error .noMember, x), 3, ()) ∧
    ∃ (e : Estimator (StateT Nat Id) Float)
        (noting : Estimator (StateT (List (Visit Float)) (StateT Nat Id)) Float)
        (values : Except Failure (List Float)) (answer : Except Failure (Tensor Float))
        (visited : List (Tensor Float)) (w' : Nat × Unit),
      of? .central (.ofNumbers f) h = some e ∧
      of? .central (.ofNumbers (visiting .loss f)) h = some noting ∧
      Surveyed f (0, ()) (Difference.central.points h x) values visited w' ∧
      Difference.central.Answers h .double x.size values answer ∧
      Stateful.run (e.run .double x) (0, ()) = ((answer, x), w') ∧
      Stateful.run (noting.run .double x) ([], 0, ())
        = ((answer, x), visited.map (Visit.mk .loss), w') := by
  intro f x h
  have hh : Scalar.le h Scalar.zero = false := by decide +kernel
  have hx : x.IsKept x.precision := ⟨rfl, rfl⟩
  exact ⟨⟨hh, hx⟩, rfl, run_probes .central f hh .double hx (0, ())⟩

end Estimator

end Minimization
