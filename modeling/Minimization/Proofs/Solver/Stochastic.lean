import Minimization.Proofs.Descent.Evaluations
import Minimization.Proofs.Descent.Projection
import Minimization.Proofs.Random.Publishing
import Minimization.Solver.Basic

/-!
# Stochastic solvers publish one number in every iteration

A stochastic solver draws from its station. If the functions that it evaluates leave the station alone,
and the listeners of the cell store nothing in it, the cell holds the number of an iteration during all
evaluations of that iteration, the trials of a line search included; the loss at the end still sees the
number of the last iteration.

To say so, functions are evaluated that also note what the cell holds when they begin (`noting`). Noting
changes nothing else about a run (`descend_refines`), and `Outcome` says what is noted in it, wherever it
fails. Together with what the station is left with this means that another run goes on with the next
number.
-/

namespace Minimization.Solver

open Minimization.Random

variable {m : Type → Type} [Monad m] {ω : Type} [Stateful m ω] {β : Type}

/-! ## Notes -/

/-- An evaluation, and what the cell held when it began. -/
structure Sighting where
  query : Query
  value : Value

/-- The evaluation also notes what the cell holds when it begins. -/
def noting (q : Query) (c : Evaluation (StateT Station m) β) :
    Evaluation (StateT Station (StateT (List Sighting) m)) β :=
  ExceptT.mk fun s => fun seen => do
    let r ← c.run.run s
    return (r, seen ++ [⟨q, s.cell.value⟩])

/-- Forgets what was noted. -/
def forget (w : Station × List Sighting × ω) : Station × ω := (w.1, w.2.2)

theorem attempt_noting (q : Query) (c : Evaluation (StateT Station m) β)
    (w : Station × List Sighting × ω) :
    attempt (noting q c) w = ((attempt c (forget w)).1, (attempt c (forget w)).2.1,
      w.2.1 ++ [⟨q, w.1.cell.value⟩], (attempt c (forget w)).2.2) := by
  have h : Stateful.run (c.run.run w.1 >>= fun r => pure (r, w.2.1 ++ [⟨q, w.1.cell.value⟩])) w.2.2
      = ((((attempt c (forget w)).1, (attempt c (forget w)).2.1),
        w.2.1 ++ [⟨q, w.1.cell.value⟩]), (attempt c (forget w)).2.2) := by
    rw [Stateful.run_bind, Stateful.run_pure]
    rfl
  exact attempt_of_run (congrArg (fun r => (r.1.1, r.1.2, r.2)) h)

/-- Apart from the notes, the evaluation is the same. -/
theorem noting_refines (q : Query) (c : Evaluation (StateT Station m) β) :
    Refines forget (noting q c) c := by
  intro w
  rw [attempt_noting]
  rfl

/-- Publishing does not look at the notes. -/
theorem publish_refines (b : Behaviour Value) :
    Refines forget
      (discard (Station.publish b) : Evaluation (StateT Station (StateT (List Sighting) m)) Unit)
      (discard (Station.publish b) : Evaluation (StateT Station m) Unit) := by
  intro w
  rw [Station.attempt_publish, Station.attempt_publish]
  rw [show (forget w).1 = w.1 from rfl]
  rcases w.1.generator.integer with e | ⟨n, g⟩
  · rfl
  · rfl

/-- A run with functions that note something is the same run. -/
theorem descend_refines (s : Solver) (p : Precision) (b : Behaviour Value)
    (loss : Rule (StateT Station m) Float) (gradient : Field (StateT Station m) Float)
    (guess : Tensor Float) :
    Refines (Prod.map id forget)
      (s.descend p (discard (Station.publish b)) (fun x => noting .loss (loss x))
        (fun x => noting .gradient (gradient x)) guess)
      (s.descend p (discard (Station.publish b)) loss gradient guess) :=
  descend_projects Run.unnoticed_id (fun _ => noting_refines _ _) (fun _ => noting_refines _ _)
    (publish_refines b) s p guess

/-! ## Numbers -/

/-- Evaluations while the cell holds a number. -/
def sightings (n : Int) (qs : List Query) : List Sighting := qs.map fun q => ⟨q, .int n⟩

/-- What is noted in iterations that publish numbers, one in each: the loss, the gradient, and then
losses. -/
inductive Notes : List Int → List Sighting → Prop
  | none : Notes [] []
  | cons {n ns seen} (trials : Nat) : Notes ns seen →
      Notes (n :: ns) (sightings n (.loss :: .gradient :: List.replicate trials .loss) ++ seen)

/-- The parameters of a stochastic solver cannot be read. -/
def Refuses (s : Solver) (e : Failure) : Prop :=
  (s.kind = .stochasticDescent ∧ (s.parameters.read >>= GradientDescent.settingsOf) = .error e) ∨
  (s.kind = .momentDescent ∧ (s.parameters.read >>= Adam.settingsOf) = .error e)

/-- A run of a stochastic solver that starts with a cell: the numbers that it publishes, what is noted,
how it ends, and the generator that is left. -/
inductive Outcome (s : Solver) (b : Behaviour Value) (c : Cell Value) :
    List Int → List Sighting → Except Failure (Tensor Float) → Report Float → Generator → Prop
  /-- After the iterations, at least one, the loss is evaluated with the last number. -/
  | ended {ns n seen o report g} : Notes (ns ++ [n]) seen →
      report.iterations = (ns ++ [n]).length →
      Outcome s b c (ns ++ [n]) (seen ++ sightings n [.loss]) o report g
  /-- The iteration of the last number fails, after the loss or later. -/
  | broken {ns n seen qs e report g} : Notes ns seen →
      qs = [.loss] ∨ (∃ trials, qs = .loss :: .gradient :: List.replicate trials .loss) →
      Outcome s b c (ns ++ [n]) (seen ++ sightings n qs) (.error e) report g
  /-- A listener fails when it is told of the last number. -/
  | interrupted {ns n seen e report g} : Notes ns seen → ¬c.OnlyListening b →
      Outcome s b c (ns ++ [n]) seen (.error e) report g
  /-- The generator yields no number for another iteration. -/
  | exhausted {ns seen e report g} : Notes ns seen → g.integer = .error e →
      Outcome s b c ns seen (.error e) report g
  /-- The run does not start. -/
  | refused {e report g} : s.Refuses e → Outcome s b c [] [] (.error e) report g

section Publishing

variable {loss : Rule (StateT Station m) Float} {gradient : Field (StateT Station m) Float}
  {b : Behaviour Value} {u v w : Station × List Sighting × ω} (hb : b.StoresNothing)
include hb

/-- The world is prepared by publishing the next number. -/
theorem published_of_attempt
    (h : attempt (discard (Station.publish b) :
      Evaluation (StateT Station (StateT (List Sighting) m)) Unit) u = (.ok (), v)) :
    ∃ n, u.1.Left b [n] v.1 ∧ v.2 = u.2 := by
  rcases hdraw : u.1.generator.integer with e | ⟨n, g⟩
  · rw [Station.attempt_publish, hdraw] at h
    cases h
  · obtain ⟨hleft, hsame, -⟩ :=
      Station.left_publish (m := StateT (List Sighting) m) hb hdraw
    rw [h] at hleft hsame
    exact ⟨n, hleft, hsame⟩

/-- It is not prepared if there is no next number, or if a listener fails that is told of it. -/
theorem failed_of_attempt {e : Failure}
    (h : attempt (discard (Station.publish b) :
      Evaluation (StateT Station (StateT (List Sighting) m)) Unit) u = (.error e, v)) :
    (u.1.generator.integer = .error e ∧ v = u) ∨
      ∃ n, u.1.Left b [n] v.1 ∧ v.2 = u.2 ∧ ¬u.1.cell.OnlyListening b := by
  rcases hdraw : u.1.generator.integer with e' | ⟨n, g⟩
  · rw [Station.attempt_publish, hdraw] at h
    cases h
    exact .inl ⟨rfl, rfl⟩
  · obtain ⟨hleft, hsame, hlistening⟩ :=
      Station.left_publish (m := StateT (List Sighting) m) hb hdraw
    rw [h] at hleft hsame hlistening
    exact .inr ⟨n, hleft, hsame, fun hb' => nomatch hlistening hb'⟩

omit hb

/-- The station is the same in both worlds. -/
def SameStation (u v : Station × ω) : Prop := u.1 = v.1

variable (hl : ∀ x, Keeps SameStation (loss x)) (hg : ∀ x, Keeps SameStation (gradient x))
include hl hg

/-- Evaluations that leave the station alone all see what the cell held before. -/
theorem noted_of_evaluated {qs : List Query} {n : Int} (hn : u.1.cell.value = .int n)
    (h : Evaluated (fun x => noting .loss (loss x)) (fun x => noting .gradient (gradient x)) qs u v) :
    u.1 = v.1 ∧ v.2.1 = u.2.1 ++ sightings n qs := by
  induction h with
  | none => exact ⟨rfl, (List.append_nil _).symm⟩
  | @loss x qs u v _ ih =>
    have hsame : u.1 = (attempt (loss x) (forget u)).2.1 := hl x (forget u)
    rw [attempt_noting] at ih
    obtain ⟨hstation, hseen⟩ := ih (hsame ▸ hn)
    refine ⟨hsame.trans hstation, hseen.trans ?_⟩
    rw [hn, List.append_assoc]
    rfl
  | @gradient x qs u v _ ih =>
    have hsame : u.1 = (attempt (gradient x) (forget u)).2.1 := hg x (forget u)
    rw [attempt_noting] at ih
    obtain ⟨hstation, hseen⟩ := ih (hsame ▸ hn)
    refine ⟨hsame.trans hstation, hseen.trans ?_⟩
    rw [hn, List.append_assoc]
    rfl

include hb

/-- Iterations publish one number each. -/
theorem notes_of_iterations {k : Nat}
    (h : Iterations (discard (Station.publish b)) (fun x => noting .loss (loss x))
      (fun x => noting .gradient (gradient x)) k u v) :
    ∃ ns seen, ns.length = k ∧ Notes ns seen ∧ v.2.1 = u.2.1 ++ seen ∧ u.1.Left b ns v.1 := by
  induction h with
  | @none u => exact ⟨[], [], rfl, .none, (List.append_nil _).symm, .none u.1⟩
  | @cons k u v w hiteration _ ih =>
    obtain ⟨u', trials, hbefore, hevaluated⟩ := hiteration
    obtain ⟨n, hleft, hseen'⟩ := published_of_attempt hb hbefore
    obtain ⟨hsame, hnoted⟩ := noted_of_evaluated hl hg hleft.value_eq hevaluated
    obtain ⟨ns, seen, hlength, hns, hseen, hleft'⟩ := ih
    rw [hsame] at hleft
    refine ⟨n :: ns, _, congrArg (· + 1) hlength, .cons trials hns, ?_, hleft.append hleft'⟩
    rw [hseen, hnoted, hseen', List.append_assoc]

/-- A descent that publishes one number in every iteration. -/
theorem outcome_of_descends (s : Solver) {o : Except Failure (Tensor Float)} {report : Report Float}
    (h : Descends (discard (Station.publish b)) (fun x => noting .loss (loss x))
      (fun x => noting .gradient (gradient x)) u o report w) :
    ∃ ns seen, w.2.1 = u.2.1 ++ seen ∧
      s.Outcome b u.1.cell ns seen o report w.1.generator ∧ u.1.Left b ns w.1 := by
  cases h with
  | @ended k v _ _ _ hk hiterations hloss hreport =>
    obtain ⟨ns, seen, hlength, hns, hseen, hleft⟩ := notes_of_iterations hb hl hg hiterations
    -- There was an iteration, so there is a last number, and the cell still holds it.
    obtain ⟨ns, n, rfl⟩ : ∃ ns' n, ns = ns' ++ [n] := by
      rcases List.eq_nil_or_concat ns with rfl | h
      · rw [← hlength] at hk
        cases hk
      · obtain ⟨ns', n, h⟩ := h
        exact ⟨ns', n, h.trans List.concat_eq_append⟩
    obtain ⟨hsame, hnoted⟩ := noted_of_evaluated hl hg hleft.last_eq hloss
    refine ⟨ns ++ [n], _, ?_, .ended hns (hreport.trans hlength.symm), hsame ▸ hleft⟩
    rw [hnoted, hseen, List.append_assoc]
  | @broken k v e _ _ hiterations hbreaks =>
    obtain ⟨ns, seen, -, hns, hseen, hleft⟩ := notes_of_iterations hb hl hg hiterations
    -- An iteration that fails after its number was published has noted some evaluations.
    have hbroken : ∀ {v' qs}, attempt (discard (Station.publish b) :
          Evaluation (StateT Station (StateT (List Sighting) m)) Unit) v = (.ok (), v') →
        Evaluated (fun x => noting .loss (loss x)) (fun x => noting .gradient (gradient x)) qs v' w →
        qs = [.loss] ∨ (∃ trials, qs = .loss :: .gradient :: List.replicate trials .loss) →
        ∃ ns seen, w.2.1 = u.2.1 ++ seen ∧
          s.Outcome b u.1.cell ns seen (.error e) report w.1.generator ∧ u.1.Left b ns w.1 := by
      intro v' qs hbefore hevaluated hqs
      obtain ⟨n, hleft', hseen'⟩ := published_of_attempt hb hbefore
      obtain ⟨hsame, hnoted⟩ := noted_of_evaluated hl hg hleft'.value_eq hevaluated
      rw [hsame] at hleft'
      refine ⟨ns ++ [n], _, ?_, .broken hns hqs, hleft.append hleft'⟩
      rw [hnoted, hseen', hseen, List.append_assoc]
    cases hbreaks with
    | unprepared hbefore =>
      rcases failed_of_attempt hb hbefore with ⟨hdraw, rfl⟩ | ⟨n, hleft', hseen', hnot⟩
      · exact ⟨ns, seen, hseen, .exhausted hns hdraw, hleft⟩
      · refine ⟨ns ++ [n], seen, hseen' ▸ hseen, ?_, hleft.append hleft'⟩
        exact .interrupted hns fun hlistening => hnot (hleft.onlyListening hlistening)
    | early hbefore hevaluated => exact hbroken hbefore hevaluated (.inl rfl)
    | late hbefore hevaluated => exact hbroken hbefore hevaluated (.inr ⟨_, rfl⟩)

/-- A solver reads its settings and starts a descent with them. -/
theorem outcome_of_settings (s : Solver) {σ : Type} {settingsOf : Parameters → Except Failure σ}
    {run : σ → Descent (StateT Station (StateT (List Sighting) m)) Float (Tensor Float)}
    {w : Run Float × Station × List Sighting × ω}
    (hrefuses : ∀ e, (s.parameters.read >>= settingsOf) = .error e → s.Refuses e)
    (hrun : ∀ settings, let o := attempt (run settings) w
      Descends (discard (Station.publish b)) (fun x => noting .loss (loss x))
        (fun x => noting .gradient (gradient x)) w.2 o.1 o.2.1.report o.2.2) :
    let o := attempt (do
      let ps ← liftM s.parameters.read
      let settings ← liftM (settingsOf ps)
      run settings : Descent (StateT Station (StateT (List Sighting) m)) Float (Tensor Float)) w
    ∃ ns seen, o.2.2.2.1 = w.2.2.1 ++ seen ∧
      s.Outcome b w.2.1.cell ns seen o.1 o.2.1.report o.2.2.1.generator ∧
      w.2.1.Left b ns o.2.2.1 := by
  have hnone : w.2.2.1 = w.2.2.1 ++ [] := (List.append_nil _).symm
  rcases hread : s.parameters.read with e | ps
  · rw [attempt_bind_of_error (attempt_lift _ _)]
    exact ⟨[], [], hnone, .refused (hrefuses e (by rw [hread]; rfl)), .none _⟩
  rw [attempt_bind_of_ok (attempt_lift _ _)]
  rcases hsettings : settingsOf ps with e | settings
  · rw [attempt_bind_of_error (attempt_lift _ _)]
    exact ⟨[], [], hnone, .refused (hrefuses e (by rw [hread]; exact hsettings)), .none _⟩
  rw [attempt_bind_of_ok (attempt_lift _ _)]
  exact outcome_of_descends hb hl hg s (hrun settings)

/-- The numbers and the notes of a run of a stochastic solver. -/
theorem descend_outcome (s : Solver) (hs : s.kind.isStochastic = true) (p : Precision)
    (guess : Tensor Float) (w : Run Float × Station × List Sighting × ω) :
    let o := attempt (s.descend p (discard (Station.publish b)) (fun x => noting .loss (loss x))
      (fun x => noting .gradient (gradient x)) guess) w
    ∃ ns seen, o.2.2.2.1 = w.2.2.1 ++ seen ∧
      s.Outcome b w.2.1.cell ns seen o.1 o.2.1.report o.2.2.1.generator ∧
      w.2.1.Left b ns o.2.2.1 := by
  unfold descend
  cases hkind : s.kind with
  | stochasticDescent =>
    exact outcome_of_settings hb hl hg s (fun e he => .inl ⟨hkind, he⟩)
      (fun settings => GradientDescent.run_descends ⟨_, p, settings, _, _, _⟩ guess w)
  | momentDescent =>
    exact outcome_of_settings hb hl hg s (fun e he => .inr ⟨hkind, he⟩)
      (fun settings => Adam.run_descends ⟨p, settings, _, _, _⟩ guess w)
  | gradientDescent | augmentedLagrangian | logBarrier =>
    rw [hkind] at hs
    cases hs

/-- Every run of a stochastic solver, for functions that leave the station alone and listeners that
store nothing, publishes the next numbers of its generator, one in every iteration. The same run with
functions that also note what they see shows that every evaluation of an iteration sees its number, and
the loss at the end that of the last iteration (`Outcome`). If the listeners only listen, every one of
them has heard the numbers in order, as often as it is registered. What was published before the run and
in it are the first numbers together, so that another run goes on with the next one. -/
theorem descend_publishes (s : Solver) (hs : s.kind.isStochastic = true) (p : Precision)
    (guess : Tensor Float) (w : Run Float × Station × ω) :
    let o := attempt (s.descend p (discard (Station.publish b)) loss gradient guess) w
    ∃ ns seen,
      attempt (s.descend p (discard (Station.publish b)) (fun x => noting .loss (loss x))
          (fun x => noting .gradient (gradient x)) guess) (w.1, w.2.1, [], w.2.2)
        = (o.1, o.2.1, o.2.2.1, seen, o.2.2.2) ∧
      s.Outcome b w.2.1.cell ns seen o.1 o.2.1.report o.2.2.1.generator ∧
      w.2.1.generator.Yields ns o.2.2.1.generator ∧
      (w.2.1.cell.OnlyListening b → ∀ l ∈ w.2.1.cell.listeners,
        o.2.2.1.cell.heard l = w.2.1.cell.heard l
          ++ ns.flatMap fun n => List.replicate (w.2.1.cell.listeners.count l) (.int n)) ∧
      ∀ (first : Station) (earlier : List Int), first.Left b earlier w.2.1 →
        first.Left b (earlier ++ ns) o.2.2.1 := by
  intro o
  obtain ⟨ns, seen, hseen, houtcome, hleft⟩ :=
    descend_outcome hb hl hg s hs p guess (w.1, w.2.1, [], w.2.2)
  have hrefines := descend_refines s p b loss gradient guess (w.1, w.2.1, [], w.2.2)
  dsimp only at hseen houtcome hleft
  generalize attempt (s.descend p (discard (Station.publish b)) (fun x => noting .loss (loss x))
    (fun x => noting .gradient (gradient x)) guess) (w.1, w.2.1, [], w.2.2) = o'
    at hseen houtcome hleft hrefines ⊢
  have ho : o = Prod.map id (Prod.map id forget) o' := hrefines.symm
  rw [ho]
  obtain ⟨answer, run, station, notes, world⟩ := o'
  obtain rfl : notes = seen := hseen
  refine ⟨ns, notes, rfl, houtcome, hleft.drawn, fun hlistening l _ => ?_,
    fun first earlier h => h.append hleft⟩
  show station.cell.heard l = _
  rw [hleft.cell_eq hlistening, Cell.heard_toldAll, List.flatMap_map]

end Publishing

/-- A descent for a loss that is the published number itself, with one listener. -/
theorem descend_publishes_number :
    let s : Solver := .ofKind .stochasticDescent none none
    let b : Behaviour Value := fun _ _ _ _ => []
    let loss : Rule (StateT Station Id) Float := fun _ =>
      ExceptT.mk fun st => (.ok (.ofValue st.cell.value), st)
    let gradient : Field (StateT Station Id) Float := fun x => pure x
    let guess : Tensor Float := .vector .double [1.0, -2.0]
    let station : Station := ⟨.unseeded, (Cell.holding .null).register "listener"⟩
    let w : Run Float × Station × Unit := (⟨⟨0.0, 0.0, 0⟩, none, []⟩, station, ())
    let o := attempt (s.descend .double (discard (Station.publish b)) loss gradient guess) w
    (b.StoresNothing ∧ (∀ x, Keeps SameStation (loss x)) ∧ (∀ x, Keeps SameStation (gradient x)) ∧
      s.kind.isStochastic = true) ∧
    ∃ ns seen, s.Outcome b station.cell ns seen o.1 o.2.1.report o.2.2.1.generator ∧
      Generator.unseeded.Yields ns o.2.2.1.generator ∧
      o.2.2.1.cell.heard "listener" = ns.map .int := by
  intro s b loss gradient guess station w o
  have hb : b.StoresNothing := fun _ _ _ _ _ => List.not_mem_nil
  have hl : ∀ x, Keeps SameStation (loss x) := fun _ _ => rfl
  have hg : ∀ x, Keeps SameStation (gradient x) := fun _ _ => rfl
  obtain ⟨ns, seen, -, houtcome, hyields, hheard, -⟩ :=
    descend_publishes hb hl hg s rfl .double guess w
  refine ⟨⟨hb, hl, hg, rfl⟩, ns, seen, houtcome, hyields, ?_⟩
  have hcount : station.cell.listeners.count "listener" = 1 := by decide
  have h := hheard (fun _ _ _ _ _ => rfl) "listener" (by decide)
  rw [hcount] at h
  exact h.trans (List.map_eq_flatMap ..).symm

end Minimization.Solver
