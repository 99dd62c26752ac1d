import Minimization.Constrained.Barrier
import Minimization.Constrained.Multipliers
import Minimization.Proofs.Constrained.Scheme
import Minimization.Proofs.Descent.Desk
import Minimization.Proofs.Problem.Evaluations

/-!
# Constrained runs with arrays on a desk

The objectives that stand for a constrained problem compute their gradients in place: the array that the
gradient of the objective answers, which others may hold, is copied, and the terms of the constraints are
added to the copy. A constrained run hands its inner descents the place of its own point, which they copy
again. So here, too, what is on the desk before a run is what it was when the run fails
(`AugmentedLagrangian.minimizeAt_simulates`, `LogBarrier.minimizeAt_simulates`).

Structure: a sum has a place of its own, in which it grows (`Sums`), so that one lemma about adding a term
in place serves both objectives (`combineAt_simulates`). With that the gradients that an inner descent is
handed answer places (`Answers`), and the descents on a desk are those of `Descent.Desk`. A state on a desk
is a place with the numbers beside it; `Holds` says that the place is not one of the caller's.
-/

namespace Minimization

open Placing

variable {m : Type → Type} [Monad m] {ω : Type} [Stateful m ω] {α : Type} [Scalar α]
  {k : Manners α} {kept base : List (Tensor α)}

/-! ## Gradients -/

namespace Problem

/-- Combines the array in a place with one that is made from another. -/
def combineAt (combine : Tensor α → Tensor α → Except Failure (Tensor α)) (acc other : Nat)
    (term : Tensor α → Tensor α) : Placing (Tensor α) m Unit := do
  let made ← put (term (← look other))
  let t ← look made
  rework acc (combine · t)

/-- Adds the terms of constraints to the array in a place. -/
def addPenaltyGradientsAt (k : Manners α) (weight : α) (x acc : Nat) :
    List (α × ScalarFunction m α × VectorFunction m α) → Placing (Tensor α) m Unit
  | [] => pure ()
  | (multiplier, g, dg) :: rest => do
    let gx ← k.hand x g.evaluate
    let w := multiplier + Scalar.two * weight * Scalar.positivePart gx
    if Scalar.same w Scalar.zero then addPenaltyGradientsAt k weight x acc rest
    else do
      let dgx ← k.answer x dg.evaluate
      combineAt Tensor.addInto acc dgx fun t => (t.convert .double).scale w
      addPenaltyGradientsAt k weight x acc rest

/-- The gradient of the augmented objective. -/
def augmentedGradientAt (q : Precision) (p : Problem m α) (k : Manners α) (multipliers : List α)
    (weight : α) (x : Nat) : Placing (Tensor α) m Nat := do
  let dfx ← k.answer x p.gradient.evaluate
  let acc ← put ((← look dfx).convert q)
  addPenaltyGradientsAt k weight x acc (multipliers.zip p.constraintPairs)
  return acc

/-- Adds the terms of constraints to the gradient of the barrier in a place. -/
def addBarrierGradientsAt (q : Precision) (k : Manners α) (weight : α) (x acc : Nat) :
    List (ScalarFunction m α × VectorFunction m α) → Placing (Tensor α) m Unit
  | [] => pure ()
  | (g, dg) :: rest => do
    let gx ← k.hand x g.evaluate
    let dgx ← k.answer x dg.evaluate
    let direction ← put ((← look dgx).convert q)
    rework direction (·.normalizeAbove Tensor.negligible)
    if Scalar.lt gx Scalar.zero then do
      let w ← Scalar.divide weight gx
      combineAt Tensor.subInto acc direction fun t => t.scale w
      addBarrierGradientsAt q k weight x acc rest
    else do
      combineAt Tensor.addInto acc direction fun t => t.scale (Scalar.one + gx)
      addBarrierGradientsAt q k weight x acc rest

/-- The gradient of the barrier objective. -/
def barrierGradientAt (q : Precision) (p : Problem m α) (k : Manners α) (weight : α) (x : Nat) :
    Placing (Tensor α) m Nat := do
  let dfx ← k.answer x p.gradient.evaluate
  let direction ← put ((← look dfx).convert q)
  rework direction (·.normalizeAbove Tensor.negligible)
  addBarrierGradientsAt q k weight x direction p.constraintPairs
  return direction

/-- The gradient that is being summed up on a desk, in front of which nothing has changed. -/
def Sums (base : List (Tensor α)) (acc : Nat) (later : List (Tensor α)) (_ : Unit) (sum : Tensor α) : Prop :=
  base <+: later ∧ base.length ≤ acc ∧ later[acc]? = some sum

omit [Scalar α] in
/-- A sum in a place of its own goes on as the sum does, and stays apart from what was on the desk. -/
theorem combineAt_simulates {desk : List (Tensor α)} {acc other : Nat} {sum t : Tensor α}
    (hkept : kept <+: base) (h : Sums base acc desk () sum) (hother : desk[other]? = some t)
    (combine : Tensor α → Tensor α → Except Failure (Tensor α)) (term : Tensor α → Tensor α) :
    Simulates (m := m) kept desk (combineAt combine acc other term) (liftM (combine sum (term t)))
      (Sums base acc) := by
  obtain ⟨hbase, hnew, hacc⟩ := h
  refine .look_bind hother (.put_bind (.look_bind List.getElem?_concat_length ?_))
  have hmade : desk <+: desk ++ [term t] := List.prefix_append ..
  refine (Simulates.rework ((hkept.trans hbase).trans hmade) (getElem?_later hacc hmade)
    (combine · (term t))).mono ?_
  rintro later _ sum' rfl
  exact ⟨prefix_modify (hbase.trans hmade) hnew _, hnew,
    getElem?_modify_self (getElem?_later hacc hmade) sum'⟩

/-- The penalty gradients are added up in one place, term by term, by induction over the constraints. -/
theorem addPenaltyGradientsAt_simulates (hkept : kept <+: base) {x acc : Nat} {t : Tensor α} (weight : α)
    (hown : kept.length ≤ x) (hx : base[x]? = some t)
    (rest : List (α × ScalarFunction m α × VectorFunction m α)) :
    ∀ {desk sum}, Sums base acc desk () sum →
      Simulates kept desk (addPenaltyGradientsAt k weight x acc rest) (addPenaltyGradients weight t sum rest)
        (Sums base acc) := by
  induction rest with
  | nil => exact fun h => .pure h
  | cons c rest ih =>
    obtain ⟨multiplier, g, dg⟩ := c
    intro desk sum h
    have hkept' := hkept.trans h.1
    have hx' := getElem?_later hx h.1
    unfold addPenaltyGradientsAt addPenaltyGradients
    refine .hand_bind (c := g.evaluate) hkept' hown hx' fun gx => ?_
    dsimp only
    split
    · exact ih h
    refine .bind (.answer hkept' hown hx' dg.evaluate) ?_
    rintro later dgx' dgx ⟨hlater, hdgx⟩
    have h' : Sums base acc later () sum := ⟨h.1.trans hlater, h.2.1, getElem?_later h.2.2 hlater⟩
    exact .bind (combineAt_simulates hkept h' hdgx _ _) fun _ _ _ => ih

theorem augmentedGradientAt_simulates (hkept : kept <+: base) {x : Nat} {t : Tensor α}
    (hown : kept.length ≤ x) (hx : base[x]? = some t) (q : Precision) (p : Problem m α)
    (multipliers : List α) (weight : α) :
    Simulates kept base (p.augmentedGradientAt q k multipliers weight x)
      (p.augmentedGradient q multipliers weight t) (Finds base) := by
  refine .bind (.answer hkept hown hx p.gradient.evaluate) ?_
  rintro desk dfx' dfx ⟨hbase, hdfx⟩
  refine .look_bind hdfx (.put_bind ?_)
  have hcopy : Sums base desk.length (desk ++ [dfx.convert q]) () (dfx.convert q) :=
    ⟨hbase.trans (List.prefix_append ..), hbase.length_le, List.getElem?_concat_length⟩
  exact .bind_pure (addPenaltyGradientsAt_simulates hkept weight hown hx _ hcopy)
    fun _ _ _ h => ⟨h.1, h.2.2⟩

/-- So are the barrier gradients. -/
theorem addBarrierGradientsAt_simulates (hkept : kept <+: base) {x acc : Nat} {t : Tensor α} (weight : α)
    (q : Precision) (hown : kept.length ≤ x) (hx : base[x]? = some t)
    (rest : List (ScalarFunction m α × VectorFunction m α)) :
    ∀ {desk sum}, Sums base acc desk () sum →
      Simulates kept desk (addBarrierGradientsAt q k weight x acc rest)
        (addBarrierGradients q weight t sum rest) (Sums base acc) := by
  -- By induction on the constraints: the sum has its own place, and every gradient is read into a new one.
  induction rest with
  | nil => exact fun h => .pure h
  | cons c rest ih =>
    obtain ⟨g, dg⟩ := c
    intro desk sum h
    have hkept' := hkept.trans h.1
    have hx' := getElem?_later hx h.1
    unfold addBarrierGradientsAt addBarrierGradients
    refine .hand_bind (c := g.evaluate) hkept' hown hx' fun gx => ?_
    refine .bind (.answer hkept' hown hx' dg.evaluate) ?_
    rintro later dgx' dgx ⟨hlater, hdgx⟩
    refine .look_bind hdgx (.put_bind ?_)
    have hcopy := hlater.trans (List.prefix_append later [dgx.convert q])
    refine .rework_bind (hkept'.trans hcopy) List.getElem?_concat_length fun direction => ?_
    rw [modify_concat]
    -- The copy is reworked where it is, so the places before it hold what they held.
    have hmade : desk <+: later ++ [direction] := hlater.trans (List.prefix_append ..)
    have hdirection : (later ++ [direction])[later.length]? = some direction := List.getElem?_concat_length
    have h' : Sums base acc (later ++ [direction]) () sum :=
      ⟨h.1.trans hmade, h.2.1, getElem?_later h.2.2 hmade⟩
    split
    · refine .bind_lift (hkept'.trans hmade) fun w _ => ?_
      exact .bind (combineAt_simulates hkept h' hdirection _ _) fun _ _ _ => ih
    · exact .bind (combineAt_simulates hkept h' hdirection _ _) fun _ _ _ => ih

theorem barrierGradientAt_simulates (hkept : kept <+: base) {x : Nat} {t : Tensor α}
    (hown : kept.length ≤ x) (hx : base[x]? = some t) (q : Precision) (p : Problem m α) (weight : α) :
    Simulates kept base (p.barrierGradientAt q k weight x) (p.barrierGradient q weight t) (Finds base) := by
  refine .bind (.answer hkept hown hx p.gradient.evaluate) ?_
  rintro desk dfx' dfx ⟨hbase, hdfx⟩
  refine .look_bind hdfx (.put_bind ?_)
  have hcopy := hbase.trans (List.prefix_append desk [dfx.convert q])
  refine .rework_bind (hkept.trans hcopy) List.getElem?_concat_length fun direction => ?_
  rw [modify_concat]
  have hdirection : Sums base desk.length (desk ++ [direction]) () direction :=
    ⟨hbase.trans (List.prefix_append ..), hbase.length_le, List.getElem?_concat_length⟩
  exact .bind_pure (addBarrierGradientsAt_simulates hkept weight q hown hx _ hdirection)
    fun _ _ _ h => ⟨h.1, h.2.2⟩

end Problem

/-! ## Parts of a run -/

/-- An inner descent on the desk of the run. -/
def Constrained.descendAt {β : Type} (d : Placing (Tensor α) (StateT (Run α) m) β) :
    Placing (Tensor α) (StateT (Course α) m) β := do
  let desk ← getThe (List (Tensor α))
  let start := (← beside (getThe (Course α))).innerRun
  let inner : Constrained m α _ := ExceptT.lift (StateT.lift ((d.run.run desk).run start))
  let ((r, desk), run) ← beside inner
  set desk
  beside (Constrained.absorb r run)

/-- What an inner descent on a desk leaves: its arrays behind the others, and its records as ever. -/
theorem attempt_descendAt {β : Type} (d : Placing (Tensor α) (StateT (Run α) m) β) (desk : List (Tensor α))
    (w : Course α × ω) :
    attempt (Constrained.descendAt d) (desk, w) =
      match attempt d (desk, w.1.innerRun, w.2) with
      | (.ok b, later, r, v) => (.ok b, later, w.1.addRun r, v)
      | (.error e, later, r, v) =>
        (.error e, later, { w.1 with notices := w.1.notices ++ r.notices }, v) := by
  have hcourse : attempt (beside (getThe (Course α)) : Placing (Tensor α) (StateT (Course α) m) _) (desk, w)
      = (.ok w.1, desk, w) := by
    rw [Placing.beside, attempt_beside, attempt_getThe]
  unfold Constrained.descendAt
  rw [attempt_bind_of_ok (attempt_getThe _), attempt_bind_of_ok hcourse]
  have hinner : attempt (beside (ExceptT.lift (StateT.lift ((d.run.run desk).run w.1.innerRun)) :
      Constrained m α _) : Placing (Tensor α) (StateT (Course α) m) _) (desk, w) = _ := attempt_beside _ _
  rw [attempt_lift_lift] at hinner
  rw [attempt_bind_of_ok hinner, attempt_bind_of_ok (attempt_set _ _), Placing.beside, attempt_beside]
  rw [show attempt d (desk, w.1.innerRun, w.2)
    = ((Stateful.run ((d.run.run desk).run w.1.innerRun) w.2).1.1.1,
      (Stateful.run ((d.run.run desk).run w.1.innerRun) w.2).1.1.2,
      (Stateful.run ((d.run.run desk).run w.1.innerRun) w.2).1.2,
      (Stateful.run ((d.run.run desk).run w.1.innerRun) w.2).2) from rfl]
  rcases Stateful.run ((d.run.run desk).run w.1.innerRun) w.2 with ⟨⟨⟨e | b, later⟩, r⟩, v⟩
  · rw [attempt_absorb_error]
  · rw [attempt_absorb_ok]

theorem Simulates.descendAt {β γ : Type} {desk : List (Tensor α)}
    {d' : Placing (Tensor α) (StateT (Run α) m) γ} {d : Descent m α β}
    {Q : List (Tensor α) → γ → β → Prop} (h : Simulates kept desk d' d Q) :
    Simulates kept desk (Constrained.descendAt d') (Constrained.descend d) Q := by
  refine .intro (fun {w b v} hc => ?_) fun {w e v} hc => ?_
  · rw [attempt_descend] at hc
    rcases hd : attempt d (w.1.innerRun, w.2) with ⟨e | b₀, r, u⟩
    all_goals rw [hd] at hc
    · cases hc
    · obtain ⟨later, b', hd', hQ⟩ := h.of_ok hd
      obtain ⟨rfl, rfl⟩ : b₀ = b ∧ (w.1.addRun r, u) = v := by simpa using hc
      exact ⟨later, b', by rw [attempt_descendAt, hd'], hQ⟩
  · rw [attempt_descend] at hc
    rcases hd : attempt d (w.1.innerRun, w.2) with ⟨e₀ | b, r, u⟩
    all_goals rw [hd] at hc
    · obtain ⟨later, hd', hlater⟩ := h.of_error hd
      obtain ⟨rfl, rfl⟩ : e₀ = e ∧ ({ w.1 with notices := w.1.notices ++ r.notices }, u) = v := by
        simpa using hc
      exact ⟨later, by rw [attempt_descendAt, hd'], hlater⟩
    · cases hc

/-- The end of a round does not depend on how the next state is held. -/
theorem Simulates.settle {σ τ : Type} {desk : List (Tensor α)} (hkept : kept <+: desk)
    (tolerance : Tolerance α) (x y : Tensor α) (asked : α → α) (notice : α → α → Notice α) (next' : τ)
    (next : σ) :
    Simulates kept desk (Placing.beside (Constrained.settle (m := m) tolerance x y asked notice next'))
      (Constrained.settle tolerance x y asked notice next)
      fun later r' r => later = desk ∧ r'.1 = next' ∧ r.1 = next ∧ r'.2 = r.2 := by
  -- The state is handed on as it is; the other parts of the end of a round do not see it.
  have hsettle (w : Course α × ω) :
      attempt (Constrained.settle (m := m) tolerance x y asked notice next') w =
        ((attempt (Constrained.settle (m := m) tolerance x y asked notice next) w).1.map fun r => (next', r.2),
          (attempt (Constrained.settle (m := m) tolerance x y asked notice next) w).2) := by
    unfold Constrained.settle
    split
    · rw [attempt_pure, attempt_pure]
      rfl
    · rw [attempt_bind, attempt_bind, attempt_lift]
      rcases y.dist x with e | moved
      · rfl
      dsimp only
      rw [attempt_bind, attempt_bind, attempt_lift]
      rcases Constrained.within _ moved (asked moved) with e | within
      · rfl
      rcases within with _ | t
      · dsimp only
        rw [attempt_pure, attempt_pure]
        rfl
      · dsimp only
        rw [attempt_bind_of_ok (attempt_constrained_notify _ w),
          attempt_bind_of_ok (attempt_constrained_notify _ w), attempt_pure, attempt_pure]
        rfl
  refine .intro (fun {w r v} hc => ?_) fun {w e v} hc => ?_
  · refine ⟨desk, (next', r.2), ?_, rfl, rfl, (Constrained.attempt_settle_ok hc).1.symm, rfl⟩
    rw [Placing.beside, attempt_beside, hsettle, hc]
    rfl
  · refine ⟨desk, ?_, hkept⟩
    rw [Placing.beside, attempt_beside, hsettle, hc]
    rfl

/-! ## The method of multipliers -/

namespace AugmentedLagrangian

/-- A state whose point is on a desk. -/
structure StateAt (α : Type) where
  point : Nat
  multipliers : List α
  weight : α

/-- The inner descent of a state on a desk. -/
def Setup.descentAt (s : Setup m α) (k : Manners α) (objective : ScalarFunction m α) (p : StateAt α) :
    Placing (Tensor α) (StateT (Run α) m) Nat := do
  let gradient ← objective.gradient
  let settings ← s.settings.inner
  let field : Field m α :=
    match gradient with
    | some g => g.evaluate
    | none => fun _ => throw .wrongType
  GradientDescent.runAt
    ⟨"GradientDescent", s.precision, settings, objective.asRule, field, pure ()⟩ k
    (s.problem.augmentedGradientAt s.precision k (Tensor.vector .double p.multipliers).entries p.weight)
    p.point

/-- A round on a desk. -/
def roundAt (s : Setup m α) (k : Manners α) (number : Nat) (p : StateAt α) :
    Placing (Tensor α) (StateT (Course α) m) (StateAt α × Bool) := do
  let st : State α := ⟨← look p.point, p.multipliers, p.weight⟩
  let objective ← s.objective st
  k.hand p.point fun x => Constrained.snapshot (s.snapshot st objective x)
  let y ← Constrained.descendAt (s.descentAt k objective p)
  k.hand y fun x => Constrained.snapshot (s.snapshot st objective x)
  let gx ← k.hand y fun x => Constrained.evaluate (s.problem.constraintValues x)
  let multipliers := raised p.multipliers p.weight gx
  let fx ← k.hand y fun x => Constrained.evaluate (s.problem.objective.evaluate x)
  let violation := Problem.violationOf gx
  beside (Constrained.notify (.multiplierRound number fx violation p.weight))
  let next : StateAt α := ⟨y, multipliers, p.weight * s.settings.growth⟩
  beside (Constrained.settle s.settings.tolerance (← look p.point) (← look y) (fun _ => violation)
    (fun moved => .multipliersSettled number moved violation) next)

/-- A run on a desk, which begins with a copy of the initial guess. -/
def runAt (s : Setup m α) (k : Manners α) (guess : Nat) : Placing (Tensor α) (StateT (Course α) m) Nat := do
  let zeros := s.problem.constraints.map fun _ => Scalar.zero
  let x ← put ((← look guess).convert s.precision)
  let (made, p) ← Constrained.rounds (roundAt s k) s.settings.maxRounds.toNat 0
    ⟨x, zeros, s.settings.initialWeight⟩
  beside (Constrained.conclude ⟨p.multipliers, p.weight, made⟩)
  return p.point

/-- Minimizes a problem from an initial guess on a desk. -/
def minimizeAt (q : Precision) (p : Problem m α) (settings : Except Failure (Settings α)) (k : Manners α)
    (guess : Nat) : Placing (Tensor α) (StateT (Course α) m) Nat := do
  checkStart p (← look guess)
  runAt ⟨q, p, ← settings⟩ k guess

/-- A state on a desk is a state whose point is there, in a place of the run's own. -/
def Holds (kept desk : List (Tensor α)) (p : StateAt α) (st : State α) : Prop :=
  kept <+: desk ∧ kept.length ≤ p.point ∧ desk[p.point]? = some st.point ∧
    p.multipliers = st.multipliers ∧ p.weight = st.weight

variable {s : Setup m α} {desk : List (Tensor α)} {p : StateAt α} {st : State α}

theorem descentAt_simulates {objective : ScalarFunction m α} (hobjective : s.objective st = .ok objective)
    (h : Holds kept desk p st) :
    Simulates kept desk (s.descentAt k objective p) (s.descent objective st.point)
      fun later y' y => Finds desk later y' y ∧ kept.length ≤ y' := by
  obtain ⟨hkept, hown, hx, hmultipliers, hweight⟩ := h
  refine .bind_lift hkept fun gradient hgradient => .bind_lift hkept fun settings _ => ?_
  obtain rfl := Except.ok.inj ((Problem.gradient_augmented hobjective).symm.trans hgradient)
  refine GradientDescent.runAt_simulates (fun hkept hown hx => ?_) hkept hx
  rw [hmultipliers, hweight]
  exact (Problem.augmentedGradientAt_simulates hkept hown hx _ _ _ _).congr
    (Problem.attempt_evaluate_field _ _)

/-- A round on a desk goes from a place that holds its point to another one, which is not its caller's. -/
theorem roundAt_simulates (h : Holds kept desk p st) (number : Nat) :
    Simulates kept desk (roundAt s k number p) (round s number st)
      fun later r' r => Holds kept later r'.1 r.1 ∧ r'.2 = r.2 := by
  obtain ⟨hkept, hown, hx, hmultipliers, hweight⟩ := id h
  obtain ⟨x, multipliers, weight⟩ := st
  obtain ⟨place, _, _⟩ := p
  obtain rfl : _ = multipliers := hmultipliers
  obtain rfl : _ = weight := hweight
  refine .look_bind hx (.bind_lift hkept fun objective hobjective => ?_)
  refine .hand_bind (c := fun x => Constrained.snapshot (s.snapshot _ objective x)) hkept hown hx fun _ => ?_
  refine .bind (.descendAt (descentAt_simulates hobjective h)) ?_
  rintro later y' y ⟨⟨hlater, hy⟩, hown'⟩
  have hkept' := hkept.trans hlater
  refine .hand_bind (c := fun x => Constrained.snapshot (s.snapshot _ objective x)) hkept' hown' hy fun _ => ?_
  refine .hand_bind (c := fun x => Constrained.evaluate (s.problem.constraintValues x)) hkept' hown' hy
    fun gx => ?_
  refine .hand_bind (c := fun x => Constrained.evaluate (s.problem.objective.evaluate x)) hkept' hown' hy
    fun fx => ?_
  refine .beside_bind hkept' fun _ => .look_bind (getElem?_later hx hlater) (.look_bind hy ?_)
  refine (Simulates.settle hkept' _ _ _ _ _ _ _).mono ?_
  rintro _ ⟨_, _⟩ ⟨_, _⟩ ⟨rfl, rfl, rfl, rfl⟩
  exact ⟨⟨hkept', hown', hy, rfl, rfl⟩, rfl⟩

/-- A run on a desk does what it does with the arrays themselves, and leaves those that were there. -/
theorem runAt_simulates (hkept : kept <+: desk) {guess : Nat} {t : Tensor α} (h : desk[guess]? = some t) :
    Simulates kept desk (runAt s k guess) (run s t)
      fun later y' y => kept <+: later ∧ later[y']? = some y := by
  have hstart : Holds kept (desk ++ [t.convert s.precision])
      ⟨desk.length, s.problem.constraints.map fun _ => Scalar.zero, s.settings.initialWeight⟩
      ⟨t.convert s.precision, s.problem.constraints.map fun _ => Scalar.zero,
        s.settings.initialWeight⟩ :=
    ⟨hkept.trans (List.prefix_append ..), hkept.length_le, List.getElem?_concat_length, rfl, rfl⟩
  have hrounds := Simulates.rounds (J := Holds kept)
    (fun number h => roundAt_simulates (s := s) (k := k) h number) s.settings.maxRounds.toNat hstart 0
  unfold runAt run
  refine .look_bind h (.put_bind (.bind hrounds ?_))
  rintro later ⟨made, p⟩ ⟨made', st⟩ ⟨hmade, hkept', -, hy, hmultipliers, hweight⟩
  obtain rfl : made = made' := hmade
  dsimp only at hmultipliers hweight hy ⊢
  rw [hmultipliers, hweight]
  exact .beside_bind hkept' fun _ => .pure ⟨hkept', hy⟩

/-- The point that a run on a desk returns is in a place of its own, so the initial guess is still there. -/
theorem minimizeAt_simulates (hkept : kept <+: desk) {guess : Nat} {t : Tensor α}
    (h : desk[guess]? = some t) (q : Precision) (p : Problem m α) (settings : Except Failure (Settings α)) :
    Simulates kept desk (minimizeAt q p settings k guess) (minimize q p settings t)
      fun later y' y => kept <+: later ∧ later[y']? = some y :=
  .look_bind h (.bind_lift hkept fun _ _ => .bind_lift hkept fun _ _ => runAt_simulates hkept h)

end AugmentedLagrangian

/-! ## The barrier method -/

namespace LogBarrier

/-- A state whose point is on a desk. -/
structure StateAt (α : Type) where
  point : Nat
  weight : α
  told : Bool

/-- The inner descent of a state on a desk. -/
def Setup.descentAt (s : Setup m α) (k : Manners α) (p : StateAt α) :
    Placing (Tensor α) (StateT (Run α) m) Nat := do
  let settings ← s.settings.inner
  GradientDescent.runAt
    ⟨"GradientDescent", s.precision, settings, (s.problem.barrier s.precision p.weight).asRule,
      s.problem.barrierGradient s.precision p.weight, pure ()⟩ k
    (s.problem.barrierGradientAt s.precision k p.weight) p.point

/-- A round on a desk. -/
def roundAt (s : Setup m α) (k : Manners α) (number : Nat) (p : StateAt α) :
    Placing (Tensor α) (StateT (Course α) m) (StateAt α × Bool) := do
  let y ← Constrained.descendAt (s.descentAt k p)
  k.hand y fun x => Constrained.snapshot (s.snapshot p.weight x)
  let told ← k.hand y fun x => s.tellInfeasible (some number) p.told x
  let fx ← k.hand y fun x => Constrained.evaluate (s.problem.objective.evaluate x)
  beside (Constrained.notify (.barrierRound number fx p.weight))
  let next : StateAt α := ⟨y, p.weight * s.settings.decay, told⟩
  beside (Constrained.settle s.settings.tolerance (← look p.point) (← look y) id
    (.barrierSettled number) next)

/-- A run on a desk, which begins with a copy of the initial guess. -/
def runAt (s : Setup m α) (k : Manners α) (guess : Nat) : Placing (Tensor α) (StateT (Course α) m) Nat := do
  let x ← put ((← look guess).convert s.precision)
  let told ← k.hand x fun x => s.tellInfeasible none false x
  k.hand x fun x => Constrained.snapshot (s.snapshot s.settings.initialWeight x)
  let (made, p) ← Constrained.rounds (roundAt s k) s.settings.maxRounds.toNat 0
    ⟨x, s.settings.initialWeight, told⟩
  beside (Constrained.conclude ⟨[], p.weight, made⟩)
  return p.point

/-- Minimizes a problem from an initial guess on a desk. -/
def minimizeAt (q : Precision) (p : Problem m α) (settings : Except Failure (Settings α)) (k : Manners α)
    (guess : Nat) : Placing (Tensor α) (StateT (Course α) m) Nat := do
  checkStart p (← look guess)
  runAt ⟨q, p, ← settings⟩ k guess

/-- A state on a desk is a state whose point is there, in a place of the run's own. -/
def Holds (kept desk : List (Tensor α)) (p : StateAt α) (st : State α) : Prop :=
  kept <+: desk ∧ kept.length ≤ p.point ∧ desk[p.point]? = some st.point ∧ p.weight = st.weight ∧
    p.told = st.told

variable {s : Setup m α} {desk : List (Tensor α)} {p : StateAt α} {st : State α}

theorem descentAt_simulates (h : Holds kept desk p st) :
    Simulates kept desk (s.descentAt k p) (s.descent st.weight st.point)
      fun later y' y => Finds desk later y' y ∧ kept.length ≤ y' := by
  obtain ⟨hkept, -, hx, hweight, -⟩ := h
  unfold Setup.descentAt Setup.descent
  rw [hweight]
  exact .bind_lift hkept fun settings _ => GradientDescent.runAt_simulates
    (fun hkept hown hx => Problem.barrierGradientAt_simulates hkept hown hx _ _ _) hkept hx

/-- A round on a desk goes from a place that holds its point to another one, which is not its caller's. -/
theorem roundAt_simulates (h : Holds kept desk p st) (number : Nat) :
    Simulates kept desk (roundAt s k number p) (round s number st)
      fun later r' r => Holds kept later r'.1 r.1 ∧ r'.2 = r.2 := by
  obtain ⟨hkept, hown, hx, hweight, htold⟩ := id h
  obtain ⟨x, weight, told⟩ := st
  obtain ⟨place, _, _⟩ := p
  obtain rfl : _ = weight := hweight
  obtain rfl : _ = told := htold
  refine .bind (.descendAt (descentAt_simulates h)) ?_
  rintro later y' y ⟨⟨hlater, hy⟩, hown'⟩
  have hkept' := hkept.trans hlater
  refine .hand_bind (c := fun x => Constrained.snapshot (s.snapshot _ x)) hkept' hown' hy fun _ => ?_
  refine .hand_bind (c := fun x => s.tellInfeasible (some number) _ x) hkept' hown' hy fun told => ?_
  refine .hand_bind (c := fun x => Constrained.evaluate (s.problem.objective.evaluate x)) hkept' hown' hy
    fun fx => ?_
  refine .beside_bind hkept' fun _ => .look_bind (getElem?_later hx hlater) (.look_bind hy ?_)
  refine (Simulates.settle hkept' _ _ _ _ _ _ _).mono ?_
  rintro _ ⟨_, _⟩ ⟨_, _⟩ ⟨rfl, rfl, rfl, rfl⟩
  exact ⟨⟨hkept', hown', hy, rfl, rfl⟩, rfl⟩

/-- A run on a desk does what it does with the arrays themselves, and leaves those that were there. -/
theorem runAt_simulates (hkept : kept <+: desk) {guess : Nat} {t : Tensor α} (h : desk[guess]? = some t) :
    Simulates kept desk (runAt s k guess) (run s t)
      fun later y' y => kept <+: later ∧ later[y']? = some y := by
  unfold runAt run
  dsimp only
  refine .look_bind h (.put_bind ?_)
  have hcopy : kept <+: desk ++ [t.convert s.precision] := hkept.trans (List.prefix_append ..)
  have hx : (desk ++ [t.convert s.precision])[desk.length]? = some (t.convert s.precision) :=
    List.getElem?_concat_length
  refine .hand_bind (c := fun x => s.tellInfeasible none false x) hcopy hkept.length_le hx fun told => ?_
  refine .hand_bind (c := fun x => Constrained.snapshot (s.snapshot s.settings.initialWeight x)) hcopy
    hkept.length_le hx fun _ => ?_
  have hrounds := Simulates.rounds (J := Holds kept)
    (fun number h => roundAt_simulates (s := s) (k := k) h number) s.settings.maxRounds.toNat
    (show Holds kept (desk ++ [t.convert s.precision]) ⟨desk.length, s.settings.initialWeight, told⟩
      ⟨t.convert s.precision, s.settings.initialWeight, told⟩ from
      ⟨hcopy, hkept.length_le, hx, rfl, rfl⟩) 0
  refine .bind hrounds ?_
  rintro later ⟨made, p⟩ ⟨made', st⟩ ⟨hmade, hkept', -, hy, hweight, -⟩
  obtain rfl : made = made' := hmade
  dsimp only at hweight hy ⊢
  rw [hweight]
  exact .beside_bind hkept' fun _ => .pure ⟨hkept', hy⟩

theorem minimizeAt_simulates (hkept : kept <+: desk) {guess : Nat} {t : Tensor α}
    (h : desk[guess]? = some t) (q : Precision) (p : Problem m α) (settings : Except Failure (Settings α)) :
    Simulates kept desk (minimizeAt q p settings k guess) (minimize q p settings t)
      fun later y' y => kept <+: later ∧ later[y']? = some y :=
  .look_bind h (.bind_lift hkept fun _ _ => .bind_lift hkept fun _ _ => runAt_simulates hkept h)

end LogBarrier

end Minimization
