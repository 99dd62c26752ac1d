import Minimization.Proofs.Places
import Minimization.Solver.Basic

/-!
# Stores on a shelf

A solver does not own its parameters: it holds a store, which others may hold as well, and the tables of
defaults are stores that all of them start from. On a `Shelf` every store has its place, and what a
solver holds are places. Here solvers run with stores on a shelf: a constrained solver hands each of its
inner descents a copy of the parameters of its own, which is what keeps them apart.

`Mirrors` compares a computation that uses a shelf with one that is handed the parameters themselves: it
does the same, and whatever becomes of it, it only puts new stores behind those that are there. So the
stores that a solver holds, and the tables of defaults, are left as they are by every other run
(`Placed.solve_mirrors`, `Placed.descend_mirrors`).
-/

namespace Minimization

/-- The stores that there are. Each has its place. -/
abbrev Shelf := List Parameters

/-- Computations that use the stores on a shelf. -/
abbrev Shelving (m : Type → Type) (β : Type) := Placing Parameters m β

open Placing

variable {m : Type → Type} [Monad m] {ω β σ : Type} [Stateful m ω]

/-- From any shelf that begins with these stores, the first computation does what the second one does,
and at most puts new stores behind those that are there. -/
def Mirrors (start : Shelf) (c' : Shelving m β) (c : ExceptT Failure m β) : Prop :=
  ∀ shelf (w : ω), start <+: shelf →
    ∃ more, attempt c' (shelf, w) = ((attempt c w).1, shelf ++ more, (attempt c w).2)

/-- A computation has made stores of its own and answers what another one does. -/
def Adds (shelf later : Shelf) (b' b : β) : Prop := shelf <+: later ∧ b' = b

/-- What goes on alike from every shelf that begins with some stores mirrors what goes on without one. -/
theorem Mirrors.of_simulates {start : Shelf} {c' : Shelving m β} {c : ExceptT Failure m β}
    (h : ∀ shelf, start <+: shelf → Simulates shelf shelf c' c (Adds shelf)) : Mirrors start c' c := by
  intro shelf w hstart
  rcases hattempt : attempt c w with ⟨e | b, v⟩
  · obtain ⟨_, hattempt', more, rfl⟩ := (h shelf hstart).of_error hattempt
    exact ⟨more, hattempt'⟩
  · obtain ⟨_, _, hattempt', ⟨more, rfl⟩, rfl⟩ := (h shelf hstart).of_ok hattempt
    exact ⟨more, hattempt'⟩

/-! ## Runs -/

/-- The settings of the inner descents are read from a copy of the parameters in which the first step is
the solver's own. -/
theorem AugmentedLagrangian.settingsOf_ok {ps inner : Parameters}
    {settings : AugmentedLagrangian.Settings Float} (h : settingsOf ps (.ok inner) = .ok settings) :
    ∃ step, ps.real Parameters.initialStep 1.0 = .ok step ∧
      settings.inner
        = GradientDescent.settingsOf (Fields.set inner Parameters.initialStep (.real step)) := by
  unfold settingsOf at h
  obtain ⟨_, -, h⟩ := bind_eq_ok.mp h
  obtain ⟨_, -, h⟩ := bind_eq_ok.mp h
  obtain ⟨_, -, h⟩ := bind_eq_ok.mp h
  obtain ⟨_, hinner, h⟩ := bind_eq_ok.mp h
  obtain ⟨step, hstep, h⟩ := bind_eq_ok.mp h
  obtain rfl := Except.ok.inj hinner
  obtain rfl := Except.ok.inj h
  exact ⟨step, hstep, rfl⟩

/-- The settings of the inner descents are read from their parameters. -/
theorem LogBarrier.settingsOf_ok {ps inner : Parameters} {settings : LogBarrier.Settings Float}
    (h : settingsOf ps (.ok inner) = .ok settings) :
    settings.inner = GradientDescent.settingsOf inner := by
  unfold settingsOf at h
  obtain ⟨_, -, h⟩ := bind_eq_ok.mp h
  obtain ⟨_, -, h⟩ := bind_eq_ok.mp h
  obtain ⟨_, -, h⟩ := bind_eq_ok.mp h
  obtain rfl := Except.ok.inj h
  rfl

/-- A round whose inner descent has a copy of a store for its own. -/
def roundOn (round : Except Failure (GradientDescent.Settings Float) → Nat → σ →
    Constrained m Float (σ × Bool)) (template number : Nat) (st : σ) :
    Shelving (StateT (Course Float) m) (σ × Bool) := do
  let own ← copy template
  let ps ← look own
  beside (round (GradientDescent.settingsOf ps) number st)

section Method

variable {shelf : Shelf} {parameters inner template : Nat} {ps inners : Parameters}

/-- Rounds with copies of a store are rounds with what is in it. -/
theorem rounds_simulates (round : Except Failure (GradientDescent.Settings Float) → Nat → σ →
    Constrained m Float (σ × Bool)) (h : shelf[template]? = some ps) (left : Nat) (st : σ) :
    Simulates shelf shelf (Constrained.rounds (roundOn round template) left 0 st)
      (Constrained.rounds (round (GradientDescent.settingsOf ps)) left 0 st) (Adds shelf) := by
  refine (Simulates.rounds (J := Adds shelf) (fun {things p st} number hst => ?_) left
    ⟨List.prefix_refl shelf, rfl⟩ 0).mono fun later r' r ⟨hmade, hlater, hst⟩ =>
      ⟨hlater, Prod.ext hmade hst⟩
  obtain ⟨hthings, rfl⟩ := hst
  have hlater : shelf <+: things ++ [ps] := hthings.trans (List.prefix_append ..)
  refine .copy_bind (getElem?_later h hthings) (.look_bind List.getElem?_concat_length ?_)
  refine (Simulates.beside hlater _).mono fun later r' r hr => ?_
  obtain ⟨rfl, rfl⟩ := hr
  exact ⟨⟨hlater, rfl⟩, rfl⟩

namespace AugmentedLagrangian

/-- A run whose inner descents have copies of a store. -/
def runOn (s : Setup m Float) (template : Nat) (guess : Tensor Float) :
    Shelving (StateT (Course Float) m) (Tensor Float) := do
  let zeros := s.problem.constraints.map fun _ => Scalar.zero
  let start : State Float := ⟨guess.convert s.precision, zeros, s.settings.initialWeight⟩
  let round := roundOn (fun inner => round { s with settings := { s.settings with inner } }) template
  let (made, st) ← Constrained.rounds round s.settings.maxRounds.toNat 0 start
  beside (Constrained.conclude ⟨st.multipliers, st.weight, made⟩)
  return st.point

/-- A run with parameters on a shelf. The first step is set in a copy of the inner parameters. -/
def minimizeOn (q : Precision) (p : Problem m Float) (parameters inner : Nat) (guess : Tensor Float) :
    Shelving (StateT (Course Float) m) (Tensor Float) := do
  checkStart p guess
  let ps ← look parameters
  let settings ← settingsOf ps (.ok (← look inner))
  let step ← ps.real Parameters.initialStep 1.0
  let template ← copyWith inner (Fields.set · Parameters.initialStep (.real step))
  runOn ⟨q, p, settings⟩ template guess

/-- A run whose inner descents copy a store is a run with the settings that are in it. -/
theorem runOn_simulates {s : Setup m Float} (h : shelf[template]? = some ps)
    (hinner : s.settings.inner = GradientDescent.settingsOf ps) (guess : Tensor Float) :
    Simulates shelf shelf (runOn s template guess) (run s guess) (Adds shelf) := by
  have hrounds := rounds_simulates
    (fun inner => round { s with settings := { s.settings with inner } }) h s.settings.maxRounds.toNat
  rw [← hinner] at hrounds
  refine .bind (hrounds _) ?_
  rintro later r _ ⟨hlater, rfl⟩
  exact .beside_bind hlater fun _ => .pure ⟨hlater, rfl⟩

/-- The first step is set in a copy of the inner parameters, so the store itself stays as it is. -/
theorem minimizeOn_simulates (h : shelf[parameters]? = some ps) (hinner : shelf[inner]? = some inners)
    (q : Precision) (p : Problem m Float) (guess : Tensor Float) :
    Simulates shelf shelf (minimizeOn q p parameters inner guess)
      (minimize q p (settingsOf ps (.ok inners)) guess) (Adds shelf) := by
  have hrefl := List.prefix_refl shelf
  refine .bind_lift hrefl fun _ _ => .look_bind h (.look_bind hinner ?_)
  refine .bind_lift hrefl fun settings hsettings => ?_
  obtain ⟨step, hstep, hused⟩ := settingsOf_ok hsettings
  refine .ok_bind hstep (.copyWith_bind hinner ?_)
  have hcopied : shelf <+: shelf ++ [Fields.set inners Parameters.initialStep (.real step)] :=
    List.prefix_append ..
  exact ((runOn_simulates List.getElem?_concat_length hused guess).keep hcopied).mono
    fun _ _ _ h => ⟨hcopied.trans h.1, h.2⟩

end AugmentedLagrangian

namespace LogBarrier

/-- A run whose inner descents have copies of a store. -/
def runOn (s : Setup m Float) (inner : Nat) (guess : Tensor Float) :
    Shelving (StateT (Course Float) m) (Tensor Float) := do
  let x := guess.convert s.precision
  let told ← beside (s.tellInfeasible none false x)
  beside (Constrained.snapshot (s.snapshot s.settings.initialWeight x))
  let start : State Float := ⟨x, s.settings.initialWeight, told⟩
  let round := roundOn (fun inner => round { s with settings := { s.settings with inner } }) inner
  let (made, st) ← Constrained.rounds round s.settings.maxRounds.toNat 0 start
  beside (Constrained.conclude ⟨[], st.weight, made⟩)
  return st.point

/-- A run with parameters on a shelf. -/
def minimizeOn (q : Precision) (p : Problem m Float) (parameters inner : Nat) (guess : Tensor Float) :
    Shelving (StateT (Course Float) m) (Tensor Float) := do
  checkStart p guess
  let ps ← look parameters
  let settings ← settingsOf ps (.ok (← look inner))
  runOn ⟨q, p, settings⟩ inner guess

/-- A run whose inner descents copy a store is a run with the settings that are in it. -/
theorem runOn_simulates {s : Setup m Float} (h : shelf[inner]? = some ps)
    (hinner : s.settings.inner = GradientDescent.settingsOf ps) (guess : Tensor Float) :
    Simulates shelf shelf (runOn s inner guess) (run s guess) (Adds shelf) := by
  have hrefl := List.prefix_refl shelf
  refine .beside_bind hrefl fun told => .beside_bind hrefl fun _ => ?_
  have hrounds := rounds_simulates
    (fun inner => round { s with settings := { s.settings with inner } }) h s.settings.maxRounds.toNat
  rw [← hinner] at hrounds
  refine .bind (hrounds _) ?_
  rintro later r _ ⟨hlater, rfl⟩
  exact .beside_bind hlater fun _ => .pure ⟨hlater, rfl⟩

theorem minimizeOn_simulates (h : shelf[parameters]? = some ps) (hinner : shelf[inner]? = some inners)
    (q : Precision) (p : Problem m Float) (guess : Tensor Float) :
    Simulates shelf shelf (minimizeOn q p parameters inner guess)
      (minimize q p (settingsOf ps (.ok inners)) guess) (Adds shelf) := by
  have hrefl := List.prefix_refl shelf
  refine .bind_lift hrefl fun _ _ => .look_bind h (.look_bind hinner ?_)
  refine .bind_lift hrefl fun settings hsettings => ?_
  exact runOn_simulates hinner (settingsOf_ok hsettings) guess

end LogBarrier

end Method

/-! ## Solvers -/

/-- A solver with the places of its stores. Only solvers for constrained problems have an inner one. -/
structure Placed where
  kind : SolverKind
  parameters : Nat
  inner : Option Nat

namespace Placed

/-- The stores that the solver holds are on the shelf, with the parameters of a solver in them. -/
structure Holds (s : Placed) (shelf : Shelf) (solver : Solver) : Prop where
  kind : solver.kind = s.kind
  parameters : ∃ ps, shelf[s.parameters]? = some ps ∧ solver.parameters = .store ps
  inner : s.kind.isConstrained → ∃ place ps, s.inner = some place ∧ shelf[place]? = some ps ∧
    solver.inner = .store ps

/-- Stores that are put behind the others change nothing. -/
theorem Holds.mono {s : Placed} {shelf shelf' : Shelf} {solver : Solver} (h : s.Holds shelf solver)
    (hlater : shelf <+: shelf') : s.Holds shelf' solver where
  kind := h.kind
  parameters := by
    obtain ⟨ps, hplace, hps⟩ := h.parameters
    exact ⟨ps, getElem?_later hplace hlater, hps⟩
  inner := by
    intro hconstrained
    obtain ⟨place, ps, hinner, hplace, hps⟩ := h.inner hconstrained
    exact ⟨place, ps, hinner, getElem?_later hplace hlater, hps⟩

/-- Minimizes a function. -/
def descend (s : Placed) (p : Precision) (publish : Evaluation m Unit) (loss : Rule m Float)
    (gradient : Field m Float) (guess : Tensor Float) :
    Shelving (StateT (Run Float) m) (Tensor Float) := do
  let ps ← look s.parameters
  beside ((Solver.ofKind s.kind (some ps) none).descend p publish loss gradient guess)

/-- Minimizes a constrained problem. -/
def solve (s : Placed) (p : Precision) (problem : Problem m Float) (guess : Tensor Float) :
    Shelving (StateT (Course Float) m) (Tensor Float) :=
  match s.kind, s.inner with
  | .augmentedLagrangian, some inner =>
    AugmentedLagrangian.minimizeOn p problem s.parameters inner guess
  | .logBarrier, some inner => LogBarrier.minimizeOn p problem s.parameters inner guess
  | _, _ => throw .noMember

variable {s : Placed} {shelf : Shelf} {solver : Solver}

/-- A solver whose stores are on a shelf descends as it does with their parameters, and leaves all stores
that there are as they are. -/
theorem descend_mirrors (h : s.Holds shelf solver) (p : Precision) (publish : Evaluation m Unit)
    (loss : Rule m Float) (gradient : Field m Float) (guess : Tensor Float) :
    Mirrors shelf (s.descend p publish loss gradient guess)
      (solver.descend p publish loss gradient guess) := by
  refine .of_simulates fun later hlater => ?_
  obtain ⟨ps, hplace, hps⟩ := (h.mono hlater).parameters
  refine .look_bind hplace ?_
  obtain ⟨kind, parameters, inner⟩ := solver
  obtain rfl : kind = s.kind := h.kind
  obtain rfl : parameters = .store ps := hps
  -- Nothing but the kind and the parameters of a solver matters to a descent.
  have hsame : (Solver.ofKind s.kind (some ps) none).descend p publish loss gradient guess
      = (⟨s.kind, .store ps, inner⟩ : Solver).descend p publish loss gradient guess := rfl
  rw [hsame]
  exact (Simulates.beside (List.prefix_refl later) _).mono fun _ _ _ h => ⟨h.1 ▸ List.prefix_refl later, h.2⟩

/-- It solves a constrained problem as it does with their parameters, and leaves all stores that there
are as they are. -/
theorem solve_mirrors (h : s.Holds shelf solver) (p : Precision) (problem : Problem m Float)
    (guess : Tensor Float) :
    Mirrors shelf (s.solve p problem guess) (solver.solve p problem guess) := by
  refine .of_simulates fun later hlater => ?_
  replace h := h.mono hlater
  have hrefl := List.prefix_refl later
  obtain ⟨ps, hplace, hps⟩ := h.parameters
  obtain ⟨sKind, sParameters, sInner⟩ := s
  obtain ⟨kind, parameters, inner⟩ := solver
  obtain rfl : kind = sKind := h.kind
  obtain rfl : parameters = .store ps := hps
  cases kind with
  | gradientDescent => exact .throw hrefl _
  | stochasticDescent => exact .throw hrefl _
  | momentDescent => exact .throw hrefl _
  | augmentedLagrangian =>
    obtain ⟨place, inners, hinner, hstored, hinners⟩ := h.inner rfl
    obtain rfl : sInner = some place := hinner
    obtain rfl : inner = .store inners := hinners
    exact AugmentedLagrangian.minimizeOn_simulates hplace hstored p problem guess
  | logBarrier =>
    obtain ⟨place, inners, hinner, hstored, hinners⟩ := h.inner rfl
    obtain rfl : sInner = some place := hinner
    obtain rfl : inner = .store inners := hinners
    exact LogBarrier.minimizeOn_simulates hplace hstored p problem guess

end Placed

end Minimization
