import Minimization.Configuration.Specification
import Minimization.Proofs.Configuration.Distinct
import Minimization.Proofs.Solver.Shelf

/-!
# Solvers that are built from specifications

A parameter of a solver has passed through several layers: the specification, which overrides may have
changed, over the defaults of its kind, over the fallback of whoever reads it. `effective` is what comes
out of them, and a solver that is built holds exactly that.

With stores on a shelf (`Placed.build`) the layers are stores: a solver starts from copies of the tables of
defaults, and is given new stores with the parameters of its specification in them.
-/

namespace Minimization

/-! ## Layers of parameters -/

/-- The value of a parameter that is given, or else has a default, or else is up to who reads it. -/
def effective (given : Value) (defaults : Parameters) (name : String) (fallback : Value) : Value :=
  (given.field? name).getD (defaults.getD name fallback)

/-- Nothing, or an object. -/
def Value.IsTable (v : Value) : Prop := v = .null ∨ ∃ fs, v = .object fs

namespace Value.IsTable

variable {v : Value}

theorem setAll_eq (h : v.IsTable) (hpresent : v.isPresent) (ps : Parameters) :
    ps.setAll v = (.ok (), Fields.update ps v.fields) := by
  rcases h with rfl | ⟨fs, rfl⟩
  · cases hpresent
  · rfl

theorem fields_eq_nil (h : v.IsTable) (hpresent : ¬ v.isPresent) : v.fields = [] := by
  rcases h with rfl | ⟨fs, rfl⟩
  · rfl
  · cases fs with
    | nil => rfl
    | cons field fs => exact absurd rfl hpresent

end Value.IsTable

/-- A store has the values that are given, and defaults for the others. -/
def Layered (ps : Parameters) (given : Value) (defaults : Parameters) : Prop :=
  ∀ name fallback, ps.getD name fallback = effective given defaults name fallback

theorem layered_update {v : Value} (h : v.Distinct) (defaults : Parameters) :
    Layered (Fields.update defaults v.fields) v defaults := by
  intro name fallback
  rw [Parameters.getD, effective, Value.field?_eq, Fields.get?_update h.nodup_names]
  cases Fields.get? v.fields name <;> rfl

/-! ## Specifications -/

namespace Specification

/-- What an object has for the parameters of a solver. -/
def given (fields : Fields Value) : Value := (Value.object fields).field "hyperparams"

/-- What an object has for the parameters of its inner descents. -/
def givenInner (fields : Fields Value) : Value := (Value.object fields).field "inner_hyperparams"

/-- The arguments of a solver are at most a seed, for a kind that draws numbers. -/
def AtMostSeed (kind : SolverKind) (arguments : Fields Value) : Prop :=
  ∀ argument ∈ arguments, argument.1 = "seed" ∧ kind.isStochastic = true ∧
    (argument.2 = .null ∨ ∃ g, Random.Generator.ofSeed argument.2 = .ok g)

/-- An object that names a class of solvers, with a seed at most among the arguments, and with parameters
that are tables. -/
structure Describes (fields : Fields Value) (kind : SolverKind) : Prop where
  named : ∃ module, Catalogue.find ((Value.object fields).field "class")
    = .ok (.classOf module kind.name)
  arguments : ∃ arguments, dictionary ((Fields.get? fields "params").getD (.object [])) = .ok arguments ∧
    AtMostSeed kind arguments
  isTable_given : (given fields).IsTable
  isTable_givenInner : (givenInner fields).IsTable

/-- The solver of a kind with the parameters that an object has for it. -/
def solver (kind : SolverKind) (fields : Fields Value) : Solver :=
  ⟨kind, .store (Fields.update kind.defaults (given fields).fields),
    .store (Fields.update Parameters.gradientDescent (givenInner fields).fields)⟩

theorem overlay_eq {v : Value} (h : v.IsTable) (ps : Parameters) :
    overlay (.store ps) v = .ok (.store (Fields.update ps v.fields)) := by
  unfold overlay
  split
  next hpresent =>
    show (Parameters.ofConfiguration v ps >>= fun ps => Except.ok (Holding.store ps)) = _
    rw [Parameters.ofConfiguration, if_pos hpresent, h.setAll_eq hpresent]
    rfl
  next hpresent =>
    rw [h.fields_eq_nil hpresent]
    rfl

/-- Nothing but a seed is an argument. -/
theorem argument?_eq_none {kind : SolverKind} {arguments : Fields Value} (h : AtMostSeed kind arguments)
    {name : String} (hname : name ≠ "seed") : argument? arguments name = none := by
  have hnot : name ∉ Fields.names arguments := by
    intro hmem
    obtain ⟨argument, hargument, rfl⟩ := List.mem_map.mp hmem
    exact hname (h argument hargument).1
  rw [argument?, Fields.get?_eq_none hnot]

theorem mem_of_argument? {arguments : Fields Value} {name : String} {v : Value}
    (h : argument? arguments name = some v) : (name, v) ∈ arguments ∧ v ≠ .null := by
  unfold argument? at h
  split at h
  next => cases h
  next => cases h
  next hnull hget =>
    obtain rfl := Option.some.inj h
    exact ⟨Fields.mem_of_get? hget, hnull⟩

/-- With at most a seed among the arguments, a solver is made from its defaults and what is set over
them. -/
theorem exists_solverOf_eq {kind : SolverKind} {arguments : Fields Value}
    (h : AtMostSeed kind arguments) (fields : Fields Value) :
    ∃ g, solverOf kind arguments fields = do
      let parameters ← overlay (.store kind.defaults) (given fields)
      if (givenInner fields).isPresent && !kind.isConstrained then
        throw (.argument (.noInnerSolver kind.name))
      let inner ← overlay (.store Parameters.gradientDescent) (givenInner fields)
      return ⟨⟨kind, parameters, inner⟩, g⟩ := by
  have hnames : ¬ (arguments.any fun a => !(argumentNames kind).contains a.1) = true := by
    rw [List.any_eq_true]
    rintro ⟨argument, hargument, hname⟩
    obtain ⟨hseed, hstochastic, -⟩ := h argument hargument
    rw [argumentNames, hseed, hstochastic] at hname
    exact absurd hname (by simp)
  have hparameters := argument?_eq_none h (show "hyperparams" ≠ "seed" by decide)
  have hinner := argument?_eq_none h (show "inner_hyperparams" ≠ "seed" by decide)
  unfold solverOf
  simp only [if_neg hnames, hparameters, hinner, Option.map_none, Option.getD_none]
  rcases hseed : argument? arguments "seed" with - | seed
  · exact ⟨.unseeded, rfl⟩
  · obtain ⟨hmem, hpresent⟩ := mem_of_argument? hseed
    obtain ⟨-, -, hnull | ⟨g, hg⟩⟩ := h _ hmem
    · exact absurd hnull hpresent
    · refine ⟨g, ?_⟩
      simp only [hg]
      rfl

/-- Parameters of an inner solver are refused by a kind that has none, and accepted otherwise. -/
def Accepts (fields : Fields Value) (kind : SolverKind) : Prop :=
  kind.isConstrained = true ∨ (givenInner fields).isPresent = false

namespace Describes

variable {fields : Fields Value} {kind : SolverKind}

/-- What an object describes is made by its kind, from its arguments. -/
theorem ofSpecification_eq (h : Describes fields kind) :
    ∃ arguments, AtMostSeed kind arguments ∧
      Configured.ofSpecification (.object fields) = solverOf kind arguments fields := by
  obtain ⟨module, hfind⟩ := h.named
  obtain ⟨arguments, hdictionary, hseed⟩ := h.arguments
  refine ⟨arguments, hseed, ?_⟩
  have hclass : Fields.has fields "class" = true := by
    rcases hget : Fields.get? fields "class" with - | v
    · have hfield : (Value.object fields).field "class" = .null := by
        show (Fields.get? fields "class").getD .null = .null
        rw [hget]
        rfl
      rw [hfield] at hfind
      cases hfind
    · rw [Fields.has, hget]
      rfl
  have hkind : SolverKind.named? kind.name = some kind := by cases kind <;> decide
  have hnamed : Specification.named (.object fields) = .ok fields := if_pos hclass
  unfold Configured.ofSpecification
  rw [hnamed]
  show (Catalogue.find ((Value.object fields).field "class") >>= _) = _
  rw [hfind]
  show (dictionary ((Fields.get? fields "params").getD (.object [])) >>= _) = _
  rw [hdictionary]
  simp only [hkind]
  rfl

/-- It is the solver with the parameters of the object set over its defaults. -/
theorem ofSpecification_ok (h : Describes fields kind) (haccepts : Accepts fields kind) :
    ∃ g, Configured.ofSpecification (.object fields) = .ok ⟨solver kind fields, g⟩ := by
  obtain ⟨arguments, hseed, heq⟩ := h.ofSpecification_eq
  obtain ⟨g, hsolver⟩ := exists_solverOf_eq hseed fields
  have hinner : ((givenInner fields).isPresent && !kind.isConstrained) = false := by
    rcases haccepts with hkind | hgiven
    · rw [hkind, Bool.not_true, Bool.and_false]
    · rw [hgiven, Bool.false_and]
  refine ⟨g, ?_⟩
  rw [heq, hsolver, overlay_eq h.isTable_given, hinner, overlay_eq h.isTable_givenInner]
  rfl

/-- A kind without an inner solver refuses parameters for one. -/
theorem ofSpecification_error (h : Describes fields kind) (hkind : kind.isConstrained = false)
    (hgiven : (givenInner fields).isPresent = true) :
    Configured.ofSpecification (.object fields) = .error (.argument (.noInnerSolver kind.name)) := by
  obtain ⟨arguments, hseed, heq⟩ := h.ofSpecification_eq
  obtain ⟨g, hsolver⟩ := exists_solverOf_eq hseed fields
  rw [heq, hsolver, overlay_eq h.isTable_given, hkind, hgiven]
  rfl

end Describes

end Specification

/-! ## Inner descents -/

/-- Every inner descent of a run with these settings is one of a gradient descent that holds these
parameters. -/
def AugmentedLagrangian.DescendsWith (settings : AugmentedLagrangian.Settings Float)
    (used : Parameters) : Prop :=
  ∀ {m : Type → Type} [Monad m] [LawfulMonad m] (q : Precision) (p : Problem m Float)
    (objective : ScalarFunction m Float) (x : Tensor Float),
    (⟨q, p, settings⟩ : Setup m Float).descent objective x = do
      let gradient ← objective.gradient
      let field : Field m Float :=
        match gradient with
        | some g => g.evaluate
        | none => fun _ => throw .wrongType
      (Solver.ofKind .gradientDescent (some used) none).descend q (pure ()) objective.asRule field x

/-- Every inner descent of a run with these settings is one of a gradient descent that holds these
parameters. -/
def LogBarrier.DescendsWith (settings : LogBarrier.Settings Float) (used : Parameters) : Prop :=
  ∀ {m : Type → Type} [Monad m] [LawfulMonad m] (q : Precision) (p : Problem m Float) (weight : Float)
    (x : Tensor Float), (⟨q, p, settings⟩ : Setup m Float).descent weight x =
      (Solver.ofKind .gradientDescent (some used) none).descend q (pure ())
        (p.barrier q weight).asRule (p.barrierGradient q weight) x

/-- A gradient descent reads its settings from the parameters that it holds. -/
theorem Solver.gradientDescent_descend {m : Type → Type} [Monad m] [LawfulMonad m] (used : Parameters)
    (q : Precision) (publish : Evaluation m Unit) (loss : Rule m Float) (gradient : Field m Float)
    (guess : Tensor Float) :
    (Solver.ofKind .gradientDescent (some used) none).descend q publish loss gradient guess
      = liftM (GradientDescent.settingsOf used) >>= fun settings =>
        GradientDescent.run ⟨"GradientDescent", q, settings, loss, gradient, pure ()⟩ guess :=
  pure_bind used _

/-- The solver runs the method of multipliers with these parameters. Its inner descents hold the inner ones,
but for the first step, which is that of the solver. -/
structure AugmentedLagrangian.Follows (solver : Solver) (ps inner : Parameters) : Prop where
  solve : ∀ {m : Type → Type} [Monad m] (q : Precision) (p : Problem m Float) (guess : Tensor Float),
    solver.solve q p guess = minimize q p (settingsOf ps (.ok inner)) guess
  descents : ∀ settings, settingsOf ps (.ok inner) = .ok settings →
    ∃ step used, (ps.getD Parameters.initialStep (.real 1.0)).toReal = .ok step ∧
      (∀ name fallback, Parameters.getD used name fallback
        = if name = Parameters.initialStep then .real step else inner.getD name fallback) ∧
      DescendsWith settings used

/-- The solver runs the barrier method with these parameters, and its inner descents hold the inner
ones. -/
structure LogBarrier.Follows (solver : Solver) (ps inner : Parameters) : Prop where
  solve : ∀ {m : Type → Type} [Monad m] (q : Precision) (p : Problem m Float) (guess : Tensor Float),
    solver.solve q p guess = minimize q p (settingsOf ps (.ok inner)) guess
  descents : ∀ settings, settingsOf ps (.ok inner) = .ok settings → DescendsWith settings inner

theorem AugmentedLagrangian.follows (ps inner : Parameters) :
    Follows ⟨.augmentedLagrangian, .store ps, .store inner⟩ ps inner where
  solve _ _ _ := rfl
  descents settings h := by
    obtain ⟨step, hstep, hused⟩ := settingsOf_ok h
    refine ⟨step, Fields.set inner Parameters.initialStep (.real step), hstep, ?_, ?_⟩
    · intro name fallback
      rw [Parameters.getD]
      split
      next hname => rw [hname, Fields.get?_set_self, Option.getD_some]
      next hname => rw [Fields.get?_set_of_ne _ _ hname, Parameters.getD]
    · intro m _ _ q p objective x
      unfold Setup.descent
      refine bind_congr fun gradient => ?_
      rw [hused, Solver.gradientDescent_descend]
      cases gradient <;> rfl

theorem LogBarrier.follows (ps inner : Parameters) :
    Follows ⟨.logBarrier, .store ps, .store inner⟩ ps inner where
  solve _ _ _ := rfl
  descents settings h := by
    intro m _ _ q p weight x
    rw [Setup.descent, settingsOf_ok h, Solver.gradientDescent_descend]

/-! ## Building on a shelf -/

/-- The tables of defaults, which are there from the start. -/
def Shelf.tables : Shelf := Parameters.tables.map Prod.snd

namespace Placed

open Placing Specification

variable {m : Type → Type} [Monad m] {ω : Type} [Stateful m ω]

/-- The place of the table of defaults of a kind. -/
def table : SolverKind → Nat
  | .gradientDescent => 0
  | .stochasticDescent => 0
  | .momentDescent => 1
  | .augmentedLagrangian => 2
  | .logBarrier => 3

theorem tables_getElem? (kind : SolverKind) : Shelf.tables[table kind]? = some kind.defaults := by
  cases kind <;> rfl

/-- A new solver of a kind, with copies of tables of defaults. -/
def make (kind : SolverKind) : Shelving m Placed := do
  let parameters ← copy (table kind)
  if kind.isConstrained then return ⟨kind, parameters, some (← copy (table .gradientDescent))⟩
  else return ⟨kind, parameters, none⟩

/-- The place of a store that takes the place of another one: a value that is given is set in a copy of a
copy of it. -/
def configure (held : Nat) (given : Value) : Shelving m Nat := do
  if given.isPresent then
    let defaults ← copy held
    let ps ← look defaults
    let fresh ← copyWith defaults fun ps => (ps.setAll given).2
    (ps.setAll given).1
    return fresh
  else return held

/-- The solver of a kind that an object describes. -/
def build (kind : SolverKind) (fields : Fields Value) : Shelving m Placed := do
  let s ← make kind
  let parameters ← configure s.parameters (given fields)
  match s.inner with
  | some inner => return ⟨kind, parameters, some (← configure inner (givenInner fields))⟩
  | none =>
    if (givenInner fields).isPresent then throw (.argument (.noInnerSolver kind.name))
    else return ⟨kind, parameters, none⟩

variable {kind : SolverKind} {fields : Fields Value} {shelf : Shelf}

theorem attempt_make (kind : SolverKind) (htables : Shelf.tables <+: shelf) (w : ω) :
    ∃ s after, attempt (make kind : Shelving m Placed) (shelf, w) = (.ok s, after, w) ∧ shelf <+: after ∧
      s.Holds after (Solver.ofKind kind none none) ∧ s.inner.isSome = kind.isConstrained := by
  have hdefaults := getElem?_later (tables_getElem? kind) htables
  have hfirst : shelf <+: shelf ++ [kind.defaults] := List.prefix_append ..
  unfold make
  rw [attempt_bind_of_ok (attempt_copy _ _), hdefaults]
  cases hkind : kind.isConstrained with
  | false =>
    refine ⟨⟨kind, shelf.length, none⟩, _, attempt_pure _ _, hfirst, ⟨rfl, ?_, ?_⟩, rfl⟩
    · exact ⟨kind.defaults, List.getElem?_concat_length, rfl⟩
    · exact fun h => absurd (hkind.symm.trans h) Bool.false_ne_true
  | true =>
    have hinners := getElem?_later (tables_getElem? .gradientDescent) (htables.trans hfirst)
    have hsecond : shelf ++ [kind.defaults] <+: shelf ++ [kind.defaults] ++ [Parameters.gradientDescent] :=
      List.prefix_append ..
    refine ⟨⟨kind, shelf.length, some (shelf ++ [kind.defaults]).length⟩, _, ?_, hfirst.trans hsecond,
      ⟨rfl, ?_, fun _ => ?_⟩, rfl⟩
    · rw [if_pos rfl, attempt_bind_of_ok (attempt_copy _ _), attempt_pure]
      rw [Option.getD_some, hinners, Option.getD_some]
      rfl
    · exact ⟨kind.defaults, getElem?_later List.getElem?_concat_length hsecond, rfl⟩
    · exact ⟨_, Parameters.gradientDescent, rfl, List.getElem?_concat_length, rfl⟩

/-- The store that takes the place of another one has the given values set over it. -/
theorem attempt_configure {held : Nat} {ps : Parameters} {v : Value} (hheld : shelf[held]? = some ps)
    (hv : v.IsTable) (w : ω) :
    ∃ place after, attempt (configure held v : Shelving m Nat) (shelf, w) = (.ok place, after, w) ∧
      shelf <+: after ∧ after[place]? = some (Fields.update ps v.fields) := by
  unfold configure
  split
  next hpresent =>
    have hcopied : (shelf ++ [ps])[shelf.length]? = some ps := List.getElem?_concat_length
    refine ⟨_, shelf ++ [ps] ++ [Fields.update ps v.fields], ?_, ?_, List.getElem?_concat_length⟩
    · rw [attempt_bind_of_ok (attempt_copy held _), hheld, attempt_bind_of_ok (attempt_look _ _),
        attempt_bind_of_ok (attempt_copyWith _ _ _)]
      simp only [Option.getD_some, hcopied]
      rw [hv.setAll_eq hpresent, attempt_bind_of_ok (attempt_lift _ _), attempt_pure]
    · exact (List.prefix_append ..).trans (List.prefix_append ..)
  next hpresent =>
    refine ⟨held, shelf, attempt_pure _ _, List.prefix_refl shelf, ?_⟩
    rw [hv.fields_eq_nil hpresent]
    exact hheld

/-- What has been built on a shelf is what is built: a solver whose stores are on the shelf, or the same
failure. -/
def Agree (shelf : Shelf) : Except Failure Placed → Except Failure Configured → Prop
  | .ok s, .ok c => s.Holds shelf c.solver
  | .error e, .error e' => e = e'
  | _, _ => False

/-- Building on a shelf gives what building gives, and only puts new stores behind those that are there. -/
theorem attempt_build (htables : Shelf.tables <+: shelf) (h : Describes fields kind) (w : ω) :
    ∃ result after, attempt (build kind fields : Shelving m Placed) (shelf, w) = (result, after, w) ∧
      shelf <+: after ∧ Agree after result (Configured.ofSpecification (.object fields)) := by
  obtain ⟨s, made, hmake, hmade, hholds, hsome⟩ := attempt_make (m := m) kind htables w
  obtain ⟨ps, hplace, hps⟩ := hholds.parameters
  obtain rfl : kind.defaults = ps := Holding.store.inj hps
  obtain ⟨place, set, hconfigure, hset, hstored⟩ := attempt_configure (m := m) hplace h.isTable_given w
  unfold build
  rw [attempt_bind_of_ok hmake, attempt_bind_of_ok hconfigure]
  rcases hinner : s.inner with - | held
  · have hkind : kind.isConstrained = false := by rw [← hsome, hinner]; rfl
    cases hpresent : (givenInner fields).isPresent with
    | true =>
      refine ⟨_, set, attempt_throw _ _, hmade.trans hset, ?_⟩
      rw [h.ofSpecification_error hkind hpresent]
      rfl
    | false =>
      obtain ⟨g, hbuilt⟩ := h.ofSpecification_ok (.inr hpresent)
      refine ⟨_, set, attempt_pure _ _, hmade.trans hset, ?_⟩
      rw [hbuilt]
      refine ⟨rfl, ⟨_, hstored, rfl⟩, fun hconstrained => ?_⟩
      exact absurd (hkind.symm.trans hconstrained) Bool.false_ne_true
  · have hkind : kind.isConstrained = true := by rw [← hsome, hinner]; rfl
    obtain ⟨g, hbuilt⟩ := h.ofSpecification_ok (.inl hkind)
    obtain ⟨_, inners, hheld, hinners, heq⟩ := hholds.inner (hholds.kind ▸ hkind)
    obtain rfl := Option.some.inj (hinner.symm.trans hheld)
    obtain rfl : Parameters.gradientDescent = inners := Holding.store.inj heq
    obtain ⟨inner, after, hattempt, hafter, hinnerStored⟩ :=
      attempt_configure (m := m) (getElem?_later hinners hset) h.isTable_givenInner w
    refine ⟨.ok ⟨kind, place, some inner⟩, after, ?_, (hmade.trans hset).trans hafter, ?_⟩
    · dsimp only
      rw [attempt_bind_of_ok hattempt, attempt_pure]
    · rw [hbuilt]
      have hparameters := getElem?_later hstored hafter
      exact ⟨rfl, ⟨_, hparameters, rfl⟩, fun _ => ⟨inner, _, rfl, hinnerStored, rfl⟩⟩

/-- With the tables of defaults on the shelf, what an object describes is built there as it is without a
shelf, and neither that nor any run of a solver that is there changes one of the stores that there are. -/
structure Undisturbed (kind : SolverKind) (fields : Fields Value) : Prop where
  build : ∀ {m : Type → Type} [Monad m] {ω : Type} [Stateful m ω] (shelf : Shelf) (w : ω),
    Shelf.tables <+: shelf → ∃ result after,
      attempt (build kind fields : Shelving m Placed) (shelf, w) = (result, after, w) ∧
      shelf <+: after ∧ Agree after result (Configured.ofSpecification (.object fields))
  descend : ∀ {m : Type → Type} [Monad m] {ω : Type} [Stateful m ω] {shelf : Shelf} {s : Placed}
    {solver : Solver}, s.Holds shelf solver → ∀ (p : Precision) (publish : Evaluation m Unit)
    (loss : Rule m Float) (gradient : Field m Float) (guess : Tensor Float),
    Mirrors shelf (s.descend p publish loss gradient guess) (solver.descend p publish loss gradient guess)
  solve : ∀ {m : Type → Type} [Monad m] {ω : Type} [Stateful m ω] {shelf : Shelf} {s : Placed}
    {solver : Solver}, s.Holds shelf solver → ∀ (p : Precision) (problem : Problem m Float)
    (guess : Tensor Float), Mirrors shelf (s.solve p problem guess) (solver.solve p problem guess)

theorem undisturbed (h : Describes fields kind) : Undisturbed kind fields where
  build _ w htables := attempt_build htables h w
  descend hholds := descend_mirrors hholds
  solve hholds := solve_mirrors hholds

end Placed

/-! ## What a solver holds -/

namespace Configured

open Minimization.Configuration Specification

variable {config : Value} {items : List String} {fields : Fields Value} {kind : SolverKind}

/-- Overrides of a configuration leave an object that describes a solver. A file with the configuration
is loaded as the object is built. A kind without an inner solver refuses parameters for one; otherwise
the solver holds what the object gives over its defaults, and so do its inner descents. What other solvers
hold stays as it is, and so do the defaults. -/
theorem effective_spec (hconfig : config.Distinct)
    (happly : applyOverrides config (.list (items.map .text)) = .ok (.object fields))
    (h : Describes fields kind) :
    (∀ text, Value.read text = .ok config →
      ofText (some text) (.list (items.map .text)) = ofSpecification (.object fields)) ∧
    (kind.isConstrained = false → (givenInner fields).isPresent = true →
      ofSpecification (.object fields) = .error (.argument (.noInnerSolver kind.name))) ∧
    (Accepts fields kind → ∃ ps inner g,
      ofSpecification (.object fields) = .ok ⟨⟨kind, .store ps, .store inner⟩, g⟩ ∧
      Layered ps (given fields) kind.defaults ∧
      Layered inner (givenInner fields) Parameters.gradientDescent ∧
      (kind = .augmentedLagrangian →
        AugmentedLagrangian.Follows ⟨kind, .store ps, .store inner⟩ ps inner) ∧
      (kind = .logBarrier → LogBarrier.Follows ⟨kind, .store ps, .store inner⟩ ps inner)) ∧
    Placed.Undisturbed kind fields := by
  have hfields := distinct_of_applyOverrides hconfig happly
  refine ⟨fun text hread => ?_, h.ofSpecification_error, fun haccepts => ?_, Placed.undisturbed h⟩
  · show (Value.read text >>= fun v => applyOverrides v (.list (items.map .text)) >>= ofSpecification) = _
    rw [hread]
    show (applyOverrides config (.list (items.map .text)) >>= ofSpecification) = _
    rw [happly]
    rfl
  · obtain ⟨g, hbuilt⟩ := h.ofSpecification_ok haccepts
    refine ⟨_, _, g, hbuilt, layered_update (hfields.field "hyperparams") _,
      layered_update (hfields.field "inner_hyperparams") _, ?_, ?_⟩
    · rintro rfl
      exact AugmentedLagrangian.follows _ _
    · rintro rfl
      exact LogBarrier.follows _ _

/-- A method of multipliers from a file, with two overrides: what they set counts, and what the file gives,
then the defaults, and then what is asked for. -/
theorem effective_overridden : ∃ ps inner g,
    ofText
      (some "\x7b\"class\": \"optim:AugmentedLagrangian\", \"hyperparams\": \x7b\"mu_init\": 2\x7d\x7d")
      (.list [.text "hyperparams.max_iterations=5", .text "inner_hyperparams.beta1=7"])
      = .ok ⟨⟨.augmentedLagrangian, .store ps, .store inner⟩, g⟩ ∧
    ps.getD "max_iterations" .null = .int 5 ∧ ps.getD "mu_init" .null = .int 2 ∧
    ps.getD "outer_tolerance" (.int 1) = .null ∧ ps.getD "beta1" (.int 9) = .int 9 ∧
    inner.getD "beta1" .null = .int 7 ∧ inner.getD "max_iterations" .null = .int 100 := by
  have hread : Value.read
      "\x7b\"class\": \"optim:AugmentedLagrangian\", \"hyperparams\": \x7b\"mu_init\": 2\x7d\x7d"
      = .ok (.object [("class", .text "optim:AugmentedLagrangian"),
        ("hyperparams", .object [("mu_init", .int 2)])]) := rfl
  have hfind : Catalogue.find (.text "optim:AugmentedLagrangian")
      = .ok (.classOf "optim.augmented_lagrangian" "AugmentedLagrangian") := by
    have hsplit : Catalogue.splitPath "optim:AugmentedLagrangian"
      = .ok ("optim", "AugmentedLagrangian") := rfl
    have hdot : ".".isPrefixOf "optim" = false := by decide +kernel
    rw [Catalogue.find, Catalogue.findPath, hsplit]
    simp only [bind, Except.bind, hdot]
    rfl
  have h : Describes [("class", .text "optim:AugmentedLagrangian"),
      ("hyperparams", .object [("mu_init", .int 2), ("max_iterations", .int 5)]),
      ("inner_hyperparams", .object [("beta1", .int 7)])] .augmentedLagrangian :=
    ⟨⟨"optim.augmented_lagrangian", hfind⟩, ⟨[], rfl, nofun⟩, .inr ⟨_, rfl⟩, .inr ⟨_, rfl⟩⟩
  obtain ⟨hload, -, hbuilt, -⟩ := effective_spec (Value.distinct_of_read hread)
    (show applyOverrides _ (.list (["hyperparams.max_iterations=5", "inner_hyperparams.beta1=7"].map .text))
      = .ok (.object _) from rfl) h
  obtain ⟨ps, inner, g, hspec, hps, hinner, -⟩ := hbuilt (.inl rfl)
  refine ⟨ps, inner, g, (hload _ hread).trans hspec, ?_, ?_, ?_, ?_, ?_, ?_⟩
  · rw [hps]; rfl
  · rw [hps]; rfl
  · rw [hps]; rfl
  · rw [hps]; rfl
  · rw [hinner]; rfl
  · rw [hinner]; rfl

end Configured

end Minimization
