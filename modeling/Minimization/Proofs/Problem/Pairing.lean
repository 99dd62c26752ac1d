import Mathlib.Data.List.Forall2
import Mathlib.Data.List.Induction
import Minimization.Problem.Builder

/-!
# Which gradients a builder pairs with functions

A builder is driven by calls, any of which may fail; the caller goes on with the builder that the call
has left. `GradientFor` says which gradient belongs to a function that is handed over: the one beside
it, else its own, else an estimated one.

What a builder holds is read off its calls (`Builder.holds_after`): the functions are those of all
calls that hand one over, the gradients those of the calls that find one. A constraint without a
gradient therefore leaves the two lists of different lengths for good, and nothing can be built any
more. An objective without a gradient leaves the gradient of an earlier objective behind, and the
problem is built with it.
-/

namespace Minimization

variable {m : Type → Type} {α : Type} [Scalar α]

/-- A function that is handed over, and the gradient beside it. -/
abbrev Handed (m : Type → Type) (α : Type) := ScalarFunction m α × Option (VectorCandidate m α)

section Gradient

variable [Monad m]

/-- The gradient belongs to the function that is handed over: it is the one beside it, else the
function's own, else the one that is estimated from the function. -/
inductive GradientFor (p : Precision) : Handed m α → VectorFunction m α → Prop
  | given {f c g} : VectorFunction.of c = .ok g → GradientFor p (f, some c) g
  | own {f g} : f.gradient = .ok (some g) → GradientFor p (f, none) g
  | estimated {f} : f.gradient = .ok none →
      GradientFor p (f, none) (.estimated p ⟨.forward, f.asRule, Estimator.defaultStep⟩)

/-- The gradient that belongs to a function, if there is one. -/
def Handed.gradient? (p : Precision) (h : Handed m α) : Option (VectorFunction m α) :=
  ((Builder.start .null p).gradientOf h.1 h.2).toOption

theorem Handed.gradient?_eq_some {p : Precision} {h : Handed m α} {g : VectorFunction m α} :
    h.gradient? p = some g ↔ GradientFor p h g := by
  obtain ⟨f, _ | c⟩ := h
  · show (f.gradient >>= _).toOption = _ ↔ _
    rcases hf : f.gradient with e | _ | own
    · refine ⟨nofun, fun h => ?_⟩
      cases h with
      | own h => cases hf.symm.trans h
      | estimated h => cases hf.symm.trans h
    · constructor
      · intro h
        obtain rfl := Option.some.inj h
        exact .estimated hf
      · intro h
        cases h with
        | own h => cases hf.symm.trans h
        | estimated _ => rfl
    · constructor
      · intro h
        obtain rfl := Option.some.inj h
        exact .own hf
      · intro h
        cases h with
        | own h =>
          obtain rfl := Option.some.inj (Except.ok.inj (hf.symm.trans h))
          rfl
        | estimated h => cases hf.symm.trans h
  · show (VectorFunction.of c).toOption = some g ↔ _
    rcases hc : VectorFunction.of c with e | g'
    · refine ⟨nofun, fun h => ?_⟩
      cases h with
      | given h => cases hc.symm.trans h
    · constructor
      · intro h
        obtain rfl := Option.some.inj h
        exact .given hc
      · intro h
        cases h with
        | given h =>
          obtain rfl := Except.ok.inj (hc.symm.trans h)
          rfl

end Gradient

namespace Builder

/-- A call of a builder. -/
inductive Call (m : Type → Type) (α : Type) where
  | objective (f : Option (ScalarCandidate m α)) (given : Option (VectorCandidate m α))
  | constraint (f : Option (ScalarCandidate m α)) (given : Option (VectorCandidate m α))

/-- What a candidate and the gradient beside it hand over; nothing if it is no function. -/
def handed? (f : Option (ScalarCandidate m α)) (given : Option (VectorCandidate m α)) :
    Option (Handed m α) :=
  f.bind fun candidate => (ScalarFunction.of candidate).toOption.map fun f => (f, given)

/-- The objective that a call hands over. -/
def Call.objective? : Call m α → Option (Handed m α)
  | .objective f given => handed? f given
  | .constraint _ _ => none

/-- The constraint that a call hands over. -/
def Call.constraint? : Call m α → Option (Handed m α)
  | .objective _ _ => none
  | .constraint f given => handed? f given

variable [Monad m]

/-- Makes a call: its outcome, and the builder that it leaves. -/
def call (b : Builder m α) : Call m α → Except Failure Unit × Builder m α
  | .objective f given => b.setObjective f given
  | .constraint f given => b.addConstraint f given

/-- The builder after some calls, whether they failed or not. -/
def after (b : Builder m α) (calls : List (Call m α)) : Builder m α :=
  calls.foldl (fun b c => (b.call c).2) b

/-- The gradient depends on what is handed over, and not on what the builder holds. -/
theorem toOption_gradientOf (b : Builder m α) (h : Handed m α) :
    (b.gradientOf h.1 h.2).toOption = h.gradient? b.precision := rfl

/-- A builder with an objective handed over, and with its gradient if there is one. -/
def withObjective (b : Builder m α) (h : Handed m α) : Builder m α :=
  { b with objective := some h.1, gradient := (h.gradient? b.precision).or b.gradient }

/-- A builder with a constraint handed over, and with its gradient if there is one. -/
def withConstraint (b : Builder m α) (h : Handed m α) : Builder m α :=
  { b with
    constraints := b.constraints ++ [h.1]
    constraintGradients := b.constraintGradients ++ (h.gradient? b.precision).toList }

theorem setObjective_snd (b : Builder m α) (f : Option (ScalarCandidate m α))
    (given : Option (VectorCandidate m α)) :
    (b.setObjective f given).2 = ((handed? f given).map b.withObjective).getD b := by
  rcases f with _ | candidate
  · rfl
  unfold setObjective handed?
  rcases hf : ScalarFunction.of candidate with e | f
  · simp [hf, Except.toOption]
  · have hg := b.toOption_gradientOf (f, given)
    have hsame : ({ b with objective := some f } : Builder m α).gradientOf f given
      = b.gradientOf f given := rfl
    simp only [hf, hsame, Option.bind_some, Except.toOption, Option.map_some, Option.getD_some,
      withObjective, ← hg]
    rcases b.gradientOf f given with e | g <;> rfl

theorem addConstraint_snd (b : Builder m α) (f : Option (ScalarCandidate m α))
    (given : Option (VectorCandidate m α)) :
    (b.addConstraint f given).2 = ((handed? f given).map b.withConstraint).getD b := by
  rcases f with _ | candidate
  · rfl
  unfold addConstraint handed?
  rcases hf : ScalarFunction.of candidate with e | f
  · simp [hf, Except.toOption]
  · have hg := b.toOption_gradientOf (f, given)
    have hsame : ({ b with constraints := b.constraints ++ [f] } : Builder m α).gradientOf f given
      = b.gradientOf f given := rfl
    simp only [hf, hsame, Option.bind_some, Except.toOption, Option.map_some, Option.getD_some,
      withConstraint, ← hg]
    rcases b.gradientOf f given with e | g
    · simp
    · rfl

/-- The objectives that some calls hand over, in order. -/
def objectives (calls : List (Call m α)) : List (Handed m α) := calls.filterMap Call.objective?

/-- The constraints that some calls hand over, in order. -/
def constraintsOf (calls : List (Call m α)) : List (Handed m α) := calls.filterMap Call.constraint?

omit [Scalar α] [Monad m] in
theorem objectives_concat (calls : List (Call m α)) (c : Call m α) :
    objectives (calls ++ [c]) = objectives calls ++ c.objective?.toList := by
  rw [objectives, objectives, List.filterMap_append]
  cases h : c.objective? <;> simp [h]

omit [Scalar α] [Monad m] in
theorem constraintsOf_concat (calls : List (Call m α)) (c : Call m α) :
    constraintsOf (calls ++ [c]) = constraintsOf calls ++ c.constraint?.toList := by
  rw [constraintsOf, constraintsOf, List.filterMap_append]
  cases h : c.constraint? <;> simp [h]

theorem after_concat (b : Builder m α) (calls : List (Call m α)) (c : Call m α) :
    b.after (calls ++ [c]) = ((b.after calls).call c).2 := by
  rw [after, List.foldl_append]
  rfl

/-- A builder that was handed objectives and constraints holds the function of the last objective and
the last gradient of any objective, the functions of all constraints, and the gradients of those
constraints that have one. Estimated gradients have precision `p`. -/
structure Holds (b : Builder m α) (p : Precision) (fs gs : List (Handed m α)) : Prop where
  precision : b.precision = p
  objective : b.objective = (fs.map Prod.fst).getLast?
  gradient : b.gradient = (fs.filterMap (Handed.gradient? p)).getLast?
  constraints : b.constraints = gs.map Prod.fst
  constraintGradients : b.constraintGradients = gs.filterMap (Handed.gradient? p)

theorem holds_start (dimension : Value) (p : Precision) :
    (start dimension p : Builder m α).Holds p [] [] :=
  ⟨rfl, rfl, rfl, rfl, rfl⟩

theorem Holds.withObjective {b : Builder m α} {p : Precision} {fs gs : List (Handed m α)}
    (h : b.Holds p fs gs) (handed : Handed m α) :
    (b.withObjective handed).Holds p (fs ++ [handed]) gs where
  precision := h.precision
  objective := by rw [List.map_append, List.map_singleton, List.getLast?_concat]; rfl
  gradient := by
    show (handed.gradient? b.precision).or b.gradient = _
    rw [h.precision, h.gradient, List.filterMap_append, List.getLast?_append]
    cases hg : handed.gradient? p <;> simp [hg]
  constraints := h.constraints
  constraintGradients := h.constraintGradients

theorem Holds.withConstraint {b : Builder m α} {p : Precision} {fs gs : List (Handed m α)}
    (h : b.Holds p fs gs) (handed : Handed m α) :
    (b.withConstraint handed).Holds p fs (gs ++ [handed]) where
  precision := h.precision
  objective := h.objective
  gradient := h.gradient
  constraints := by
    show b.constraints ++ [handed.1] = _
    rw [h.constraints, List.map_append, List.map_singleton]
  constraintGradients := by
    show b.constraintGradients ++ (handed.gradient? b.precision).toList = _
    rw [h.precision, h.constraintGradients, List.filterMap_append]
    cases hg : handed.gradient? p <;> simp [hg]

/-- A call adds what it hands over, whether it finds a gradient or not. -/
theorem Holds.call {b : Builder m α} {p : Precision} {fs gs : List (Handed m α)}
    (h : b.Holds p fs gs) (c : Call m α) :
    (b.call c).2.Holds p (fs ++ c.objective?.toList) (gs ++ c.constraint?.toList) := by
  cases c with
  | objective f given =>
    show (b.setObjective f given).2.Holds p (fs ++ (handed? f given).toList) (gs ++ [])
    rw [setObjective_snd, List.append_nil]
    cases handed? f given with
    | none => simpa using h
    | some handed => exact h.withObjective handed
  | constraint f given =>
    show (b.addConstraint f given).2.Holds p (fs ++ []) (gs ++ (handed? f given).toList)
    rw [addConstraint_snd, List.append_nil]
    cases handed? f given with
    | none => simpa using h
    | some handed => exact h.withConstraint handed

/-- After any calls a builder holds what the calls have handed over. -/
theorem holds_after (dimension : Value) (p : Precision) (calls : List (Call m α)) :
    ((start dimension p).after calls).Holds p (objectives calls) (constraintsOf calls) := by
  induction calls using List.reverseRecOn with
  | nil => exact holds_start dimension p
  | append_singleton calls c ih =>
    rw [after_concat, objectives_concat, constraintsOf_concat]
    exact ih.call c

end Builder

/-- Where every item has an image, the images come in the order of the items. -/
theorem forall₂_filterMap {β γ : Type} {f : β → Option γ} {xs : List β}
    (h : (xs.filterMap f).length = xs.length) :
    List.Forall₂ (fun x y => f x = some y) xs (xs.filterMap f) := by
  induction xs with
  | nil => exact .nil
  | cons x xs ih =>
    have hle : (xs.filterMap f).length ≤ xs.length := List.length_filterMap_le f xs
    cases hx : f x with
    | none =>
      rw [List.filterMap_cons_none hx, List.length_cons] at h
      omega
    | some y =>
      rw [List.filterMap_cons_some hx] at h ⊢
      exact .cons hx (ih (Nat.succ.inj h))

theorem forall₂_zip {β γ δ : Type} {R : β → γ → Prop} {f : β → δ} {xs : List β} {ys : List γ}
    (h : List.Forall₂ R xs ys) :
    List.Forall₂ (fun x y => f x = y.1 ∧ R x y.2) xs ((xs.map f).zip ys) := by
  induction h with
  | nil => exact .nil
  | cons hxy _ ih => exact .cons ⟨rfl, hxy⟩ ih

namespace Builder

variable [Monad m]

omit [Scalar α] [Monad m] in
/-- The parts of a problem that was built are what the builder holds. -/
theorem build_eq_ok {b : Builder m α} {problem : Problem m α} (h : b.build = .ok problem) :
    b.objective = some problem.objective ∧ b.gradient = some problem.gradient ∧
      b.constraints = problem.constraints ∧
      b.constraintGradients = problem.constraintGradients := by
  unfold build at h
  split at h
  next f df hf hdf =>
    unfold Problem.of at h
    split at h
    next => cases h
    next => cases h
    next =>
      split at h
      next =>
        obtain rfl := Except.ok.inj h
        exact ⟨hf, hdf, rfl, rfl⟩
      next => cases h
  next => cases h

/-- What a problem pairs that was built after any calls, some of which may have failed. Its
constraints are those that the calls have handed over, in order, each with the gradient that belongs
to it. Its objective is the one that was handed over last, and its gradient belongs to one of the
objectives: to the last one exactly if there is a gradient for it, so if that call did not fail. -/
theorem build_pairs {dimension : Value} {p : Precision} {calls : List (Call m α)}
    {problem : Problem m α} (h : ((start dimension p).after calls).build = .ok problem) :
    List.Forall₂ (fun handed pair => handed.1 = pair.1 ∧ GradientFor p handed pair.2)
        (constraintsOf calls) problem.constraintPairs ∧
      (∃ handed ∈ objectives calls, GradientFor p handed problem.gradient) ∧
      ∃ handed, (objectives calls).getLast? = some handed ∧ handed.1 = problem.objective ∧
        ((∃ g, GradientFor p handed g) ↔ GradientFor p handed problem.gradient) := by
  obtain ⟨hobjective, hgradient, hconstraints, hgradients⟩ := build_eq_ok h
  have hb := holds_after dimension p calls
  rw [hb.objective] at hobjective
  rw [hb.gradient] at hgradient
  rw [hb.constraints] at hconstraints
  rw [hb.constraintGradients] at hgradients
  refine ⟨?_, ?_, ?_⟩
  · -- There are as many gradients as constraints, so every constraint has found one.
    have hlength := problem.length_gradients
    rw [← hconstraints, ← hgradients, List.length_map] at hlength
    have hpairs := forall₂_zip (f := Prod.fst) (forall₂_filterMap hlength.symm)
    rw [Problem.constraintPairs, ← hconstraints, ← hgradients]
    exact hpairs.imp fun handed pair hpair =>
      ⟨hpair.1, Handed.gradient?_eq_some.mp hpair.2⟩
  · obtain ⟨handed, hmem, hg⟩ := List.mem_filterMap.mp (List.mem_of_getLast? hgradient)
    exact ⟨handed, hmem, Handed.gradient?_eq_some.mp hg⟩
  · rw [List.getLast?_map, Option.map_eq_some_iff] at hobjective
    obtain ⟨handed, hlast, hobjective⟩ := hobjective
    refine ⟨handed, hlast, hobjective, fun ⟨g, hg⟩ => ?_, fun hg => ⟨_, hg⟩⟩
    -- If the last objective has a gradient, it is the last gradient of any objective.
    obtain ⟨earlier, hlast⟩ := List.getLast?_eq_some_iff.mp hlast
    have hsome := Handed.gradient?_eq_some.mpr hg
    rw [hlast, List.filterMap_append, List.filterMap_cons_some hsome, List.filterMap_nil,
      List.getLast?_concat] at hgradient
    rwa [← Option.some.inj hgradient]

/-- An objective with its gradient and a constraint, between calls that fail: without a function, with
a value that is no function, and for an objective with a value that is no function either. -/
theorem build_pairs_between_failures :
    let square : Rule Id Float := fun x => do
      let v ← x.get 0
      return .ofNumber (v * v)
    let slope : Field Id Float := fun x => return x.scale Scalar.two
    let calls : List (Call Id Float) :=
      [.constraint none none, .objective (some (.rule square)) (some (.rule slope)),
        .objective none none, .constraint (some (.other (.int 3))) none,
        .constraint (some (.rule square)) none, .objective (some (.other .null)) none]
    ∃ problem, ((start (.int 1) .double).after calls).build = .ok problem ∧
      List.Forall₂ (fun handed pair => handed.1 = pair.1 ∧ GradientFor .double handed pair.2)
          (constraintsOf calls) problem.constraintPairs ∧
        (∃ handed ∈ objectives calls, GradientFor .double handed problem.gradient) ∧
        ∃ handed, (objectives calls).getLast? = some handed ∧ handed.1 = problem.objective ∧
          ((∃ g, GradientFor .double handed g) ↔ GradientFor .double handed problem.gradient) := by
  intro square slope calls
  have h : ((start (.int 1) .double).after calls).build = .ok _ := rfl
  exact ⟨_, h, build_pairs h⟩

/-- A square with its gradient is handed over as objective, then three times the coordinate as a
function that is meant to have a gradient and has none. The second call fails, and the problem that is
built has the second objective with the gradient of the first one. -/
theorem build_unpaired :
    let square : Rule Id Float := fun x => do
      let v ← x.get 0
      return .ofNumber (v * v)
    let slope : Field Id Float := fun x => return x.scale Scalar.two
    let triple : Rule Id Float := fun x => do
      let v ← x.get 0
      return .ofNumber (v + v + v)
    let calls : List (Call Id Float) :=
      [.objective (some (.rule square)) (some (.rule slope)),
        .objective (some (.function (.withGradient (some triple) none))) none]
    ∃ problem, ((start (.int 1) .double).after calls).build = .ok problem ∧
      problem.objective = .withGradient (some triple) none ∧
      problem.gradient = .field (some slope) ∧
      ¬∃ handed ∈ objectives calls, handed.1 = problem.objective ∧
        GradientFor .double handed problem.gradient := by
  intro square slope triple calls
  refine ⟨_, rfl, rfl, rfl, ?_⟩
  rintro ⟨handed, hmem, hf, hg⟩
  rcases List.mem_cons.mp hmem with rfl | hmem
  · cases hf
  · obtain rfl := List.mem_singleton.mp hmem
    -- Nothing was given beside the second objective, and it has no gradient of its own.
    cases hg with
    | own h => cases h

end Builder

end Minimization
