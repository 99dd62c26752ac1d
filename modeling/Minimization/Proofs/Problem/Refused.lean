import Minimization.Proofs.Problem.Pairing

/-!
# Constraints that are refused

A call that adds a constraint can fail in two ways. If it hands over no function, the builder is left as it
was. If it hands over a function without a gradient, the function stays behind: the builder is left with a
surplus constraint (`Builder.withSurplus`), which no later call makes good. Every later call has the outcome
that it would have had without it, and leaves the builder that it would have left, but for the surplus
constraint. Nothing can be built any more: where the problem would have been refused anyway because of its
objective or its dimension it still is, and everywhere else a gradient is missing.
-/

namespace Minimization.Builder

variable {m : Type → Type} {α : Type} [Scalar α]

/-- A builder with one more constraint at a place, and with no gradient for it. -/
def withSurplus (b : Builder m α) (i : Nat) (f : ScalarFunction m α) : Builder m α :=
  { b with constraints := b.constraints.take i ++ f :: b.constraints.drop i }

/-- Why nothing can be built, whatever the constraints are. -/
def refusal? (b : Builder m α) : Option Failure :=
  match b.objective, b.gradient with
  | some _, some _ =>
    match b.dimension.isBelow (.int 1) with
    | .error e => some e
    | .ok true => some (.problem (.dimension b.dimension.display))
    | .ok false => none
  | _, _ => some (.problem .noObjective)

omit [Scalar α] in
theorem build_of_refusal {b : Builder m α} {e : Failure} (h : b.refusal? = some e) :
    b.build = .error e := by
  obtain ⟨dimension, p, objective, gradient, constraints, constraintGradients⟩ := b
  rcases objective with _ | f
  · exact congrArg Except.error (Option.some.inj h)
  rcases gradient with _ | df
  · exact congrArg Except.error (Option.some.inj h)
  show Problem.of dimension f df constraints constraintGradients = .error e
  unfold refusal? at h
  unfold Problem.of
  dsimp only at h
  split
  next e' hd =>
    rw [hd] at h
    exact congrArg Except.error (Option.some.inj h)
  next hd =>
    rw [hd] at h
    exact congrArg Except.error (Option.some.inj h)
  next hd =>
    rw [hd] at h
    cases h

omit [Scalar α] in
/-- Where nothing else is wrong, as many gradients as constraints are needed. -/
theorem build_of_length_ne {b : Builder m α} (h : b.constraints.length ≠ b.constraintGradients.length) :
    b.build = .error (b.refusal?.getD
      (.problem (.unpaired b.constraints.length b.constraintGradients.length))) := by
  rcases hrefusal : b.refusal? with _ | e
  · obtain ⟨dimension, p, objective, gradient, constraints, constraintGradients⟩ := b
    rcases objective with _ | f
    · cases hrefusal
    rcases gradient with _ | df
    · cases hrefusal
    show Problem.of dimension f df constraints constraintGradients = _
    unfold refusal? at hrefusal
    unfold Problem.of
    dsimp only at hrefusal
    split
    next e' hd =>
      rw [hd] at hrefusal
      cases hrefusal
    next hd =>
      rw [hd] at hrefusal
      cases hrefusal
    next => exact dif_neg h
  · exact build_of_refusal hrefusal

variable [Monad m]

/-! ## Calls beside a surplus constraint -/

theorem setObjective_withSurplus (b : Builder m α) (i : Nat) (surplus : ScalarFunction m α)
    (f : Option (ScalarCandidate m α)) (given : Option (VectorCandidate m α)) :
    (b.withSurplus i surplus).setObjective f given =
      ((b.setObjective f given).1, (b.setObjective f given).2.withSurplus i surplus) := by
  rcases f with _ | candidate
  · rfl
  unfold setObjective
  dsimp only
  rcases ScalarFunction.of candidate with e | f
  · rfl
  have hsame : ({ b.withSurplus i surplus with objective := some f } : Builder m α).gradientOf f given
    = ({ b with objective := some f } : Builder m α).gradientOf f given := rfl
  dsimp only
  rw [hsame]
  rcases Builder.gradientOf _ f given with e | g
  · rfl
  · rfl

/-- The next constraint comes behind the surplus one. -/
theorem addConstraint_withSurplus {b : Builder m α} {i : Nat} (hi : i ≤ b.constraints.length)
    (surplus : ScalarFunction m α) (f : Option (ScalarCandidate m α))
    (given : Option (VectorCandidate m α)) :
    (b.withSurplus i surplus).addConstraint f given =
      ((b.addConstraint f given).1, (b.addConstraint f given).2.withSurplus i surplus) := by
  rcases f with _ | candidate
  · rfl
  unfold addConstraint
  dsimp only
  rcases ScalarFunction.of candidate with e | f
  · rfl
  have hbehind : (b.withSurplus i surplus).constraints ++ [f]
      = (b.constraints ++ [f]).take i ++ surplus :: (b.constraints ++ [f]).drop i := by
    rw [List.take_append_of_le_length hi, List.drop_append_of_le_length hi, ← List.cons_append,
      ← List.append_assoc]
    rfl
  have hsame : ({ b.withSurplus i surplus with
      constraints := (b.withSurplus i surplus).constraints ++ [f] } : Builder m α).gradientOf f given
    = ({ b with constraints := b.constraints ++ [f] } : Builder m α).gradientOf f given := rfl
  dsimp only
  rw [hsame, hbehind]
  rcases Builder.gradientOf _ f given with e | g
  · rfl
  · rfl

/-- A call has the outcome that it has without the surplus constraint. -/
theorem call_withSurplus {b : Builder m α} {i : Nat} (hi : i ≤ b.constraints.length)
    (surplus : ScalarFunction m α) (c : Call m α) :
    (b.withSurplus i surplus).call c = ((b.call c).1, (b.call c).2.withSurplus i surplus) := by
  cases c with
  | objective f given => exact setObjective_withSurplus b i surplus f given
  | constraint f given => exact addConstraint_withSurplus hi surplus f given

theorem length_constraints_le_call (b : Builder m α) (c : Call m α) :
    b.constraints.length ≤ (b.call c).2.constraints.length := by
  cases c with
  | objective f given =>
    show _ ≤ (b.setObjective f given).2.constraints.length
    rw [setObjective_snd]
    cases handed? f given with
    | none => exact Nat.le_refl _
    | some handed => exact Nat.le_refl _
  | constraint f given =>
    show _ ≤ (b.addConstraint f given).2.constraints.length
    rw [addConstraint_snd]
    cases handed? f given with
    | none => exact Nat.le_refl _
    | some handed =>
      show _ ≤ (b.constraints ++ [handed.1]).length
      simp

theorem length_constraints_le_after (b : Builder m α) (calls : List (Call m α)) :
    b.constraints.length ≤ (b.after calls).constraints.length := by
  induction calls generalizing b with
  | nil => exact Nat.le_refl _
  | cons c calls ih => exact Nat.le_trans (b.length_constraints_le_call c) (ih (b.call c).2)

/-- Calls never make a surplus constraint good. -/
theorem after_withSurplus {b : Builder m α} {i : Nat} (hi : i ≤ b.constraints.length)
    (surplus : ScalarFunction m α) (calls : List (Call m α)) :
    (b.withSurplus i surplus).after calls = (b.after calls).withSurplus i surplus := by
  induction calls generalizing b with
  | nil => rfl
  | cons c calls ih =>
    show ((b.withSurplus i surplus).call c).2.after calls = ((b.call c).2.after calls).withSurplus i surplus
    rw [call_withSurplus hi]
    exact ih (Nat.le_trans hi (b.length_constraints_le_call c))

/-! ## Refused constraints -/

/-- A constraint is refused if no function is handed over, or one without a gradient. -/
theorem addConstraint_fst_eq_error {b : Builder m α} {f : Option (ScalarCandidate m α)}
    {given : Option (VectorCandidate m α)} {e : Failure} (h : (b.addConstraint f given).1 = .error e) :
    handed? f given = none ∨ ∃ handed, handed? f given = some handed ∧ handed.gradient? b.precision = none := by
  rcases f with _ | candidate
  · exact .inl rfl
  unfold addConstraint at h
  unfold handed?
  rcases hf : ScalarFunction.of candidate with e' | f
  · exact .inl (by simp [hf, Except.toOption])
  · refine .inr ⟨(f, given), by simp [hf, Except.toOption], ?_⟩
    have hsame : ({ b with constraints := b.constraints ++ [f] } : Builder m α).gradientOf f given
      = b.gradientOf f given := rfl
    rw [← toOption_gradientOf]
    dsimp only at h ⊢
    rw [hf] at h
    dsimp only at h
    rw [hsame] at h
    rcases hg : b.gradientOf f given with e' | g
    · rfl
    · rw [hg] at h
      cases h

theorem addConstraint_snd_of_refused {b : Builder m α} {f : Option (ScalarCandidate m α)}
    {given : Option (VectorCandidate m α)} {handed : Handed m α} (h : handed? f given = some handed)
    (hg : handed.gradient? b.precision = none) :
    (b.addConstraint f given).2 = b.withSurplus b.constraints.length handed.1 := by
  rw [addConstraint_snd, h]
  show b.withConstraint handed = _
  rw [withConstraint, hg, withSurplus, List.take_length, List.drop_length, Option.toList_none, List.append_nil]

/-- A builder never has more gradients than constraints. -/
theorem Holds.length_gradients_le {b : Builder m α} {p : Precision} {fs gs : List (Handed m α)}
    (h : b.Holds p fs gs) : b.constraintGradients.length ≤ b.constraints.length := by
  rw [h.constraints, h.constraintGradients, List.length_map]
  exact List.length_filterMap_le _ gs

omit [Scalar α] [Monad m] in
theorem build_withSurplus {b : Builder m α} (h : b.constraintGradients.length ≤ b.constraints.length)
    (i : Nat) (surplus : ScalarFunction m α) :
    (b.withSurplus i surplus).build = .error (b.refusal?.getD
      (.problem (.unpaired (b.constraints.length + 1) b.constraintGradients.length))) := by
  have hlength : (b.withSurplus i surplus).constraints.length = b.constraints.length + 1 := by
    show (b.constraints.take i ++ surplus :: b.constraints.drop i).length = _
    rw [List.length_append, List.length_cons, ← Nat.add_assoc, ← List.length_append, List.take_append_drop]
  rw [build_of_length_ne, hlength]
  · rfl
  · rw [hlength]
    exact Nat.ne_of_gt (Nat.lt_succ_of_le h)

/-- After any calls, a constraint that is refused because no function is handed over leaves the builder
as it was. One that is refused because its function has no gradient leaves that function behind. Then
every later call has the outcome that it would have had, but nothing can be built any more: a problem
that would have been refused before its constraints are looked at still is, and every other one is
refused because a gradient is missing. -/
theorem build_after_refused {dimension : Value} {p : Precision} {calls : List (Call m α)}
    {f : Option (ScalarCandidate m α)} {given : Option (VectorCandidate m α)} {e : Failure}
    (h : (((start dimension p).after calls).addConstraint f given).1 = .error e) (later : List (Call m α)) :
    let b : Builder m α := (start dimension p).after calls
    let refused := (b.addConstraint f given).2
    let without := b.after later
    handed? f given = none ∧ refused = b ∨
      ∃ handed, handed? f given = some handed ∧ handed.gradient? p = none ∧
        refused.after later = without.withSurplus b.constraints.length handed.1 ∧
        (∀ c, ((refused.after later).call c).1 = (without.call c).1) ∧
        (∀ reason, without.refusal? = some reason → without.build = .error reason) ∧
        (refused.after later).build = .error (without.refusal?.getD
          (.problem (.unpaired (without.constraints.length + 1) without.constraintGradients.length))) := by
  intro b refused without
  have hb : b.Holds p _ _ := holds_after dimension p calls
  have hwithout : without = (start dimension p).after (calls ++ later) := List.foldl_append.symm
  have hlength : without.constraintGradients.length ≤ without.constraints.length := by
    rw [hwithout]
    exact (holds_after dimension p (calls ++ later)).length_gradients_le
  rcases addConstraint_fst_eq_error h with hnone | ⟨handed, hhanded, hg⟩
  · refine .inl ⟨hnone, ?_⟩
    show (b.addConstraint f given).2 = b
    rw [addConstraint_snd, hnone]
    rfl
  · have hrefused : refused.after later = without.withSurplus b.constraints.length handed.1 := by
      show (b.addConstraint f given).2.after later = _
      rw [addConstraint_snd_of_refused hhanded hg]
      exact after_withSurplus (Nat.le_refl _) handed.1 later
    refine .inr ⟨handed, hhanded, hb.precision ▸ hg, hrefused, fun c => ?_, fun _ => build_of_refusal, ?_⟩
    · rw [hrefused, call_withSurplus (length_constraints_le_after b later)]
    · rw [hrefused, build_withSurplus hlength]

/-- A square is handed over as objective, then the coordinate as a constraint that is meant to have a
gradient and has none, and then the square as a constraint with its gradient. -/
theorem build_after_refused_coordinate :
    let square : Rule Id Float := fun x => do
      let v ← x.get 0
      return .ofNumber (v * v)
    let slope : Field Id Float := fun x => return x.scale Scalar.two
    let coordinate : Rule Id Float := fun x => do return .ofNumber (← x.get 0)
    let f : Option (ScalarCandidate Id Float) := some (.function (.withGradient (some coordinate) none))
    let calls : List (Call Id Float) := [.objective (some (.rule square)) (some (.rule slope))]
    let later : List (Call Id Float) := [.constraint (some (.rule square)) (some (.rule slope))]
    let b : Builder Id Float := (start (.int 1) .double).after calls
    let refused := (b.addConstraint f none).2
    let without := b.after later
    (b.addConstraint f none).1 = .error (.noGradient "ScalarFunctionWithGradient") ∧
    (handed? f none = none ∧ refused = b ∨
      ∃ handed, handed? f none = some handed ∧ handed.gradient? .double = none ∧
        refused.after later = without.withSurplus b.constraints.length handed.1 ∧
        (∀ c, ((refused.after later).call c).1 = (without.call c).1) ∧
        (∀ reason, without.refusal? = some reason → without.build = .error reason) ∧
        (refused.after later).build = .error (without.refusal?.getD
          (.problem (.unpaired (without.constraints.length + 1) without.constraintGradients.length)))) := by
  intro square slope coordinate f calls later b refused without
  have h : (b.addConstraint f none).1 = .error (.noGradient "ScalarFunctionWithGradient") := rfl
  exact ⟨h, build_after_refused h later⟩

/-- With a square as objective a problem can be built. After a constraint was refused that has no
gradient, none can. -/
theorem build_fails_after_refused :
    let square : Rule Id Float := fun x => do
      let v ← x.get 0
      return .ofNumber (v * v)
    let slope : Field Id Float := fun x => return x.scale Scalar.two
    let coordinate : Rule Id Float := fun x => do return .ofNumber (← x.get 0)
    let constraint : Call Id Float :=
      .constraint (some (.function (.withGradient (some coordinate) none))) none
    let b : Builder Id Float :=
      (start (.int 1) .double).after [.objective (some (.rule square)) (some (.rule slope))]
    (b.call constraint).1 = .error (.noGradient "ScalarFunctionWithGradient") ∧
      (∃ problem, b.build = .ok problem) ∧
      (b.call constraint).2.build = .error (.problem (.unpaired 1 0)) := by
  intro square slope coordinate constraint b
  exact ⟨rfl, ⟨_, rfl⟩, rfl⟩

end Minimization.Builder
