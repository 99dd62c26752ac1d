import Mathlib.Order.Defs.Unbundled
import Minimization.Constrained.Penalty
import Minimization.Proofs.Outcome
import Minimization.Proofs.Tensor.Defined

/-!
# Evaluating a problem

The objectives that stand for a constrained problem are evaluated by evaluating its own functions one
after the other. So they keep what those keep (`Problem.keeps_augmentedValue` and its like), and they
succeed where those do. The augmented objective and the barrier then have a value whatever numbers
come up: a logarithm is only taken of a positive slack. The gradients have to have the shape of the point,
and that of the barrier brings them to norm one, which takes numbers that tell what is zero from what
is not (`Scalar.DiscernsZero`).
-/

namespace Minimization

variable {m : Type → Type} [Monad m] {ω : Type} [Stateful m ω] {α : Type}

/-- A rule that answers a number is evaluated like the number. -/
theorem attempt_number_ofNumber (e : Tensor α → Evaluation m α) (x : Tensor α) (w : ω) :
    attempt (Rule.number (fun x => do return .ofNumber (← e x)) x) w = attempt (e x) w := by
  unfold Rule.number
  rw [attempt_bind, attempt_bind]
  rcases attempt (e x) w with ⟨e | a, u⟩
  · rfl
  · dsimp only
    rw [attempt_pure]
    exact attempt_lift _ _

namespace Problem

variable [Scalar α] {p : Problem m α} {q : Precision} {multipliers : List α} {weight : α}
  {x : Tensor α}

theorem attempt_evaluate_augmented {lambda : Tensor α} {f : ScalarFunction m α}
    (h : p.augmented q lambda weight = .ok f) (x : Tensor α) (w : ω) :
    attempt (f.evaluate x) w = attempt (p.augmentedValue lambda.entries weight x) w := by
  unfold augmented at h
  split at h
  next => cases h
  next =>
    obtain rfl := Except.ok.inj h
    exact attempt_number_ofNumber _ x w

/-- A field is evaluated as it is. -/
theorem attempt_evaluate_field (rule : Field m α) (x : Tensor α) (w : ω) :
    attempt ((VectorFunction.field (some rule)).evaluate x) w = attempt (rule x) w := by
  show Stateful.run (((rule x).run >>= fun r => pure (r, x)) >>= fun o => pure o.1) w = _
  rw [Stateful.run_bind, Stateful.run_bind, Stateful.run_pure, Stateful.run_pure]
  rfl

/-- The augmented objective has a gradient of its own. -/
theorem gradient_augmented {lambda : Tensor α} {f : ScalarFunction m α}
    (h : p.augmented q lambda weight = .ok f) :
    f.gradient = .ok (some (.field (some (p.augmentedGradient q lambda.entries weight)))) := by
  unfold augmented at h
  split at h
  next => cases h
  next =>
    obtain rfl := Except.ok.inj h
    rfl

theorem attempt_evaluate_barrier (x : Tensor α) (w : ω) :
    attempt ((p.barrier q weight).evaluate x) w = attempt (p.barrierValue weight x) w :=
  attempt_number_ofNumber _ x w

/-! ## What evaluations keep -/

section Keeps

variable {R : ω → ω → Prop} [Std.Refl R] [Trans R R R]

theorem keeps_addPenalties {cs : List (α × ScalarFunction m α)}
    (h : ∀ c ∈ cs, Keeps R (c.2.evaluate x)) (acc : α) : Keeps R (addPenalties weight x acc cs) := by
  induction cs generalizing acc with
  | nil => exact .pure acc
  | cons c cs ih =>
    exact .bind (h c (List.mem_cons_self ..)) fun _ =>
      ih (fun c hc => h c (List.mem_cons_of_mem _ hc)) _

theorem keeps_addPenaltyGradients {cs : List (α × ScalarFunction m α × VectorFunction m α)}
    (h : ∀ c ∈ cs, Keeps R (c.2.1.evaluate x) ∧ Keeps R (c.2.2.evaluate x)) (acc : Tensor α) :
    Keeps R (addPenaltyGradients weight x acc cs) := by
  induction cs generalizing acc with
  | nil => exact .pure acc
  | cons c cs ih =>
    obtain ⟨hg, hdg⟩ := h c (List.mem_cons_self ..)
    have hrest := ih fun c hc => h c (List.mem_cons_of_mem _ hc)
    refine .bind hg fun gx => ?_
    dsimp only
    split
    · exact hrest acc
    · exact .bind hdg fun _ => .bind (.lift _) fun _ => hrest _

theorem keeps_subtractBarriers {cs : List (ScalarFunction m α)}
    (h : ∀ g ∈ cs, Keeps R (g.evaluate x)) (acc : α) : Keeps R (subtractBarriers weight x acc cs) := by
  induction cs generalizing acc with
  | nil => exact .pure acc
  | cons g cs ih =>
    refine .bind (h g (List.mem_cons_self ..)) fun gx => ?_
    dsimp only
    split
    · exact .pure _
    · exact .bind (.lift _) fun _ => ih (fun g hg => h g (List.mem_cons_of_mem _ hg)) _

theorem keeps_addBarrierGradients {cs : List (ScalarFunction m α × VectorFunction m α)}
    (h : ∀ c ∈ cs, Keeps R (c.1.evaluate x) ∧ Keeps R (c.2.evaluate x)) (acc : Tensor α) :
    Keeps R (addBarrierGradients q weight x acc cs) := by
  induction cs generalizing acc with
  | nil => exact .pure acc
  | cons c cs ih =>
    obtain ⟨hg, hdg⟩ := h c (List.mem_cons_self ..)
    have hrest := ih fun c hc => h c (List.mem_cons_of_mem _ hc)
    refine .bind hg fun gx => .bind hdg fun _ => .bind (.lift _) fun _ => ?_
    split
    · exact .bind (.lift _) fun _ => .bind (.lift _) fun _ => hrest _
    · exact .bind (.lift _) fun _ => hrest _

variable (hf : ∀ x, Keeps R (p.objective.evaluate x))
  (hg : ∀ g ∈ p.constraints, ∀ x, Keeps R (g.evaluate x))

include hg in
omit [Scalar α] in
theorem keeps_constraintValues (x : Tensor α) : Keeps R (p.constraintValues x) :=
  .mapM fun g hmem => hg g hmem x

include hf hg

theorem keeps_augmentedValue (x : Tensor α) : Keeps R (p.augmentedValue multipliers weight x) :=
  .bind (hf x) fun _ => keeps_addPenalties (fun _ hc => hg _ (List.of_mem_zip hc).2 x) _

theorem keeps_barrierValue (x : Tensor α) : Keeps R (p.barrierValue weight x) :=
  .bind (hf x) fun _ => keeps_subtractBarriers (fun g hmem => hg g hmem x) _

omit hf
variable (hdf : ∀ x, Keeps R (p.gradient.evaluate x))
  (hdg : ∀ g ∈ p.constraintGradients, ∀ x, Keeps R (g.evaluate x))
include hdf hdg

theorem keeps_augmentedGradient (x : Tensor α) :
    Keeps R (p.augmentedGradient q multipliers weight x) := by
  refine .bind (hdf x) fun _ => keeps_addPenaltyGradients (fun c hc => ?_) _
  obtain ⟨hmem, hmem'⟩ := List.of_mem_zip (List.of_mem_zip hc).2
  exact ⟨hg _ hmem x, hdg _ hmem' x⟩

theorem keeps_barrierGradient (x : Tensor α) : Keeps R (p.barrierGradient q weight x) := by
  refine .bind (hdf x) fun _ => .bind (.lift _) fun _ => keeps_addBarrierGradients (fun c hc => ?_) _
  obtain ⟨hmem, hmem'⟩ := List.of_mem_zip hc
  exact ⟨hg _ hmem x, hdg _ hmem' x⟩

end Keeps

/-! ## Where evaluations succeed -/

section Succeeds

variable {I : ω → Prop}

theorem succeeds_addPenalties {cs : List (α × ScalarFunction m α)}
    (h : ∀ c ∈ cs, Succeeds I (c.2.evaluate x) fun _ => True) (acc : α) :
    Succeeds I (addPenalties weight x acc cs) fun _ => True := by
  induction cs generalizing acc with
  | nil => exact .pure trivial
  | cons c cs ih =>
    exact .bind (h c (List.mem_cons_self ..)) fun _ _ =>
      ih (fun c hc => h c (List.mem_cons_of_mem _ hc)) _

/-- Penalty gradients of one shape add up to that shape. -/
theorem succeeds_addPenaltyGradients {cs : List (α × ScalarFunction m α × VectorFunction m α)}
    {shape : List Nat} (h : ∀ c ∈ cs, Succeeds I (c.2.1.evaluate x) (fun _ => True) ∧
      Succeeds I (c.2.2.evaluate x) fun g => g.shape = shape) {acc : Tensor α} (hacc : acc.shape = shape) :
    Succeeds I (addPenaltyGradients weight x acc cs) fun g => g.shape = shape := by
  induction cs generalizing acc with
  | nil => exact .pure hacc
  | cons c cs ih =>
    obtain ⟨hg, hdg⟩ := h c (List.mem_cons_self ..)
    have hrest : ∀ c ∈ cs, Succeeds I (c.2.1.evaluate x) (fun _ => True) ∧
        Succeeds I (c.2.2.evaluate x) fun g => g.shape = shape :=
      fun c hc => h c (List.mem_cons_of_mem _ hc)
    refine .bind hg fun gx _ => ?_
    dsimp only
    split
    · exact ih hrest hacc
    · refine .bind hdg fun dgx hdgx => ?_
      obtain ⟨next, hnext, hshape⟩ := Tensor.combineInto_of_shape_eq "add_inp" (· + ·)
        (x := acc) (y := (dgx.convert .double).scale _) (hacc.trans hdgx.symm)
      exact .bind_lift hnext (ih hrest (hshape.trans hacc))

/-- Every slack is positive where its logarithm is taken. -/
theorem succeeds_subtractBarriers {cs : List (ScalarFunction m α)}
    (h : ∀ g ∈ cs, Succeeds I (g.evaluate x) fun _ => True) (acc : α) :
    Succeeds I (subtractBarriers weight x acc cs) fun _ => True := by
  induction cs generalizing acc with
  | nil => exact .pure trivial
  | cons g cs ih =>
    refine .bind (h g (List.mem_cons_self ..)) fun gx _ => ?_
    dsimp only
    split
    next => exact .pure trivial
    next hslack =>
      have hlog : Scalar.logarithm (-gx) = .ok (Scalar.log (-gx)) := if_neg hslack
      exact .bind_lift hlog (ih (fun g hg => h g (List.mem_cons_of_mem _ hg)) _)

/-- Directions of one shape add up to that shape; a weight is only divided by a value below zero. -/
theorem succeeds_addBarrierGradients (hz : Scalar.DiscernsZero α)
    {cs : List (ScalarFunction m α × VectorFunction m α)} {shape : List Nat}
    (h : ∀ c ∈ cs, Succeeds I (c.1.evaluate x) (fun _ => True) ∧
      Succeeds I (c.2.evaluate x) fun g => g.shape = shape) {acc : Tensor α} (hacc : acc.shape = shape) :
    Succeeds I (addBarrierGradients q weight x acc cs) fun g => g.shape = shape := by
  induction cs generalizing acc with
  | nil => exact .pure hacc
  | cons c cs ih =>
    obtain ⟨hg, hdg⟩ := h c (List.mem_cons_self ..)
    have hrest : ∀ c ∈ cs, Succeeds I (c.1.evaluate x) (fun _ => True) ∧
        Succeeds I (c.2.evaluate x) fun g => g.shape = shape :=
      fun c hc => h c (List.mem_cons_of_mem _ hc)
    refine .bind hg fun gx _ => .bind hdg fun dgx hdgx => ?_
    obtain ⟨d, hdirection, hd⟩ := Tensor.normalize_of_discernsZero hz q dgx
    have hshape : acc.shape = d.shape := hacc.trans (hd.trans hdgx).symm
    refine .bind_lift hdirection ?_
    split
    next hneg =>
      have hdivide : Scalar.divide weight gx = .ok (weight / gx) :=
        Scalar.divide_of_same_eq_false (hz.negative gx hneg) weight
      obtain ⟨next, hnext, hnextShape⟩ := Tensor.combineInto_of_shape_eq "sub_inp" (· - ·)
        (x := acc) (y := d.scale (weight / gx)) hshape
      exact .bind_lift hdivide (.bind_lift hnext (ih hrest (hnextShape.trans hacc)))
    next =>
      obtain ⟨next, hnext, hnextShape⟩ := Tensor.combineInto_of_shape_eq "add_inp" (· + ·)
        (x := acc) (y := d.scale (Scalar.one + gx)) hshape
      exact .bind_lift hnext (ih hrest (hnextShape.trans hacc))

variable (hf : Succeeds I (p.objective.evaluate x) fun _ => True)
  (hg : ∀ g ∈ p.constraints, Succeeds I (g.evaluate x) fun _ => True)

include hg in
omit [Scalar α] in
theorem succeeds_constraintValues :
    Succeeds I (p.constraintValues x) fun gx => gx.length = p.constraints.length :=
  (Succeeds.mapM hg).mono fun _ h => h.1

include hf hg

theorem succeeds_augmentedValue : Succeeds I (p.augmentedValue multipliers weight x) fun _ => True :=
  .bind hf fun _ _ => succeeds_addPenalties (fun _ hc => hg _ (List.of_mem_zip hc).2) _

theorem succeeds_barrierValue : Succeeds I (p.barrierValue weight x) fun _ => True :=
  .bind hf fun _ _ => succeeds_subtractBarriers hg _

omit hf
variable (hdf : Succeeds I (p.gradient.evaluate x) fun g => g.shape = x.shape)
  (hdg : ∀ g ∈ p.constraintGradients, Succeeds I (g.evaluate x) fun g => g.shape = x.shape)
include hdf hdg

theorem succeeds_augmentedGradient :
    Succeeds I (p.augmentedGradient q multipliers weight x) fun g => g.shape = x.shape := by
  refine .bind hdf fun dfx hdfx => succeeds_addPenaltyGradients (fun c hc => ?_) hdfx
  obtain ⟨hmem, hmem'⟩ := List.of_mem_zip (List.of_mem_zip hc).2
  exact ⟨hg _ hmem, hdg _ hmem'⟩

theorem succeeds_barrierGradient (hz : Scalar.DiscernsZero α) :
    Succeeds I (p.barrierGradient q weight x) fun g => g.shape = x.shape := by
  refine .bind hdf fun dfx hdfx => ?_
  obtain ⟨d, hdirection, hd⟩ := Tensor.normalize_of_discernsZero hz q dfx
  refine .bind_lift hdirection (succeeds_addBarrierGradients hz (fun c hc => ?_) (hd.trans hdfx))
  obtain ⟨hmem, hmem'⟩ := List.of_mem_zip hc
  exact ⟨hg _ hmem, hdg _ hmem'⟩

end Succeeds

/-! ## Values that leave no trace -/

section IsQuiet

variable (hf : ∀ x, IsQuiet (p.objective.evaluate x))
  (hg : ∀ g ∈ p.constraints, ∀ x, IsQuiet (g.evaluate x))

include hg in
omit [Scalar α] in
theorem isQuiet_constraintValues (x : Tensor α) : IsQuiet (p.constraintValues x) :=
  isQuiet_iff.mpr ⟨keeps_constraintValues (fun g h x => (isQuiet_iff.mp (hg g h x)).1) x,
    (succeeds_constraintValues fun g h => (isQuiet_iff.mp (hg g h x)).2).mono fun _ _ => trivial⟩

include hf hg

theorem isQuiet_augmentedValue (x : Tensor α) : IsQuiet (p.augmentedValue multipliers weight x) :=
  isQuiet_iff.mpr ⟨keeps_augmentedValue (fun x => (isQuiet_iff.mp (hf x)).1)
      (fun g h x => (isQuiet_iff.mp (hg g h x)).1) x,
    succeeds_augmentedValue (isQuiet_iff.mp (hf x)).2 fun g h => (isQuiet_iff.mp (hg g h x)).2⟩

theorem isQuiet_barrierValue (x : Tensor α) : IsQuiet (p.barrierValue weight x) :=
  isQuiet_iff.mpr ⟨keeps_barrierValue (fun x => (isQuiet_iff.mp (hf x)).1)
      (fun g h x => (isQuiet_iff.mp (hg g h x)).1) x,
    succeeds_barrierValue (isQuiet_iff.mp (hf x)).2 fun g h => (isQuiet_iff.mp (hg g h x)).2⟩

end IsQuiet

end Problem

end Minimization
