import Minimization.Proofs.Tensor.Rounding

/-!
# Where operations on arrays are defined

Arrays of one shape can be added, subtracted and multiplied entry by entry, and the result has their
shape, whatever their entries are. Bringing an array to norm one divides by the norm, so a norm of zero has
to be told apart: one that equals zero has to be below the threshold, where nothing is divided
(`Scalar.DiscernsZero`). Comparisons of floats do so, although they are not reflexive.
-/

namespace Minimization

/-- What equals zero is below what is negligible, and what is below zero does not equal it. -/
structure Scalar.DiscernsZero (α : Type) [Scalar α] : Prop where
  negligible : ∀ a : α, Scalar.same a Scalar.zero = true → Scalar.lt a Tensor.negligible = true
  negative : ∀ a : α, Scalar.lt a Scalar.zero = true → Scalar.same a Scalar.zero = false

variable {α : Type} [Scalar α]

theorem Scalar.divide_of_same_eq_false {b : α} (h : Scalar.same b Scalar.zero = false) (a : α) :
    Scalar.divide a b = .ok (a / b) := by
  rw [Scalar.divide, h]
  rfl

namespace Tensor

variable {x y : Tensor α}

theorem combine_of_shape_eq (operation : String) (f : α → α → α) (h : x.shape = y.shape) :
    ∃ z, combine operation f x y = .ok z ∧ z.shape = x.shape := by
  unfold combine
  rw [dif_pos h]
  exact ⟨_, rfl, rfl⟩

/-- Combining arrays fails with their shapes. -/
theorem combine_eq_error {operation : String} {f : α → α → α} {e : Failure}
    (h : combine operation f x y = .error e) : ∃ cause, e = .size cause := by
  unfold combine at h
  split at h
  next => cases h
  next => exact ⟨_, (Except.error.inj h).symm⟩

theorem combineInto_of_shape_eq (operation : String) (f : α → α → α) (h : x.shape = y.shape) :
    ∃ z, combineInto operation f x y = .ok z ∧ z.shape = x.shape := by
  obtain ⟨z, hz, hshape⟩ := combine_of_shape_eq operation f h
  unfold combineInto
  rw [hz]
  exact ⟨_, rfl, hshape⟩

/-- An array can be moved by a step of its shape. -/
theorem moveBy_of_shape_eq (h : x.shape = y.shape) : ∃ z, x.moveBy y = .ok z ∧ z.shape = x.shape := by
  unfold moveBy
  split
  next => exact ⟨_, rfl, rfl⟩
  next => exact combine_of_shape_eq "add" _ h

theorem moveBy_eq_error {e : Failure} (h : x.moveBy y = .error e) : ∃ cause, e = .size cause := by
  unfold moveBy at h
  split at h
  next => cases h
  next => exact combine_eq_error h

omit [Scalar α] in
theorem size_eq_of_shape_eq (h : x.shape = y.shape) : x.size = y.size := by
  rw [size, size, x.length_entries, y.length_entries, h]

theorem inner_of_size_eq (h : x.size = y.size) : ∃ a, x.inner y = .ok a := by
  unfold inner
  rw [if_neg (not_not_intro h)]
  exact ⟨_, rfl⟩

omit [Scalar α] in
/-- An array can be mapped by a function that is defined at all of its entries. -/
theorem mapM_of_forall {ε : Type} {f : α → Except ε α} {t : Tensor α}
    (h : ∀ a ∈ t.entries, ∃ b, f a = .ok b) : ∃ z, t.mapM f = .ok z ∧ z.shape = t.shape := by
  have hlist : ∀ {xs : List α}, (∀ a ∈ xs, ∃ b, f a = .ok b) → ∃ ys, xs.mapM f = .ok ys := by
    intro xs
    induction xs with
    | nil => exact fun _ => ⟨[], rfl⟩
    | cons a xs ih =>
      intro h
      obtain ⟨b, hb⟩ := h a (List.mem_cons_self ..)
      obtain ⟨ys, hys⟩ := ih fun a' ha' => h a' (List.mem_cons_of_mem a ha')
      refine ⟨b :: ys, ?_⟩
      rw [List.mapM_cons, hb]
      show (xs.mapM f >>= fun bs => Except.ok (b :: bs)) = _
      rw [hys]
      rfl
  obtain ⟨ys, hys⟩ := hlist h
  unfold mapM
  split
  next e he =>
    rw [hys] at he
    cases he
  next => exact ⟨_, rfl, rfl⟩

theorem normalizeAbove_of_discernsZero (hz : Scalar.DiscernsZero α) (x : Tensor α) :
    ∃ z, x.normalizeAbove negligible = .ok z ∧ z.shape = x.shape := by
  unfold normalizeAbove
  split
  next => exact ⟨x, rfl, rfl⟩
  next h =>
    -- A norm that is not negligible is not zero either.
    have hsame : Scalar.same x.norm Scalar.zero = false :=
      Bool.eq_false_iff.mpr fun hs => h (hz.negligible _ hs)
    rw [Scalar.divide_of_same_eq_false hsame]
    exact ⟨_, rfl, rfl⟩

theorem normalize_of_discernsZero (hz : Scalar.DiscernsZero α) (p : Precision) (x : Tensor α) :
    ∃ z, x.normalize p = .ok z ∧ z.shape = x.shape :=
  normalizeAbove_of_discernsZero hz (x.convert p)

end Tensor

end Minimization
