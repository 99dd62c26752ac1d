import Minimization.Proofs.Tensor.Rounding

/-!
# Arrays with one entry changed

An entry that is set twice keeps the second value, and an entry that is set to what it was leaves the
array as it was, provided that it was kept with the precision of the array. So a change in place can be
taken back (`setAt_modifyAt`, `setAt_self`).
-/

namespace Minimization.Tensor

variable {α : Type}

/-- Arrays with one shape, the same entries and one precision are equal. -/
theorem ext {x y : Tensor α} (hshape : x.shape = y.shape) (hentries : x.entries = y.entries)
    (hprecision : x.precision = y.precision) : x = y := by
  obtain ⟨shape, entries, precision, hlength⟩ := x
  obtain ⟨shape', entries', precision', hlength'⟩ := y
  obtain rfl : shape = shape' := hshape
  obtain rfl : entries = entries' := hentries
  obtain rfl : precision = precision' := hprecision
  rfl

variable [Scalar α]

/-- The array with one entry put through a function. -/
def modifyAt (x : Tensor α) (i : Nat) (g : α → α) : Tensor α where
  shape := x.shape
  entries := x.entries.modify i fun a => Scalar.round x.precision (g a)
  precision := x.precision
  length_entries := by rw [List.length_modify, x.length_entries]

variable {x : Tensor α} {i : Nat} {a : α}

/-- Setting an entry to what becomes of it puts it through the function. -/
theorem setAt_apply (h : x.entries[i]? = some a) (g : α → α) : x.setAt i (g a) = x.modifyAt i g := by
  refine ext rfl ?_ rfl
  apply List.ext_getElem?
  intro j
  show (x.entries.set i (Scalar.round x.precision (g a)))[j]? = (x.entries.modify i _)[j]?
  by_cases hij : i = j
  · subst hij
    rw [List.getElem?_set_self (List.getElem?_eq_some_iff.mp h).1, List.getElem?_modify_eq, h]
    rfl
  · rw [List.getElem?_set_ne hij, List.getElem?_modify_ne _ _ hij]

/-- A change of an entry is overwritten. -/
theorem setAt_modifyAt (x : Tensor α) (i : Nat) (g : α → α) (b : α) :
    (x.modifyAt i g).setAt i b = x.setAt i b := by
  refine ext rfl ?_ rfl
  apply List.ext_getElem?
  intro j
  show ((x.entries.modify i _).set i (Scalar.round x.precision b))[j]?
    = (x.entries.set i (Scalar.round x.precision b))[j]?
  by_cases hij : i = j
  · rw [List.getElem?_set, List.getElem?_set, List.length_modify, if_pos hij, if_pos hij]
  · rw [List.getElem?_set_ne hij, List.getElem?_set_ne hij, List.getElem?_modify_ne _ _ hij]

/-- An entry that is set to what it was leaves the array as it was. -/
theorem setAt_self (hx : x.IsKept x.precision) (h : x.entries[i]? = some a) : x.setAt i a = x := by
  have hround : Scalar.round x.precision a = a := by
    have hmap : (x.entries.map (Scalar.round x.precision))[i]? = x.entries[i]? := by
      rw [hx.rounded]
    rw [List.getElem?_map, h] at hmap
    exact Option.some.inj hmap
  refine ext rfl ?_ rfl
  show x.entries.set i (Scalar.round x.precision a) = x.entries
  rw [hround]
  obtain ⟨hi, rfl⟩ := List.getElem?_eq_some_iff.mp h
  exact List.set_getElem_self hi

end Minimization.Tensor
