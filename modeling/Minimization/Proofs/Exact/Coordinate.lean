import Minimization.Proofs.Exact.Number
import Minimization.Tensor.Arithmetic

/-!
# Coordinates of arrays of real numbers

What an operation does to an array of real numbers, one coordinate at a time. Coordinates do not look
at shapes, so that they can follow arrays whose shapes the operations mix; beyond the entries of an
array they are zero.
-/

namespace Minimization.Tensor

open ExactScalar

/-- An entry of an array by its position; zero beyond the entries. -/
def coordinate (x : Tensor ℝ) (i : Nat) : ℝ := x.entries.getD i 0

variable {x y z : Tensor ℝ}

theorem coordinate_of_size_le {i : Nat} (h : x.size ≤ i) : x.coordinate i = 0 := by
  rw [coordinate, List.getD_eq_getElem?_getD, List.getElem?_eq_none h, Option.getD_none]

/-- An operation on entries that keeps zero is one on coordinates. -/
theorem coordinate_map {f : ℝ → ℝ} (hf : f 0 = 0) (x : Tensor ℝ) (i : Nat) :
    (x.map f).coordinate i = f (x.coordinate i) := by
  show (x.entries.map f).getD i 0 = f (x.entries.getD i 0)
  rw [List.getD_eq_getElem?_getD, List.getD_eq_getElem?_getD, List.getElem?_map]
  cases x.entries[i]? with
  | none => exact hf.symm
  | some a => rfl

@[simp] theorem coordinate_convert (p : Precision) (x : Tensor ℝ) (i : Nat) :
    (x.convert p).coordinate i = x.coordinate i :=
  coordinate_map (f := Scalar.round p) rfl x i

@[simp] theorem coordinate_scale (x : Tensor ℝ) (c : ℝ) (i : Nat) :
    (x.scale c).coordinate i = x.coordinate i * c :=
  coordinate_map (f := fun a => a * c) (zero_mul c) x i

theorem coordinate_scale_zero (x : Tensor ℝ) (i : Nat) : (x.scale Scalar.zero).coordinate i = 0 := by
  rw [coordinate_scale, zero_eq, ofReal_real, mul_zero]

theorem size_scale (x : Tensor ℝ) (c : ℝ) : (x.scale c).size = x.size := List.length_map _

theorem size_convert (p : Precision) (x : Tensor ℝ) : (x.convert p).size = x.size :=
  List.length_map _

/-- Arrays that can be combined have one size, and combine coordinate by coordinate. -/
theorem combine_ok {operation : String} {f : ℝ → ℝ → ℝ} (hf : f 0 0 = 0)
    (h : combine operation f x y = .ok z) :
    y.size = x.size ∧ z.size = x.size ∧
      ∀ i, z.coordinate i = f (x.coordinate i) (y.coordinate i) := by
  unfold combine at h
  split at h
  next hs =>
    obtain rfl := Except.ok.inj h
    have hsize : y.entries.length = x.entries.length := by
      rw [x.length_entries, y.length_entries, hs]
    refine ⟨hsize, ?_, fun i => ?_⟩
    · show (List.zipWith _ x.entries y.entries).length = x.entries.length
      rw [List.length_zipWith, hsize, Nat.min_self]
    · show (List.zipWith f x.entries y.entries).getD i 0 = f (x.entries.getD i 0) (y.entries.getD i 0)
      simp only [List.getD_eq_getElem?_getD, List.getElem?_zipWith]
      rcases lt_or_ge i x.entries.length with hi | hi
      · rw [List.getElem?_eq_getElem hi, List.getElem?_eq_getElem (hsize ▸ hi)]
        rfl
      · rw [List.getElem?_eq_none hi, List.getElem?_eq_none (hsize ▸ hi)]
        exact hf.symm
  next => cases h

theorem multiply_ok (h : x.multiply y = .ok z) :
    y.size = x.size ∧ z.size = x.size ∧ ∀ i, z.coordinate i = x.coordinate i * y.coordinate i :=
  combine_ok (mul_zero 0) h

/-- A step of the size of the array is added to it. That a step without extents moves every entry
makes no difference, since the array has one entry then. -/
theorem moveBy_ok (h : x.moveBy y = .ok z) (hy : y.size = x.size) :
    z.size = x.size ∧ ∀ i, z.coordinate i = x.coordinate i + y.coordinate i := by
  unfold moveBy at h
  split at h
  next s _ he =>
    obtain rfl := Except.ok.inj h
    refine ⟨List.length_map _, fun i => ?_⟩
    obtain ⟨a, ha⟩ : ∃ a, x.entries = [a] := by
      rw [← List.length_eq_one_iff]
      rw [size, he, List.length_singleton] at hy
      exact hy.symm
    show (x.entries.map fun b => b + s).getD i 0 = x.entries.getD i 0 + y.entries.getD i 0
    rw [ha, he]
    cases i with
    | zero => rfl
    | succ i => exact (add_zero 0).symm
  next => exact (combine_ok (add_zero 0) h).2

/-- An operation that succeeds at all of some numbers has a result for each. -/
theorem forall₂_of_mapM_ok {f : ℝ → Except Failure ℝ} {xs ys : List ℝ} (h : xs.mapM f = .ok ys) :
    List.Forall₂ (fun a b => f a = .ok b) xs ys := by
  induction xs generalizing ys with
  | nil =>
    rw [List.mapM_nil] at h
    obtain rfl := Except.ok.inj h
    exact .nil
  | cons a xs ih =>
    rw [List.mapM_cons] at h
    rcases ha : f a with e | b
    · rw [ha] at h
      cases h
    rcases hxs : xs.mapM f with e | bs
    · rw [ha, hxs] at h
      cases h
    · rw [ha, hxs] at h
      obtain rfl := Except.ok.inj h
      exact .cons ha (ih hxs)

/-- An operation that succeeds at every entry leaves the results. -/
theorem mapM_ok {f : ℝ → Except Failure ℝ} (h : x.mapM f = .ok z) :
    z.size = x.size ∧ ∀ i < x.size, f (x.coordinate i) = .ok (z.coordinate i) := by
  unfold mapM at h
  split at h
  next => cases h
  next ys hys =>
    obtain rfl := Except.ok.inj h
    have hall := forall₂_of_mapM_ok hys
    refine ⟨hall.length_eq.symm, fun i hi => ?_⟩
    have hi' : i < ys.length := hall.length_eq ▸ hi
    show f (x.entries.getD i 0) = .ok (ys.getD i 0)
    rw [List.getD_eq_getElem?_getD, List.getD_eq_getElem?_getD, List.getElem?_eq_getElem hi,
      List.getElem?_eq_getElem hi']
    exact (List.forall₂_iff_get.mp hall).2 i hi hi'

end Minimization.Tensor
