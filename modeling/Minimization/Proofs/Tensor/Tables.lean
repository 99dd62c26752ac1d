import Minimization.Proofs.Exact.Matrix

/-!
# Arrays as tables

A matrix is a table of its rows, and a vector counts as a table of one column. `Tensor.entryAt` reads an array so,
and `Tensor.ReadsAs` relates it to the function on rows and columns that it reads as. Every vector and every matrix
reads as a table, also one without rows or without columns.
-/

namespace Minimization.Tensor

variable {β : Type} {m n : Nat}

/-- A list fills the rows of a matrix, if it has as many items. -/
theorem exists_rowMajor {xs : List β} (h : xs.length = m * n) :
    ∃ A : Fin m → Fin n → β, xs = rowMajor A := by
  induction m generalizing xs with
  | zero =>
    rw [Nat.zero_mul] at h
    exact ⟨nofun, List.eq_nil_of_length_eq_zero h⟩
  | succ m ih =>
    rw [Nat.succ_mul, Nat.add_comm] at h
    obtain ⟨u, hu⟩ : ∃ u : Fin n → β, xs.take n = List.ofFn u :=
      exists_ofFn (List.length_take_of_le (h ▸ Nat.le_add_right n _))
    have hlength : (xs.drop n).length = m * n := by rw [List.length_drop, h, Nat.add_sub_cancel_left]
    obtain ⟨A, hA⟩ := ih hlength
    refine ⟨Fin.cons u A, ?_⟩
    rw [rowMajor_succ, Fin.cons_zero, ← hu]
    simp only [Fin.cons_succ]
    rw [← hA, List.take_append_drop]

/-- Where an item of a row stands among all of them. -/
theorem getElem?_rowMajor (A : Fin m → Fin n → β) (i : Fin m) (j : Fin n) :
    (rowMajor A)[i * n + j]? = some (A i j) := by
  induction m with
  | zero => exact i.elim0
  | succ m ih =>
    rw [rowMajor_succ]
    cases i using Fin.cases with
    | zero =>
      rw [Fin.val_zero, Nat.zero_mul, Nat.zero_add, List.getElem?_append_left (by simp)]
      simp
    | succ i =>
      rw [Fin.val_succ, Nat.succ_mul, Nat.add_right_comm,
        List.getElem?_append_right (by simp [Nat.add_comm]), List.length_ofFn, Nat.add_sub_cancel]
      exact ih (fun i => A i.succ) i

/-- The rows of an array; a vector is one column. -/
def rows (t : Tensor β) : List (List β) :=
  match t.shape with
  | [m] => blocks 1 m t.entries
  | [m, n] => blocks n m t.entries
  | _ => []

/-- The entry in a row and a column. -/
def entryAt (t : Tensor β) (i j : Nat) : Option β := t.rows[i]?.bind (·[j]?)

/-- The array reads as a table: it is a matrix of these rows, or a vector if they have one item each. -/
structure ReadsAs (t : Tensor β) (A : Fin m → Fin n → β) : Prop where
  shape_eq : t.shape = [m, n] ∨ n = 1 ∧ t.shape = [m]
  entries_eq : t.entries = rowMajor A

namespace ReadsAs

variable {t : Tensor β} {A : Fin m → Fin n → β}

theorem rows_eq (h : t.ReadsAs A) : t.rows = List.ofFn fun i => List.ofFn (A i) := by
  rcases h.shape_eq with hshape | ⟨rfl, hshape⟩
  · rw [rows, hshape, h.entries_eq]
    exact blocks_rowMajor A
  · rw [rows, hshape, h.entries_eq]
    exact blocks_rowMajor A

theorem entryAt_eq (h : t.ReadsAs A) (i j : Nat) :
    t.entryAt i j = if h : i < m ∧ j < n then some (A ⟨i, h.1⟩ ⟨j, h.2⟩) else none := by
  rw [entryAt, h.rows_eq, List.getElem?_ofFn]
  by_cases hi : i < m
  · rw [dif_pos hi, Option.bind_some, List.getElem?_ofFn]
    by_cases hj : j < n
    · rw [dif_pos hj, dif_pos ⟨hi, hj⟩]
    · rw [dif_neg hj, dif_neg fun h => hj h.2]
  · rw [dif_neg hi, dif_neg fun h => hi h.1]
    rfl

theorem rowCount_eq (h : t.ReadsAs A) : t.rowCount = .ok m := by
  rcases h.shape_eq with hshape | ⟨-, hshape⟩
  · rw [rowCount, hshape]
  · rw [rowCount, hshape]

theorem columnCount_eq (h : t.ReadsAs A) : t.columnCount = .ok n := by
  rcases h.shape_eq with hshape | ⟨rfl, hshape⟩
  · rw [columnCount, hshape]
  · rw [columnCount, hshape]

end ReadsAs

/-- Every matrix reads as a table. -/
theorem exists_readsAs_of_matrix {t : Tensor β} (h : t.shape = [m, n]) :
    ∃ A : Fin m → Fin n → β, t.ReadsAs A := by
  have hlength : t.entries.length = m * n := by
    rw [t.length_entries, h, volume_cons, volume_cons, volume_nil, Nat.mul_one]
  obtain ⟨A, hA⟩ := exists_rowMajor hlength
  exact ⟨A, .inl h, hA⟩

/-- Every vector reads as a table of one column. -/
theorem exists_readsAs_of_vector {t : Tensor β} (h : t.shape = [m]) :
    ∃ A : Fin m → Fin 1 → β, t.ReadsAs A := by
  have hlength : t.entries.length = m * 1 := by
    rw [t.length_entries, h, volume_cons, volume_nil]
  obtain ⟨A, hA⟩ := exists_rowMajor hlength
  exact ⟨A, .inr ⟨rfl, h⟩, hA⟩

/-- Vectors and matrices read as tables. -/
theorem exists_readsAs {t : Tensor β} (hrank : t.rank = 1 ∨ t.rank = 2) :
    ∃ (m n : Nat) (A : Fin m → Fin n → β), t.ReadsAs A := by
  rcases hrank with hrank | hrank
  · obtain ⟨m, hm⟩ := List.length_eq_one_iff.mp hrank
    exact ⟨m, 1, exists_readsAs_of_vector hm⟩
  · obtain ⟨m, n, hmn⟩ := List.length_eq_two.mp hrank
    exact ⟨m, n, exists_readsAs_of_matrix hmn⟩

end Minimization.Tensor
