import Minimization.Proofs.Tensor.Entries
import Minimization.Proofs.Tensor.Tables
import Minimization.Tensor.Product

/-!
# Arrays transposed once and twice

A vector counts as one column. Transposing it gives a matrix of one row, transposing such a matrix gives a vector,
and all other matrices stay matrices. Whichever way it goes, an array that reads as a table is transposed to one
that reads as the table with rows and columns swapped (`ReadsAs.transpose`). So an array that is transposed twice
has its old entries, and whether it is the same array again is a question of shapes alone: only a matrix of one
column does not come back, since on the way it was a matrix of one row.
-/

namespace Minimization.Tensor

/-! ## Shapes -/

/-- The shape of a transposed vector or matrix. -/
def transposedShape : List Nat → List Nat
  | [n] => [1, n]
  | [1, n] => [n]
  | shape => shape.reverse

/-- A column that is kept as a matrix. One entry is also a row. -/
def IsColumn (shape : List Nat) : Prop := ∃ k, k ≠ 1 ∧ shape = [k, 1]

theorem transposedShape_matrix {m : Nat} (hm : m ≠ 1) (n : Nat) : transposedShape [m, n] = [n, m] := by
  unfold transposedShape
  split
  next h => cases h
  next h =>
    obtain ⟨rfl, -⟩ := List.cons.inj h
    exact absurd rfl hm
  next => rfl

theorem transposedShape_twice_of_isColumn {shape : List Nat} (h : IsColumn shape) :
    transposedShape (transposedShape shape) = [volume shape] := by
  obtain ⟨k, hk, rfl⟩ := h
  rw [transposedShape_matrix hk, volume_cons, volume_cons, volume_nil, Nat.mul_one]
  rfl

theorem transposedShape_twice_of_not_isColumn {shape : List Nat}
    (hrank : shape.length = 1 ∨ shape.length = 2) (h : ¬ IsColumn shape) :
    transposedShape (transposedShape shape) = shape := by
  rcases hrank with hrank | hrank
  · obtain ⟨n, rfl⟩ := List.length_eq_one_iff.mp hrank
    rfl
  · obtain ⟨m, n, rfl⟩ := List.length_eq_two.mp hrank
    by_cases hm : m = 1
    · rw [hm]
      rfl
    · have hn : n ≠ 1 := by
        rintro rfl
        exact h ⟨m, hm, rfl⟩
      rw [transposedShape_matrix hm, transposedShape_matrix hn]

theorem transposedShape_twice_eq_self_iff {shape : List Nat}
    (hrank : shape.length = 1 ∨ shape.length = 2) :
    transposedShape (transposedShape shape) = shape ↔ ¬ IsColumn shape := by
  refine ⟨fun htwice hcolumn => ?_, transposedShape_twice_of_not_isColumn hrank⟩
  rw [transposedShape_twice_of_isColumn hcolumn] at htwice
  obtain ⟨k, -, rfl⟩ := hcolumn
  exact absurd (congrArg List.tail htwice) (List.cons_ne_nil 1 []).symm

/-! ## Tables -/

variable {α : Type} {m n : Nat} {t : Tensor α}

theorem transpose_vector (h : t.shape = [n]) :
    ∃ u, t.transpose = .ok u ∧ u.shape = [1, n] ∧ u.entries = t.entries ∧ u.precision = t.precision := by
  unfold transpose
  split
  next hnone => rw [hnone] at h; cases h
  next k hk =>
    obtain rfl : k = n := List.singleton_inj.mp (hk.symm.trans h)
    exact ⟨_, rfl, rfl, rfl, rfl⟩
  next hrow => rw [hrow] at h; cases h
  next hmatrix => rw [hmatrix] at h; cases h

theorem transpose_row (h : t.shape = [1, n]) : t.transpose = .ok t.flatten := by
  unfold transpose
  split
  next hnone => rw [hnone] at h; cases h
  next hvector => rw [hvector] at h; cases h
  next => rfl
  next hm hshape =>
    exact absurd (List.cons.inj (hshape.symm.trans h)).1 hm

theorem transpose_matrix (h : t.shape = [m, n]) (hm : m ≠ 1) : t.transpose = .ok t.reversed := by
  unfold transpose
  split
  next hnone => rw [hnone] at h; cases h
  next hvector => rw [hvector] at h; cases h
  next hrow => exact absurd (List.cons.inj (h.symm.trans hrow)).1 hm
  next => rfl

/-- The transposed array reads as the table with rows and columns swapped. -/
theorem ReadsAs.transpose {A : Fin m → Fin n → α} (h : t.ReadsAs A) :
    ∃ u, t.transpose = .ok u ∧ u.ReadsAs (fun j i => A i j) ∧ u.shape = transposedShape t.shape ∧
      u.precision = t.precision := by
  rcases h.shape_eq with hshape | ⟨rfl, hshape⟩
  · by_cases hm : m = 1
    · subst hm
      obtain ⟨r, rfl⟩ : ∃ r, A = fun _ => r := ⟨A 0, funext fun i => congrArg A (Subsingleton.elim i 0)⟩
      have hu : t.flatten.shape = [n] := by
        show [t.size] = _
        rw [size, t.length_entries, hshape, volume_cons, volume_cons, volume_nil, Nat.one_mul, Nat.mul_one]
      refine ⟨t.flatten, transpose_row hshape, ⟨.inr ⟨rfl, hu⟩, ?_⟩, ?_, rfl⟩
      · show t.entries = _
        rw [h.entries_eq]
        exact (rowMajor_row r).trans (rowMajor_column r).symm
      · rw [hu, hshape]
        rfl
    · refine ⟨t.reversed, transpose_matrix hshape hm, ⟨.inl ?_, ?_⟩, ?_, rfl⟩
      · show t.shape.reverse = _
        rw [hshape]
        rfl
      · show reverseExtents t.shape t.entries = _
        rw [hshape, h.entries_eq]
        exact reverseExtents_rowMajor A
      · show t.shape.reverse = _
        rw [hshape, transposedShape_matrix hm]
        rfl
  · obtain ⟨c, rfl⟩ : ∃ c : Fin m → α, A = fun i _ => c i :=
      ⟨fun i => A i 0, funext₂ fun i j => congrArg (A i) (Subsingleton.elim j 0)⟩
    obtain ⟨u, hu, hushape, hentries, hprecision⟩ := transpose_vector hshape
    refine ⟨u, hu, ⟨.inl hushape, ?_⟩, ?_, hprecision⟩
    · rw [hentries, h.entries_eq]
      exact (rowMajor_column c).trans (rowMajor_row c).symm
    · rw [hushape, hshape]
      rfl

/-- Transposing swaps rows and columns. Doing it twice gives the entries back in their order, and the array itself
unless it is a column that is kept as a matrix: this becomes the vector of its entries. -/
theorem transpose_twice (hrank : t.rank = 1 ∨ t.rank = 2) :
    ∃ m n u v, t.rowCount = .ok m ∧ t.columnCount = .ok n ∧
      (∀ i j, (t.entryAt i j).isSome ↔ i < m ∧ j < n) ∧
      t.transpose = .ok u ∧ u.rowCount = .ok n ∧ u.columnCount = .ok m ∧
      (∀ i j, u.entryAt i j = t.entryAt j i) ∧
      u.transpose = .ok v ∧ v.entries = t.entries ∧ (v = t ↔ ¬ IsColumn t.shape) ∧
      (IsColumn t.shape → v.shape = [t.size]) := by
  obtain ⟨m, n, A, hA⟩ := exists_readsAs hrank
  obtain ⟨u, hu, huA, hushape, huprecision⟩ := hA.transpose
  obtain ⟨v, hv, hvA, hvshape, hvprecision⟩ := huA.transpose
  rw [hushape] at hvshape
  have hentries : v.entries = t.entries := hvA.entries_eq.trans hA.entries_eq.symm
  refine ⟨m, n, u, v, hA.rowCount_eq, hA.columnCount_eq, fun i j => ?_, hu, huA.rowCount_eq,
    huA.columnCount_eq, fun i j => ?_, hv, hentries, ?_, fun hcolumn => ?_⟩
  · rw [hA.entryAt_eq]
    split
    next hij => exact ⟨fun _ => hij, fun _ => rfl⟩
    next hij => exact ⟨nofun, fun h => absurd h hij⟩
  · rw [huA.entryAt_eq, hA.entryAt_eq]
    by_cases hij : j < m ∧ i < n
    · rw [dif_pos hij.symm, dif_pos hij]
    · rw [dif_neg fun h => hij h.symm, dif_neg hij]
  · rw [← transposedShape_twice_eq_self_iff hrank, ← hvshape]
    exact ⟨congrArg shape, fun hshape => ext hshape hentries (hvprecision.trans huprecision)⟩
  · rw [hvshape, transposedShape_twice_of_isColumn hcolumn, size, t.length_entries]

/-- A column of three numbers that is kept as a matrix becomes a vector. -/
theorem transpose_twice_column :
    let t : Tensor Float := ⟨[3, 1], [1, 2, 3], .double, rfl⟩
    (t.rank = 1 ∨ t.rank = 2) ∧
      ∃ u v, t.transpose = .ok u ∧ u.transpose = .ok v ∧ v.shape = [3] ∧ v.entries = [1, 2, 3] ∧ v ≠ t := by
  intro t
  have hcolumn : IsColumn t.shape := ⟨3, by decide, rfl⟩
  obtain ⟨-, -, u, v, -, -, -, hu, -, -, -, hv, hentries, hback, hshape⟩ := transpose_twice (t := t) (.inr rfl)
  exact ⟨.inr rfl, u, v, hu, hv, hshape hcolumn, hentries, fun h => hback.mp h hcolumn⟩

end Minimization.Tensor
