import Minimization.Random.Sample

/-!
# What a sample without repetition holds

A draw up to a number stays up to it (`Congruential.upTo_le`), whatever was rejected before. So a step of
`sample` keeps a `Selection`: it adds one number to an increasing list, either one that is not there yet
or the largest number it may draw, which no step before it could have drawn. A whole sample is a
selection of as many numbers as it was asked for.
-/

namespace Minimization.Random

/-! ## Draws -/

namespace Congruential

/-- A product that is accepted, or taken when there is no rejecting any more, is one of a word and the
factor. -/
theorem accept_lt {threshold factor : Nat} :
    ∀ (fuel : Nat) (draw : Nat × Congruential), draw.1 < factor * Nat.pow 2 32 →
      (accept threshold factor fuel draw).1 < factor * Nat.pow 2 32
  | 0, _, h => h
  | fuel + 1, (m, g), h => by
    unfold accept
    split
    next hrejected =>
      refine accept_lt fuel _ ?_
      rw [Nat.mul_comm]
      exact Nat.mul_lt_mul_of_pos_left g.next32.1.toNat_lt (Nat.pos_of_ne_zero fun hfactor => by
        simp [hfactor] at h)
    next => exact h

theorem upTo_le (greatest : Nat) (g : Congruential) : (g.upTo greatest).1 ≤ greatest := by
  have hword : g.next32.1.toNat * (greatest + 1) < (greatest + 1) * Nat.pow 2 32 := by
    rw [Nat.mul_comm]
    exact Nat.mul_lt_mul_of_pos_left g.next32.1.toNat_lt (Nat.succ_pos greatest)
  unfold upTo
  split
  next => exact Nat.zero_le _
  next =>
    refine Nat.lt_succ_iff.mp (Nat.div_lt_of_lt_mul ?_)
    rw [Nat.mul_comm (Nat.pow 2 32)]
    split
    next => exact accept_lt mostRejections _ hword
    next => exact hword

end Congruential

/-! ## Increasing lists -/

theorem mem_insertInOrder {v i : Nat} {xs : List Nat} : i ∈ insertInOrder v xs ↔ i = v ∨ i ∈ xs := by
  induction xs with
  | nil => simp [insertInOrder]
  | cons x xs ih =>
    unfold insertInOrder
    split
    next => simp
    next => simp only [List.mem_cons, ih, or_left_comm]

theorem length_insertInOrder (v : Nat) (xs : List Nat) :
    (insertInOrder v xs).length = xs.length + 1 := by
  induction xs with
  | nil => rfl
  | cons x xs ih =>
    unfold insertInOrder
    split
    next => rfl
    next => rw [List.length_cons, ih, List.length_cons]

theorem pairwise_insertInOrder {v : Nat} {xs : List Nat} (h : xs.Pairwise (· < ·)) (hv : v ∉ xs) :
    (insertInOrder v xs).Pairwise (· < ·) := by
  induction xs with
  | nil => exact List.pairwise_singleton ..
  | cons x xs ih =>
    obtain ⟨hx, hxs⟩ := List.pairwise_cons.mp h
    have hne : v ≠ x := List.ne_of_not_mem_cons hv
    unfold insertInOrder
    split
    next hlt =>
      refine List.pairwise_cons.mpr ⟨fun i hi => ?_, h⟩
      rcases List.mem_cons.mp hi with rfl | hi
      · exact hlt
      · exact Nat.lt_trans hlt (hx i hi)
    next hlt =>
      refine List.pairwise_cons.mpr ⟨fun i hi => ?_, ih hxs (List.not_mem_of_not_mem_cons hv)⟩
      rcases mem_insertInOrder.mp hi with rfl | hi
      · exact Nat.lt_of_le_of_ne (Nat.le_of_not_lt hlt) (Ne.symm hne)
      · exact hx i hi

/-- An increasing list of so many numbers below a bound. -/
structure Selection (size bound : Nat) (xs : List Nat) : Prop where
  increasing : xs.Pairwise (· < ·)
  length : xs.length = size
  below : ∀ i ∈ xs, i < bound

namespace Selection

variable {size bound v : Nat} {xs : List Nat}

theorem nil (bound : Nat) : Selection 0 bound [] := ⟨.nil, rfl, nofun⟩

theorem insert (h : Selection size bound xs) (hv : v ∉ xs) (hle : v ≤ bound) :
    Selection (size + 1) (bound + 1) (insertInOrder v xs) where
  increasing := pairwise_insertInOrder h.increasing hv
  length := by rw [length_insertInOrder, h.length]
  below := by
    intro i hi
    rcases mem_insertInOrder.mp hi with rfl | hi
    · exact Nat.lt_succ_of_le hle
    · exact Nat.lt_succ_of_lt (h.below i hi)

/-! ## Samples -/

/-- A step puts in what was drawn, or `bound` if that is there already: `bound` itself is not. -/
theorem step {g : Congruential} (h : Selection size bound xs) :
    Selection (size + 1) (bound + 1) (sampleStep (xs, g) bound).1 := by
  show Selection _ _ (insertInOrder (if xs.contains (g.upTo bound).1 then bound else _) xs)
  split
  next => exact h.insert (fun hmem => Nat.lt_irrefl bound (h.below bound hmem)) (Nat.le_refl bound)
  next hfresh =>
    exact h.insert (fun hmem => hfresh (List.contains_iff_mem.mpr hmem)) (g.upTo_le bound)

end Selection

/-- Steps for the numbers from `start` on select as many numbers as there are steps. -/
theorem selection_steps (start : Nat) (g : Congruential) (k : Nat) :
    Selection k (start + k) (((List.range k).map (start + ·)).foldl sampleStep ([], g)).1 := by
  induction k with
  | zero => exact .nil _
  | succ k ih =>
    rw [List.range_succ, List.map_append, List.foldl_append]
    exact ih.step

/-- As many different numbers as were asked for are drawn, if there are so many. -/
theorem selection_sample {k n : Nat} (h : k ≤ n) (g : Congruential) : Selection k n (sample k n g) := by
  have hsteps := selection_steps (n - k) g k
  rwa [Nat.sub_add_cancel h] at hsteps

end Minimization.Random
