import Minimization.Proofs.Tensor.Entries
import Minimization.Proofs.Tensor.Tables
import Minimization.Tensor.Step

/-!
# Positions in an array

The entries of an array are reached in four ways: by a position from the front, by one from the end, by a row and
a column, and in the order in which values fill the rows of a new matrix. All of them see one order, the
row-major one. What the operations on stored arrays do with positions is `Store.RowMajor`, and
`Store.positions_agree` says that it holds of every store.

New values are kept with the precision of the operations, so that what is read again is what was rounded to it. In
double precision nothing is rounded (`Precision.Has`).
-/

namespace Minimization

namespace Tensor

/-! ## Positions -/

section Positions

variable {size k : Nat} {i : Int}

theorem position?_of_lt (h : k < size) : position? size k = some k := by
  rw [position?, if_pos ⟨Int.natCast_nonneg k, Int.ofNat_lt.mpr h⟩, Int.toNat_natCast]

/-- A position from the end. -/
theorem position?_sub (h : k < size) : position? size (k - size : Int) = some k := by
  rw [position?, if_neg (by omega), if_pos (by omega), Int.sub_add_cancel, Int.toNat_natCast]

theorem position?_eq_none (h : i < -size ∨ size ≤ i) : position? size i = none := by
  rw [position?, if_neg (by omega), if_neg (by omega)]

variable {α : Type} {t : Tensor α} {x : α}

theorem get_eq_ok (h : position? t.size i = some k) (hx : t.entries[k]? = some x) : t.get i = .ok x := by
  rw [get, h, Option.bind_some, hx]

theorem get_eq_error (h : position? t.size i = none) : t.get i = .error .outOfRange := by
  rw [get, h, Option.bind_none]

variable [Scalar α]

theorem set_eq_ok (h : position? t.size i = some k) : t.set i (.ok x) = .ok (t.setAt k x) := by
  rw [set, h]
  rfl

theorem set_eq_error (h : position? t.size i = none) (x : Except Failure α) :
    t.set i x = .error .outOfRange := by
  rw [set, h]

theorem getElem?_setAt_self (h : k < t.size) : (t.setAt k x).entries[k]? = some (Scalar.round t.precision x) :=
  List.getElem?_set_self h

theorem getElem?_setAt_of_ne {l : Nat} (h : l ≠ k) : (t.setAt k x).entries[l]? = t.entries[l]? :=
  List.getElem?_set_ne (Ne.symm h)

end Positions

/-! ## New matrices -/

section Matrices

variable {α : Type} [Scalar α] {p : Precision} {rows : Int} {xs : List α}

theorem fillsRows_iff {count : Nat} : FillsRows rows count ↔ 1 ≤ rows ∧ rows ∣ count := by
  refine and_congr_right fun hrows => ?_
  obtain ⟨n, rfl⟩ := Int.eq_ofNat_of_zero_le (Int.le_trans Int.one_nonneg hrows)
  rw [Int.toNat_natCast, Int.natCast_dvd_natCast]
  exact Nat.dvd_iff_mod_eq_zero.symm

theorem matrix_eq_ok (h : FillsRows rows xs.length) :
    ∃ t, matrix p rows xs = .ok t ∧ t.shape = [rows.toNat, xs.length / rows.toNat] ∧
      t.entries = xs.map (Scalar.round p) ∧ t.precision = p := by
  rw [matrix, dif_pos h]
  exact ⟨_, rfl, rfl, rfl, rfl⟩

end Matrices

end Tensor

/-! ## Values in a list -/

variable {α : Type}

/-- Values as what an array is made from. -/
def Source.values (xs : List α) : List (Source α) := xs.map fun x => .nested (.entry (.ok x))

theorem Source.length_values (xs : List α) : (values xs).length = xs.length := List.length_map _

namespace Nested

/-- Values as the items of a list. -/
def values (xs : List α) : List (Nested α) := xs.map fun x => .entry (.ok x)

theorem allHave_values (xs : List α) : allHave [] (values xs) = true := by
  induction xs with
  | nil => rfl
  | cons x xs ih =>
    rw [values, List.map_cons, ← values, allHave, ih]
    rfl

theorem shape?_values (xs : List α) : (items (values xs)).shape? = some [xs.length] := by
  cases xs with
  | nil => rfl
  | cons x xs =>
    rw [values, List.map_cons, ← values, shape?, shape?]
    dsimp only
    rw [if_pos (allHave_values xs), values, List.length_map]
    rfl

theorem entries_values (xs : List α) : (items (values xs)).entries = xs.map .ok := by
  induction xs with
  | nil => rfl
  | cons x xs ih =>
    rw [entries] at ih ⊢
    rw [values, List.map_cons, ← values, entriesOf, ih]
    rfl

end Nested

/-- What is read of every item of a list without a failure is read of all. -/
theorem mapM_map_eq_ok {β γ δ : Type} (f : γ → Except Failure δ) {g : β → γ} {k : β → δ}
    (h : ∀ x, f (g x) = .ok (k x)) (xs : List β) : (xs.map g).mapM f = .ok (xs.map k) := by
  rw [List.mapM_map, show f ∘ g = fun x => pure (k x) from funext h, List.mapM_pure]
  rfl

theorem Tensor.ofNested_eq_ok [Scalar α] {p : Precision} {n : Nested α} {shape : List Nat} {xs : List α}
    {t : Tensor α} (hshape : n.shape? = some shape) (hentries : n.entries.mapM id = .ok xs)
    (ht : ofEntries? p shape xs = some t) : ofNested p n = .ok t := by
  rw [ofNested, hshape]
  dsimp only
  rw [hentries]
  dsimp only [bind, Except.bind]
  rw [ht]
  rfl

/-- Values in a list make a vector. -/
theorem Store.gather_values [Scalar α] (p : Precision) (s : Store α) (xs : List α) :
    s.gather p (Source.values xs) = .ok (Tensor.vector p xs) := by
  have hvolume : xs.length = volume [xs.length] := (Nat.mul_one _).symm
  have hitems : (Source.values xs).mapM s.item = .ok (Nested.values xs) :=
    mapM_map_eq_ok s.item (fun _ => rfl) xs
  have hentries : (Nested.items (Nested.values xs)).entries.mapM id = .ok xs := by
    rw [Nested.entries_values]
    exact (mapM_map_eq_ok id (fun _ => rfl) xs).trans (congrArg Except.ok (List.map_id xs))
  rw [gather, hitems]
  exact Tensor.ofNested_eq_ok (Nested.shape?_values xs) hentries (dif_pos hvolume)

/-! ## Operations on stored arrays -/

theorem Store.fetch_eq_ok {s : Store α} {a : Handle} {t : Tensor α} (ht : s.arrays[a]? = some t) :
    s.fetch a = .ok t := by
  rw [fetch, ht]

variable [Scalar α]

namespace Call

variable (p : Precision) (s : Store α) (c : Call α)

/-- The call makes a new array. -/
def Makes (t : Tensor α) : Prop := c.run p s = (.ok (.array s.arrays.length), ⟨s.arrays ++ [t]⟩)

/-- The call gives an array new contents and answers it. -/
def Changes (a : Handle) (t : Tensor α) : Prop := c.run p s = (.ok (.array a), ⟨s.arrays.set a t⟩)

/-- The call answers a number and changes nothing. -/
def Answers (x : α) : Prop := c.run p s = (.ok (.number x), s)

/-- The call counts something and changes nothing. -/
def Counts (n : Nat) : Prop := c.run p s = (.ok (.count n), s)

/-- The call fails and changes nothing. -/
def Refuses (e : Failure) : Prop := c.run p s = (.error e, s)

variable {p s c}

theorem run_of_effect {e : Effect α} (h : c.effect p s = .ok e) : c.run p s = e.apply s := by
  rw [run, h]

theorem refuses_of_effect {e : Failure} (h : c.effect p s = .error e) : c.Refuses p s e := by
  rw [Refuses, run, h]

section Fetching

variable {β : Type} {a : Handle} {t : Tensor α} {f : Tensor α → Except Failure β} {g : β → Effect α}

/-- What a call does that has to fetch one array. -/
theorem run_of_fetch (hc : c.effect p s = do return g (← f (← s.fetch a))) (ht : s.arrays[a]? = some t)
    {y : β} (hy : f t = .ok y) : c.run p s = (g y).apply s := by
  refine run_of_effect ?_
  rw [hc, Store.fetch_eq_ok ht]
  show (do return g (← f t)) = _
  rw [hy]
  rfl

theorem refuses_of_fetch (hc : c.effect p s = do return g (← f (← s.fetch a)))
    (ht : s.arrays[a]? = some t) {e : Failure} (he : f t = .error e) : c.Refuses p s e := by
  refine refuses_of_effect ?_
  rw [hc, Store.fetch_eq_ok ht]
  show (do return g (← f t)) = _
  rw [he]
  rfl

end Fetching

variable {a : Handle} {t : Tensor α} {xs : List α} {rows : Int}

theorem makes_toVector (ht : s.arrays[a]? = some t) : (toVector (.stored a)).Makes p s t.toVector :=
  run_of_fetch (f := pure) (g := fun t => .fresh t.toVector) rfl ht rfl

theorem makes_toPlane (ht : s.arrays[a]? = some t) : (toPlane a).Makes p s t.toPlane :=
  run_of_fetch (f := pure) (g := fun t => .fresh t.toPlane) rfl ht rfl

theorem makes_matrix (h : Tensor.FillsRows rows xs.length)
    (ht : Tensor.matrix p rows (xs.map (Scalar.round p)) = .ok t) :
    (matrix rows (Source.values xs)).Makes p s t := by
  refine run_of_effect (e := .fresh t) ?_
  have hsize : (Tensor.vector p xs).size = (Source.values xs).length := by
    rw [Source.length_values]
    exact List.length_map _
  rw [← Source.length_values] at h
  rw [effect, if_pos h, Store.gather_values]
  show (do
    if (Tensor.vector p xs).size ≠ (Source.values xs).length then throw .incompatibleShapes
    return .fresh (← Tensor.matrix p rows (xs.map (Scalar.round p))) : Except Failure (Effect α)) = _
  rw [if_neg (not_not.mpr hsize), ht]
  rfl

theorem refuses_matrix (h : ¬ Tensor.FillsRows rows xs.length) :
    (matrix rows (Source.values xs)).Refuses p s (Tensor.unfilledRows rows xs.length) := by
  refine refuses_of_effect ?_
  rw [← Source.length_values] at h ⊢
  rw [effect, if_neg h]
  rfl

end Call

/-- Numbers that are kept with a precision as they are. In double precision these are all numbers. -/
def Precision.Has (p : Precision) (xs : List α) : Prop := p = .double ∨ ∀ x ∈ xs, Scalar.round p x = x

/-- What positions mean for the operations on a store that work with precision `p`. -/
structure Store.RowMajor (p : Precision) (s : Store α) : Prop where
  /-- Only what fills whole rows makes a matrix. -/
  refused : ∀ (rows : Int) (xs : List α), rows < 1 ∨ ¬ rows ∣ xs.length →
    (Call.matrix rows (Source.values xs)).Refuses p s (.size (.rows xs.length (toString rows)))
  /-- The values of a matrix come back in the order in which they were given. -/
  filled : ∀ (rows : Int) (xs : List α), ¬ (rows < 1 ∨ ¬ rows ∣ xs.length) →
    ∃ t v, (Call.matrix rows (Source.values xs)).Makes p s t ∧
      t.shape = [rows.toNat, xs.length / rows.toNat] ∧
      (Call.toVector (.stored s.arrays.length)).Makes p ⟨s.arrays ++ [t]⟩ v ∧
      v.shape = [xs.length] ∧ v.entries = xs.map (Scalar.round p) ∧ (p.Has xs → v.entries = xs)
  /-- The values that come back make the same matrix. -/
  refilled : ∀ a t m n, s.arrays[a]? = some t → t.shape = [m, n] → 1 ≤ m →
    (Call.rowCount a).Counts p s m ∧
      ∃ v u, (Call.toVector (.stored a)).Makes p s v ∧
        (Call.matrix m (Source.values v.entries)).Makes p ⟨s.arrays ++ [v]⟩ u ∧
        u.shape = t.shape ∧ u.entries = t.entries.map (Scalar.round p) ∧
        (t.precision = p → p.Has t.entries → u = t)
  /-- Rows and columns, and positions from the front, are the same entries. -/
  placed : ∀ a t m n i j, s.arrays[a]? = some t → t.shape = [m, n] → i < m → j < n →
    ∃ x v w, (Call.get a (i * n + j : Nat)).Answers p s x ∧
      (Call.toVector (.stored a)).Makes p s v ∧ v.entries[i * n + j]? = some x ∧
      (Call.toPlane a).Makes p s w ∧ w.shape = [m, n] ∧ w.entryAt i j = some x
  /-- There is nothing beyond the entries on either side. -/
  outside : ∀ a t (i : Int), s.arrays[a]? = some t → i < -t.size ∨ t.size ≤ i →
    (Call.get a i).Refuses p s .outOfRange ∧
      ∀ y : Except Failure α, (Call.setInPlace a (some i) y).Refuses p s .outOfRange
  /-- Every entry has a position from the front and one from the end, and is read and set under both. -/
  inside : ∀ a t (k : Nat) (i : Int), s.arrays[a]? = some t → k < t.size → i = k ∨ i = k - t.size →
    (∃ x, t.entries[k]? = some x ∧ (Call.get a i).Answers p s x) ∧
      ∀ y, ∃ t', (Call.setInPlace a (some i) (.ok y)).Changes p s a t' ∧
        t'.Alike t ∧ (∀ l ≠ k, t'.entries[l]? = t.entries[l]?) ∧
        ∃ z, (Call.get a i).Answers p ⟨s.arrays.set a t'⟩ z ∧ z = Scalar.round t.precision y ∧
          (t.precision.Has [y] → z = y)

section Rounding

variable {p : Precision} (hp : Scalar.RoundsOnce α p)
include hp

theorem Precision.Has.map_round {xs : List α} (h : p.Has xs) : xs.map (Scalar.round p) = xs := by
  rcases h with rfl | h
  · exact (List.map_congr_left fun x _ => hp.double x).trans (List.map_id _)
  · exact (List.map_congr_left h).trans (List.map_id _)

theorem Tensor.entries_toVector (t : Tensor α) : t.toVector.entries = t.entries :=
  (List.map_congr_left fun x _ => hp.double x).trans (List.map_id _)

/-- In double precision an array reads as it did. -/
theorem Tensor.ReadsAs.toPlane {m n : Nat} {t : Tensor α} {A : Fin m → Fin n → α}
    (h : t.ReadsAs A) (hshape : t.shape = [m, n]) : t.toPlane.ReadsAs A ∧ t.toPlane.shape = [m, n] := by
  have hplane : t.toPlane = t.convert .double := by
    unfold Tensor.toPlane
    split
    next k hk =>
      rw [hshape] at hk
      cases hk
    next => rfl
  rw [hplane]
  exact ⟨⟨.inl hshape, (entries_toVector hp t).trans h.entries_eq⟩, hshape⟩

/-- Values that fill whole rows make a matrix of these rows, kept as the precision keeps them. -/
theorem Call.exists_makes_matrix (s : Store α) {rows : Int} {xs : List α}
    (h : Tensor.FillsRows rows xs.length) :
    ∃ t, (Call.matrix rows (Source.values xs)).Makes p s t ∧
      t.shape = [rows.toNat, xs.length / rows.toNat] ∧ t.entries = xs.map (Scalar.round p) ∧
      t.precision = p := by
  have hlength : (xs.map (Scalar.round p)).length = xs.length := List.length_map _
  have hfills : Tensor.FillsRows rows (xs.map (Scalar.round p)).length := hlength ▸ h
  obtain ⟨t, ht, hshape, hentries, hprecision⟩ := Tensor.matrix_eq_ok (p := p) hfills
  rw [hlength] at hshape
  rw [Tensor.map_round_map hp.again (fun x => x) xs] at hentries
  exact ⟨t, makes_matrix h ht, hshape, hentries, hprecision⟩

namespace Store

variable (s : Store α)

theorem rowMajor_filled {rows : Int} {xs : List α} (h : Tensor.FillsRows rows xs.length) :
    ∃ t v, (Call.matrix rows (Source.values xs)).Makes p s t ∧
      t.shape = [rows.toNat, xs.length / rows.toNat] ∧
      (Call.toVector (.stored s.arrays.length)).Makes p ⟨s.arrays ++ [t]⟩ v ∧
      v.shape = [xs.length] ∧ v.entries = xs.map (Scalar.round p) ∧ (p.Has xs → v.entries = xs) := by
  obtain ⟨t, hmakes, hshape, hentries, -⟩ := Call.exists_makes_matrix hp s h
  have hvector : t.toVector.entries = xs.map (Scalar.round p) := (t.entries_toVector hp).trans hentries
  refine ⟨t, t.toVector, hmakes, hshape, Call.makes_toVector ?_, ?_, hvector,
    fun hhas => hvector.trans (hhas.map_round hp)⟩
  · rw [List.getElem?_append_right le_rfl, Nat.sub_self]
    rfl
  · show [t.entries.length] = _
    rw [hentries, List.length_map]

theorem rowMajor_refilled {s : Store α} {a : Handle} {t : Tensor α} {m n : Nat}
    (ht : s.arrays[a]? = some t) (hshape : t.shape = [m, n]) (hm : 1 ≤ m) :
    (Call.rowCount a).Counts p s m ∧
      ∃ v u, (Call.toVector (.stored a)).Makes p s v ∧
        (Call.matrix m (Source.values v.entries)).Makes p ⟨s.arrays ++ [v]⟩ u ∧
        u.shape = t.shape ∧ u.entries = t.entries.map (Scalar.round p) ∧
        (t.precision = p → p.Has t.entries → u = t) := by
  have hcount : t.rowCount = .ok m := by rw [Tensor.rowCount, hshape]
  have hlength : t.entries.length = m * n := by
    rw [t.length_entries, hshape, volume_cons, volume_cons, volume_nil, Nat.mul_one]
  have hfills : Tensor.FillsRows m t.entries.length := by
    rw [Tensor.fillsRows_iff, hlength, Int.natCast_dvd_natCast]
    exact ⟨Int.ofNat_le.mpr hm, Nat.dvd_mul_right m n⟩
  obtain ⟨u, hmakes, hu, hentries, hprecision⟩ :=
    Call.exists_makes_matrix hp (⟨s.arrays ++ [t.toVector]⟩ : Store α) hfills
  have hushape : u.shape = t.shape := by
    rw [hu, hshape, hlength, Int.toNat_natCast, Nat.mul_div_cancel_left n hm]
  refine ⟨Call.run_of_fetch (g := .count) rfl ht hcount, t.toVector, u, Call.makes_toVector ht, ?_,
    hushape, hentries, fun hkept hhas => ?_⟩
  · rw [t.entries_toVector hp]
    exact hmakes
  · exact Tensor.ext hushape (hentries.trans (hhas.map_round hp)) (hprecision.trans hkept.symm)

theorem rowMajor_placed {s : Store α} {a : Handle} {t : Tensor α} {m n i j : Nat}
    (ht : s.arrays[a]? = some t) (hshape : t.shape = [m, n]) (hi : i < m) (hj : j < n) :
    ∃ x v w, (Call.get a (i * n + j : Nat)).Answers p s x ∧
      (Call.toVector (.stored a)).Makes p s v ∧ v.entries[i * n + j]? = some x ∧
      (Call.toPlane a).Makes p s w ∧ w.shape = [m, n] ∧ w.entryAt i j = some x := by
  obtain ⟨A, hA⟩ := Tensor.exists_readsAs_of_matrix hshape
  have hx : t.entries[i * n + j]? = some (A ⟨i, hi⟩ ⟨j, hj⟩) := by
    rw [hA.entries_eq]
    exact Tensor.getElem?_rowMajor A ⟨i, hi⟩ ⟨j, hj⟩
  have hposition : Tensor.position? t.size (i * n + j : Nat) = some (i * n + j) :=
    Tensor.position?_of_lt (List.getElem?_eq_some_iff.mp hx).1
  obtain ⟨hplane, hplaneShape⟩ := hA.toPlane hp hshape
  refine ⟨A ⟨i, hi⟩ ⟨j, hj⟩, t.toVector, t.toPlane,
    Call.run_of_fetch (g := .number) rfl ht (Tensor.get_eq_ok hposition hx), Call.makes_toVector ht, ?_,
    Call.makes_toPlane ht, hplaneShape, ?_⟩
  · rw [t.entries_toVector hp]
    exact hx
  · rw [hplane.entryAt_eq, dif_pos ⟨hi, hj⟩]

omit hp in
theorem rowMajor_outside {s : Store α} {a : Handle} {t : Tensor α} {i : Int}
    (ht : s.arrays[a]? = some t) (hi : i < -t.size ∨ t.size ≤ i) :
    (Call.get a i).Refuses p s .outOfRange ∧
      ∀ y : Except Failure α, (Call.setInPlace a (some i) y).Refuses p s .outOfRange := by
  have hposition := Tensor.position?_eq_none hi
  exact ⟨Call.refuses_of_fetch (g := .number) rfl ht (Tensor.get_eq_error hposition),
    fun y => Call.refuses_of_fetch (g := .update a) rfl ht (Tensor.set_eq_error hposition y)⟩

theorem rowMajor_inside {s : Store α} {a : Handle} {t : Tensor α} {k : Nat} {i : Int}
    (ht : s.arrays[a]? = some t) (hk : k < t.size) (hi : i = k ∨ i = k - t.size) :
    (∃ x, t.entries[k]? = some x ∧ (Call.get a i).Answers p s x) ∧
      ∀ y, ∃ t', (Call.setInPlace a (some i) (.ok y)).Changes p s a t' ∧
        t'.Alike t ∧ (∀ l ≠ k, t'.entries[l]? = t.entries[l]?) ∧
        ∃ z, (Call.get a i).Answers p ⟨s.arrays.set a t'⟩ z ∧ z = Scalar.round t.precision y ∧
          (t.precision.Has [y] → z = y) := by
  have hposition : Tensor.position? t.size i = some k := by
    rcases hi with rfl | rfl
    · exact Tensor.position?_of_lt hk
    · exact Tensor.position?_sub hk
  refine ⟨?_, fun y => ?_⟩
  · have hx : t.entries[k]? = some t.entries[k] := List.getElem?_eq_getElem hk
    exact ⟨_, hx, Call.run_of_fetch (g := .number) rfl ht (Tensor.get_eq_ok hposition hx)⟩
  · have hset : (s.arrays.set a (t.setAt k y))[a]? = some (t.setAt k y) :=
      List.getElem?_set_self (List.getElem?_eq_some_iff.mp ht).1
    have hsize : (t.setAt k y).size = t.size := List.length_set
    refine ⟨t.setAt k y, Call.run_of_fetch (g := .update a) rfl ht (Tensor.set_eq_ok hposition),
      Tensor.alike_setAt t k y, fun l hl => Tensor.getElem?_setAt_of_ne hl, _,
      Call.run_of_fetch (g := .number) rfl hset
        (Tensor.get_eq_ok (hsize ▸ hposition) (Tensor.getElem?_setAt_self hk)), rfl, fun hhas => ?_⟩
    rcases hhas with hdouble | hround
    · rw [hdouble]
      exact hp.double y
    · exact hround y (List.mem_singleton_self y)

/-- Positions, rows and columns, and the order in which values are given and come back agree on every store. -/
theorem positions_agree : s.RowMajor p where
  refused rows xs h := Call.refuses_matrix fun hfills => by
    obtain ⟨hrows, hdvd⟩ := Tensor.fillsRows_iff.mp hfills
    rcases h with h | h
    · exact absurd hrows (Int.not_le.mpr h)
    · exact h hdvd
  filled rows xs h := by
    rw [not_or, not_not, Int.not_lt] at h
    exact rowMajor_filled hp s (Tensor.fillsRows_iff.mpr h)
  refilled _ _ _ _ ht hshape hm := rowMajor_refilled hp ht hshape hm
  placed _ _ _ _ _ _ ht hshape hi hj := rowMajor_placed hp ht hshape hi hj
  outside _ _ _ ht hi := rowMajor_outside ht hi
  inside _ _ _ _ ht hk hi := rowMajor_inside hp ht hk hi

end Store

end Rounding

/-- A store with a matrix of two rows and a vector. -/
theorem Store.positions_agree_matrix :
    Scalar.RoundsOnce Float .double ∧
      Store.RowMajor .double (⟨[⟨[2, 3], [1, 2, 3, 4, 5, 6], .double, rfl⟩,
        ⟨[2], [7, 8], .double, rfl⟩]⟩ : Store Float) :=
  ⟨Scalar.roundsOnce_float, positions_agree Scalar.roundsOnce_float _⟩

end Minimization
