import Minimization.Tensor.Access
import Minimization.Tensor.Reduction

/-!
# How arrays are kept

An array is kept with a precision if converting it to that precision changes nothing. Steps, multiples
and sums of arrays with one precision are kept with it, since every operation rounds its result, and a
number that was rounded once is not changed by rounding it again. A step never changes the shape of the
array that it moves. Where nothing is rounded, moving an array along a multiple of another one is an
equation between their entries.
-/

namespace Minimization

/-- Numbers are kept in double precision as they are, and those that were rounded to the precision
stay as they are when they are rounded again. -/
structure Scalar.RoundsOnce (α : Type) [Scalar α] (p : Precision) : Prop where
  double : ∀ a : α, Scalar.round .double a = a
  again : ∀ a : α, Scalar.round p (Scalar.round p a) = Scalar.round p a

theorem Scalar.roundsOnce_float : Scalar.RoundsOnce Float .double where
  double _ := rfl
  again _ := rfl

theorem Precision.max_self (p : Precision) : p.max p = p := by
  cases p <;> rfl

namespace Tensor

variable {α : Type} [Scalar α] {p : Precision} {x y z d : Tensor α}

/-- The array has the precision, and its entries are rounded to it. -/
structure IsKept (x : Tensor α) (p : Precision) : Prop where
  precision_eq : x.precision = p
  rounded : x.entries.map (Scalar.round p) = x.entries

theorem IsKept.convert_eq (h : x.IsKept p) : x.convert p = x := by
  obtain ⟨shape, entries, precision, hlength⟩ := x
  obtain ⟨rfl, hrounded⟩ := h
  unfold convert map
  dsimp only at hrounded ⊢
  congr 1

section Rounds

variable (hp : ∀ a : α, Scalar.round p (Scalar.round p a) = Scalar.round p a)
include hp

theorem map_round_map (f : α → α) (xs : List α) :
    (xs.map fun a => Scalar.round p (f a)).map (Scalar.round p) = xs.map fun a => Scalar.round p (f a) := by
  rw [List.map_map]
  exact List.map_congr_left fun a _ => hp (f a)

theorem isKept_convert (x : Tensor α) : (x.convert p).IsKept p where
  precision_eq := rfl
  rounded := map_round_map hp id x.entries

/-- What a step leads to is kept with the precision of the array and of the step. -/
theorem isKept_of_moveBy_ok (hx : x.precision = p) (hy : y.precision = p)
    (h : x.moveBy y = .ok z) : z.IsKept p := by
  subst hx
  unfold moveBy at h
  split at h
  next s _ _ =>
    obtain rfl := Except.ok.inj h
    exact ⟨rfl, map_round_map hp _ x.entries⟩
  next =>
    unfold add combine at h
    split at h
    next hs =>
      obtain rfl := Except.ok.inj h
      have hmax : x.precision.max y.precision = x.precision := by rw [hy, Precision.max_self]
      refine ⟨hmax, ?_⟩
      show (List.zipWith (fun a b => Scalar.round (x.precision.max y.precision) (a + b)) x.entries
          y.entries).map _
        = List.zipWith (fun a b => Scalar.round (x.precision.max y.precision) (a + b)) x.entries y.entries
      rw [hmax, List.map_zipWith]
      simp only [hp]
    next => cases h

end Rounds

/-- Where nothing is rounded, a vector has the values that it is made of. -/
theorem entries_vector_of_round (h : ∀ a : α, Scalar.round p a = a) (xs : List α) :
    (vector p xs).entries = xs := by
  show xs.map (Scalar.round p) = xs
  exact (List.map_congr_left fun a _ => h a).trans (List.map_id _)

/-! ## Shapes and precisions -/

theorem combine_eq_ok {operation : String} {f : α → α → α} (h : combine operation f x y = .ok z) :
    x.shape = y.shape ∧ z.shape = x.shape ∧ z.precision = x.precision.max y.precision := by
  unfold combine at h
  split at h
  next hs =>
    obtain rfl := Except.ok.inj h
    exact ⟨hs, rfl, rfl⟩
  next => cases h

/-- A step leads to an array of the same shape. -/
theorem shape_of_moveBy_ok (h : x.moveBy y = .ok z) : z.shape = x.shape := by
  unfold moveBy at h
  split at h
  next =>
    obtain rfl := Except.ok.inj h
    rfl
  next => exact (combine_eq_ok h).2.1

/-- Arrays in double precision are moved to such arrays. -/
theorem double_of_moveBy_ok (hx : x.precision = .double) (h : x.moveBy y = .ok z) :
    z.precision = .double := by
  unfold moveBy at h
  split at h
  next =>
    obtain rfl := Except.ok.inj h
    exact hx
  next =>
    rw [(combine_eq_ok h).2.2, hx]
    rfl

theorem precision_of_combineInto_ok {operation : String} {f : α → α → α}
    (h : combineInto operation f x y = .ok z) : z.precision = x.precision := by
  unfold combineInto at h
  rcases hc : combine operation f x y with e | w
  · rw [hc] at h
    cases h
  · rw [hc] at h
    obtain rfl := Except.ok.inj h
    rfl

theorem normalizeAbove_eq_ok {threshold : α} (h : x.normalizeAbove threshold = .ok z) :
    z = x ∨ ∃ c, z = x.scale c := by
  unfold normalizeAbove at h
  split at h
  next => exact .inl (Except.ok.inj h).symm
  next =>
    rcases hc : Scalar.divide Scalar.one x.norm with e | c
    · rw [hc] at h
      cases h
    · rw [hc] at h
      exact .inr ⟨c, (Except.ok.inj h).symm⟩

theorem precision_of_normalizeAbove_ok {threshold : α} (h : x.normalizeAbove threshold = .ok z) :
    z.precision = x.precision := by
  rcases normalizeAbove_eq_ok h with rfl | ⟨c, rfl⟩
  · rfl
  · rfl

theorem size_of_normalizeAbove_ok {threshold : α} (h : x.normalizeAbove threshold = .ok z) :
    z.size = x.size := by
  rcases normalizeAbove_eq_ok h with rfl | ⟨c, rfl⟩
  · rfl
  · exact List.length_map _

/-- The distance of two arrays of one shape exists. -/
theorem dist_ok (h : x.shape = y.shape) : ∃ a, x.dist y = .ok a := by
  unfold dist sub combine
  rw [dif_pos h]
  exact ⟨_, rfl⟩

/-! ## Without rounding -/

/-- Where nothing is rounded, the entries are moved by the multiple of those of the direction. -/
theorem entries_of_moveBy_scale_ok {a : α} (hx : ∀ b : α, Scalar.round x.precision b = b)
    (hd : ∀ b : α, Scalar.round d.precision b = b) (hsize : d.size = x.size)
    (h : x.moveBy (d.scale a) = .ok z) :
    z.entries = List.zipWith (fun e f => e + f * a) x.entries d.entries := by
  have hscale : (d.scale a).entries = d.entries.map fun f => f * a := by
    show d.entries.map (fun f => Scalar.round d.precision (f * Scalar.round d.precision a)) = _
    simp only [hd]
  unfold moveBy at h
  split at h
  next s _ he =>
    -- The direction has one entry, so the array has one as well.
    obtain rfl := Except.ok.inj h
    obtain ⟨f, hf⟩ : ∃ f, d.entries = [f] := by
      rw [hscale] at he
      obtain ⟨f, hf, -⟩ := List.map_eq_singleton_iff.mp he
      exact ⟨f, hf⟩
    obtain ⟨e, hxe⟩ : ∃ e, x.entries = [e] := by
      rw [← List.length_eq_one_iff]
      rw [size, size, hf] at hsize
      exact hsize.symm
    obtain rfl : s = f * a := by
      rw [hscale, hf] at he
      exact (List.cons.inj he).1.symm
    show x.entries.map (fun b => Scalar.round x.precision (b + Scalar.round x.precision (f * a))) = _
    rw [hxe, hf]
    simp only [hx, List.map_cons, List.map_nil, List.zipWith_cons_cons, List.zipWith_nil_left]
  next =>
    unfold add combine at h
    split at h
    next hs =>
      obtain rfl := Except.ok.inj h
      have hmax : ∀ b : α, Scalar.round (x.precision.max d.precision) b = b := by
        intro b
        rcases hq : x.precision with _ | _
        · exact hd b
        · rw [hq] at hx
          exact hx b
      show List.zipWith (fun e f => Scalar.round (x.precision.max d.precision) (e + f)) x.entries
        (d.scale a).entries = _
      simp only [hmax]
      rw [hscale, List.zipWith_map_right]
    next => cases h

end Tensor

end Minimization
