import Minimization.Tensor.Call

/-!
# What calls do to a store

A call has a target if it works in place: the array of its first operand. `Store.Leads` says all that can
become of a store. A call without a target leaves every array alone and may add a new one. A call with a
target gives this array other contents of the same form, and answers its handle. If a call fails the store is
what it was, unless entries were set at one position after the other.

`Call.leads` goes through the operations once; everything else is read off `Store.Leads`.
-/

namespace Minimization

variable {α : Type}

/-- An array has the shape and the precision of another one. -/
structure Tensor.Alike (t' t : Tensor α) : Prop where
  shape_eq : t'.shape = t.shape
  precision_eq : t'.precision = t.precision

/-- What can become of a store by a call with this target, or without one; `whole` says that it is carried out
as a whole or not at all. -/
inductive Store.Leads (s : Store α) :
    Option Handle → (whole : Bool) → Except Failure (Outcome α) → Store α → Prop where
  | failed {target? whole} (e : Failure) : Leads s target? whole (.error e) s
  | made {whole} (t : Tensor α) : Leads s none whole (.ok (.array s.arrays.length)) ⟨s.arrays ++ [t]⟩
  | answered {whole} (x : α) : Leads s none whole (.ok (.number x)) s
  | counted {whole} (n : Nat) : Leads s none whole (.ok (.count n)) s
  | changed {whole a t t'} (ht : s.arrays[a]? = some t) (alike : Tensor.Alike t' t) :
      Leads s (some a) whole (.ok (.array a)) ⟨s.arrays.set a t'⟩
  | cut {a t t'} (ht : s.arrays[a]? = some t) (alike : Tensor.Alike t' t) (e : Failure) :
      Leads s (some a) false (.error e) ⟨s.arrays.set a t'⟩

/-- The array that a call changes. -/
def Call.target? : Call α → Option Handle
  | addInPlace a _ | subInPlace a _ | scaleInPlace a _ | mapInPlace a _ | normalizeInPlace a _
  | setInPlace a _ _ | setEachInPlace a _ _ => some a
  | _ => none

/-- Whether a call is carried out as a whole or not at all. -/
def Call.isWhole : Call α → Bool
  | setEachInPlace _ _ _ => false
  | _ => true

variable {s : Store α} {target? : Option Handle} {whole : Bool} {a : Handle} {t : Tensor α}

/-! ## What is left alone -/

namespace Store.Leads

variable {s' : Store α} {r : Except Failure (Outcome α)}

/-- What can become of a store as a whole or not at all can also become of it piece by piece. -/
theorem of_whole (h : s.Leads target? true r s') (whole : Bool) : s.Leads target? whole r s' := by
  cases h with
  | failed e => exact .failed e
  | made t => exact .made t
  | answered x => exact .answered x
  | counted n => exact .counted n
  | changed ht alike => exact .changed ht alike

theorem eq_of_error {e : Failure} (h : s.Leads target? true (.error e) s') : s' = s := by
  cases h with
  | failed => rfl

/-- Only the target gets other contents. -/
theorem getElem?_eq (h : s.Leads target? whole r s') (ha : a < s.arrays.length)
    (hne : target? ≠ some a) : s'.arrays[a]? = s.arrays[a]? := by
  cases h with
  | failed | answered | counted => rfl
  | made t => exact List.getElem?_append_left ha
  | changed | cut => exact List.getElem?_set_ne fun heq => hne (congrArg some heq)

/-- No array is lost. -/
theorem length_le (h : s.Leads target? whole r s') : s.arrays.length ≤ s'.arrays.length := by
  cases h with
  | failed | answered | counted => exact Nat.le_refl _
  | made t =>
    rw [List.length_append]
    exact Nat.le_add_right ..
  | changed | cut => exact Nat.le_of_eq List.length_set.symm

/-- The array that is answered exists. -/
theorem lt_length (h : s.Leads target? whole (.ok (.array a)) s') :
    a < s'.arrays.length := by
  cases h with
  | made t => simp
  | changed ht =>
    rw [List.length_set]
    exact (List.getElem?_eq_some_iff.mp ht).1

/-- Without a target the array that is answered is a new one. -/
theorem eq_length (h : s.Leads none whole (.ok (.array a)) s') :
    a = s.arrays.length := by
  cases h with
  | made t => rfl

/-- A success with a target answers it. -/
theorem changed_of_ok {o : Outcome α} (h : s.Leads (some a) whole (.ok o) s') :
    o = .array a ∧
      ∃ t t', s.arrays[a]? = some t ∧ Tensor.Alike t' t ∧ s' = ⟨s.arrays.set a t'⟩ := by
  cases h with
  | changed ht alike => exact ⟨rfl, _, _, ht, alike, rfl⟩

end Store.Leads

/-! ## Effects -/

/-- What an effect does can be done by a call with this target. -/
def Effect.Leads (s : Store α) (target? : Option Handle) (whole : Bool) (e : Effect α) : Prop :=
  s.Leads target? whole (e.apply s).1 (e.apply s).2

theorem Effect.leads_ofArithmetic (t : Tensor α) : (Effect.ofArithmetic t).Leads s none whole := by
  unfold ofArithmetic
  split
  · exact .answered _
  · exact .made _

theorem Store.yields_fetch (s : Store α) (a : Handle) :
    Yields (fun t => s.arrays[a]? = some t) (s.fetch a) := by
  unfold fetch
  split
  next t ht => exact ht
  next => exact .error _

/-- Other contents of the same form, if there are any, for an array that there is. -/
theorem Effect.leads_update (ht : s.arrays[a]? = some t) {x : Except Failure (Tensor α)}
    (hx : Yields (Tensor.Alike · t) x) :
    Yields (Effect.Leads s (some a) whole) (x >>= fun t' => pure (.update a t')) :=
  .bind hx fun _ alike => .changed ht alike

/-! ## Form -/

namespace Tensor

theorem Alike.refl (x : Tensor α) : Alike x x := ⟨rfl, rfl⟩

theorem Alike.trans {x y z : Tensor α} (hxy : Alike x y) (hyz : Alike y z) : Alike x z :=
  ⟨hxy.shape_eq.trans hyz.shape_eq, hxy.precision_eq.trans hyz.precision_eq⟩

theorem alike_mapM (f : α → Except Failure α) (x : Tensor α) : Yields (Alike · x) (x.mapM f) := by
  unfold mapM
  split
  · exact .error _
  · exact ⟨rfl, rfl⟩

variable [Scalar α]

theorem alike_scale (x : Tensor α) (a : α) : Alike (x.scale a) x := ⟨rfl, rfl⟩

theorem alike_setAt (x : Tensor α) (k : Nat) (a : α) : Alike (x.setAt k a) x := ⟨rfl, rfl⟩

theorem alike_combineInto (operation : String) (f : α → α → α) (x y : Tensor α) :
    Yields (Alike · x) (combineInto operation f x y) := by
  unfold combineInto combine
  split
  · exact ⟨rfl, rfl⟩
  · exact .error _

theorem alike_normalizeAbove (threshold : α) (x : Tensor α) :
    Yields (Alike · x) (x.normalizeAbove threshold) := by
  unfold normalizeAbove
  split
  · exact .refl x
  · rcases Scalar.divide Scalar.one x.norm with e | a
    · exact .error e
    · exact alike_scale x a

theorem alike_set (x : Tensor α) (i : Int) (a : Except Failure α) : Yields (Alike · x) (x.set i a) := by
  unfold set
  split
  · exact .bind_any fun a => alike_setAt x _ a
  · exact .error _

theorem alike_setEach (a : α) (is : List Int) (x : Tensor α) : Alike (x.setEach a is).1 x := by
  induction is generalizing x with
  | nil => exact .refl x
  | cons i is ih =>
    rw [setEach]
    split
    next k _ => exact (ih (x.setAt k a)).trans (alike_setAt x k a)
    next => exact .refl x

end Tensor

variable [Scalar α]

theorem Store.alike_timesInto (s : Store α) (t : Tensor α) (f : Factor α) :
    Yields (Tensor.Alike · t) (s.timesInto t f) := by
  unfold timesInto
  split
  · exact .bind_any fun x => Tensor.alike_scale t x
  · refine .bind_any fun y => .bind_any fun z => ?_
    split
    next hshape => exact ⟨hshape, rfl⟩
    next => exact .error _
  · exact .error _

/-! ## Calls -/

theorem Effect.leads_ofEach (ht : s.arrays[a]? = some t) (x : α) (is : List Int) :
    (Effect.ofEach a (t.setEach x is)).Leads s (some a) false := by
  have alike := Tensor.alike_setEach x is t
  rcases hset : t.setEach x is with ⟨t', - | e⟩ <;> rw [hset] at alike
  · exact .changed ht alike
  · exact .cut ht alike e

theorem Call.leads_effect (p : Precision) (s : Store α) (c : Call α) :
    Yields (Effect.Leads s c.target? c.isWhole) (c.effect p s) := by
  cases c with
  | addInPlace a b =>
    exact .bind (s.yields_fetch a) fun t ht => .bind_any fun u =>
      Effect.leads_update ht (Tensor.alike_combineInto _ _ t u)
  | subInPlace a b =>
    exact .bind (s.yields_fetch a) fun t ht => .bind_any fun u =>
      Effect.leads_update ht (Tensor.alike_combineInto _ _ t u)
  | scaleInPlace a x =>
    exact .bind (s.yields_fetch a) fun t ht => Effect.leads_update ht (s.alike_timesInto t x)
  | mapInPlace a f =>
    exact .bind (s.yields_fetch a) fun t ht => Effect.leads_update ht (Tensor.alike_mapM _ t)
  | normalizeInPlace a threshold =>
    exact .bind (s.yields_fetch a) fun t ht => .bind_any fun x =>
      Effect.leads_update ht (Tensor.alike_normalizeAbove x t)
  | setInPlace a position x =>
    cases position with
    | none => exact .bind (s.yields_fetch a) fun t ht => .changed ht (.refl t)
    | some i => exact .bind (s.yields_fetch a) fun t ht => Effect.leads_update ht (Tensor.alike_set t i x)
  | setEachInPlace a positions x =>
    exact .bind (s.yields_fetch a) fun t ht => Effect.leads_ofEach ht x positions
  | matrix rows sources =>
    -- Values that do not fill the rows are refused before and after they are gathered.
    exact .ite (.bind_any fun _ => .ite (.error _) (.bind_any fun _ => .made _)) (.error _)
  | number x => exact .answered x
  | vector _ | zeros _ _ | drawn _ _ _ | copy _ | toVector _ | toPlane _ =>
    exact .bind_any fun _ => .made _
  | ofRows _ | identity _ _ | transpose _ => exact .bind_any fun _ => .bind_any fun _ => .made _
  | product _ _ | normalize _ _ =>
    exact .bind_any fun _ => .bind_any fun _ => .bind_any fun _ => .made _
  | size _ => exact .bind_any fun _ => .counted _
  | rowCount _ | columnCount _ => exact .bind_any fun _ => .bind_any fun _ => .counted _
  | sum _ | normSquared _ | norm _ | distNumber _ _ => exact .bind_any fun _ => .answered _
  | get _ _ => exact .bind_any fun _ => .bind_any fun _ => .answered _
  | inner _ _ | dist _ _ => exact .bind_any fun _ => .bind_any fun _ => .bind_any fun _ => .answered _
  | addNumber _ _ | subNumber _ _ => exact .bind_any fun _ => Effect.leads_ofArithmetic _
  | scale _ _ => exact .bind_any fun _ => .bind_any fun _ => Effect.leads_ofArithmetic _
  | add _ _ | sub _ _ | multiply _ _ =>
    exact .bind_any fun _ => .bind_any fun _ => .bind_any fun _ => Effect.leads_ofArithmetic _

/-- What a call leaves is what can become of the store. -/
theorem Call.leads (p : Precision) (s : Store α) (c : Call α) :
    s.Leads c.target? c.isWhole (c.run p s).1 (c.run p s).2 := by
  have h := c.leads_effect p s
  unfold run
  split
  next e _ => exact .failed e
  next e he => exact h.of_ok he

end Minimization
