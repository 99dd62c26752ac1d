import Minimization.Scalar

/-!
# Dense arrays

A `Tensor` is a shape (a list of extents, none for a single number), its entries in row-major order,
and the precision they are kept with. That there are as many entries as the shape has positions is
part of the type. Vectors have one extent and stand for columns; matrices have two.

`blocks` cuts a list into pieces of one size and `columns` reads rows across: the two views of a
row-major layout that the operations use.
-/

namespace Minimization

/-- The number of positions in a shape: the product of its extents. -/
def volume : List Nat → Nat
  | [] => 1
  | n :: shape => n * volume shape

@[simp] theorem volume_nil : volume [] = 1 := rfl

@[simp] theorem volume_cons (n : Nat) (shape : List Nat) :
    volume (n :: shape) = n * volume shape := rfl

@[simp] theorem volume_append (s t : List Nat) : volume (s ++ t) = volume s * volume t := by
  induction s with
  | nil => simp
  | cons n s ih => simp [ih, Nat.mul_assoc]

@[simp] theorem volume_reverse (shape : List Nat) : volume shape.reverse = volume shape := by
  induction shape with
  | nil => rfl
  | cons n shape ih => simp [ih, Nat.mul_comm]

/-- A dense array: its shape, its entries in row-major order, their precision. -/
structure Tensor (α : Type) where
  shape : List Nat
  entries : List α
  precision : Precision
  length_entries : entries.length = volume shape

namespace Tensor

variable {α β : Type}

/-- The first `count` pieces of `size` items. -/
def blocks (size : Nat) : (count : Nat) → List α → List (List α)
  | 0, _ => []
  | count + 1, xs => xs.take size :: blocks size count (xs.drop size)

/-- The first `count` columns of a list of rows. -/
def columns : (count : Nat) → List (List α) → List (List α)
  | 0, _ => []
  | count + 1, rows => rows.filterMap List.head? :: columns count (rows.map List.tail)

@[simp] theorem length_blocks (size count : Nat) (xs : List α) :
    (blocks size count xs).length = count := by
  induction count generalizing xs with
  | zero => rfl
  | succ count ih => simp [blocks, ih]

theorem length_of_mem_blocks {size count : Nat} {xs b : List α} (h : xs.length = size * count)
    (hb : b ∈ blocks size count xs) : b.length = size := by
  induction count generalizing xs with
  | zero => simp [blocks] at hb
  | succ count ih =>
    rw [Nat.mul_succ] at h
    rcases List.mem_cons.1 hb with rfl | hb
    · simp [h]
    · exact ih (by simp [h]) hb

@[simp] theorem length_columns (count : Nat) (rows : List (List α)) :
    (columns count rows).length = count := by
  induction count generalizing rows with
  | zero => rfl
  | succ count ih => simp [columns, ih]

/-- Lists of one length together have that length times their number. -/
theorem length_flatten_of_forall {n : Nat} {xss : List (List α)} (h : ∀ xs ∈ xss, xs.length = n) :
    xss.flatten.length = xss.length * n := by
  induction xss with
  | nil => simp
  | cons xs xss ih =>
    rw [List.flatten_cons, List.length_append, h xs (by simp), ih fun ys hy => h ys (by simp [hy]),
      List.length_cons, Nat.succ_mul, Nat.add_comm]

theorem length_filterMap_head? {n : Nat} {rows : List (List α)} (h : ∀ r ∈ rows, r.length = n + 1) :
    (rows.filterMap List.head?).length = rows.length := by
  induction rows with
  | nil => rfl
  | cons r rows ih =>
    cases r with
    | nil => simpa using h [] (by simp)
    | cons a r => simp [ih fun s hs => h s (by simp [hs])]

theorem length_of_mem_columns {count : Nat} {rows : List (List α)} {c : List α}
    (h : ∀ r ∈ rows, r.length = count) (hc : c ∈ columns count rows) : c.length = rows.length := by
  induction count generalizing rows with
  | zero => simp [columns] at hc
  | succ count ih =>
    rcases List.mem_cons.1 hc with rfl | hc
    · exact length_filterMap_head? h
    · have ht : ∀ r ∈ rows.map List.tail, r.length = count := by
        intro r hr
        obtain ⟨s, hs, rfl⟩ := List.mem_map.1 hr
        simp [h s hs]
      simpa using ih ht hc

/-- The number of entries. -/
def size (t : Tensor α) : Nat := t.entries.length

/-- The number of extents: none for a single number, one for a vector, two for a matrix. -/
def rank (t : Tensor α) : Nat := t.shape.length

/-- The first extent; a single number has none. -/
def rowCount (t : Tensor α) : Except Failure Nat :=
  match t.shape with
  | [] => .error .outOfRange
  | n :: _ => .ok n

/-- The second extent; a vector is one column, a single number has none. -/
def columnCount (t : Tensor α) : Except Failure Nat :=
  match t.shape with
  | [] => .error .outOfRange
  | [_] => .ok 1
  | _ :: n :: _ => .ok n

/-- Every entry through a function. -/
def map (f : α → α) (t : Tensor α) : Tensor α :=
  { t with
    entries := t.entries.map f
    length_entries := by simp [t.length_entries] }

/-- Every entry through a function that may fail: the first failure is the result. -/
def mapM {ε : Type} (f : α → Except ε α) (t : Tensor α) : Except ε (Tensor α) :=
  match h : t.entries.mapM f with
  | .error e => .error e
  | .ok ys =>
    .ok { t with
      entries := ys
      length_entries := by rw [← t.length_entries]; exact length_mapM h }
where
  length_mapM {xs : List α} {ys : List α} (h : xs.mapM f = .ok ys) : ys.length = xs.length := by
    induction xs generalizing ys with
    | nil =>
      simp [pure, Except.pure] at h
      simp [← h]
    | cons x xs ih =>
      rw [List.mapM_cons] at h
      cases hx : f x with
      | error e => simp [hx, bind, Except.bind] at h
      | ok y =>
        cases hxs : xs.mapM f with
        | error e => simp [hx, hxs, bind, Except.bind] at h
        | ok zs =>
          simp [hx, hxs, bind, Except.bind, pure, Except.pure] at h
          simp [← h, ih hxs]

/-- Two arrays of one shape, entry by entry. -/
def zipWith (f : α → α → α) (a b : Tensor α) (h : a.shape = b.shape) : Tensor α :=
  { shape := a.shape
    entries := List.zipWith f a.entries b.entries
    precision := a.precision.max b.precision
    length_entries := by
      rw [List.length_zipWith, a.length_entries, b.length_entries, h, Nat.min_self] }

/-- The same entries as one vector. -/
def flatten (t : Tensor α) : Tensor α :=
  { t with
    shape := [t.size]
    length_entries := by simp [size] }

variable [Scalar α]

/-- The entries as they are kept with another precision. -/
def convert (p : Precision) (t : Tensor α) : Tensor α :=
  { t.map (Scalar.round p) with precision := p }

/-- The vector of some values. -/
def vector (p : Precision) (values : List α) : Tensor α :=
  { shape := [values.length]
    entries := values.map (Scalar.round p)
    precision := p
    length_entries := by simp }

/-- The array of a shape with one value at every position. -/
def replicate (p : Precision) (shape : List Nat) (value : α) : Tensor α :=
  { shape
    entries := List.replicate (volume shape) (Scalar.round p value)
    precision := p
    length_entries := by simp }

/-- The array of a shape filled with values in row-major order, if there are as many. -/
def ofEntries? (p : Precision) (shape : List Nat) (values : List α) : Option (Tensor α) :=
  if h : values.length = volume shape then
    some { shape, entries := values.map (Scalar.round p), precision := p, length_entries := by simp [h] }
  else none

/-- Whether `count` values fill `rows` rows of one length. -/
abbrev FillsRows (rows : Int) (count : Nat) : Prop := 1 ≤ rows ∧ count % rows.toNat = 0

/-- The failure of `count` values to fill `rows` rows. -/
def unfilledRows (rows : Int) (count : Nat) : Failure := .size (.rows count (toString rows))

/-- The matrix of `rows` rows filled with values in row-major order. The values must fill whole
rows. -/
def matrix (p : Precision) (rows : Int) (values : List α) : Except Failure (Tensor α) :=
  if h : FillsRows rows values.length then
    .ok
      { shape := [rows.toNat, values.length / rows.toNat]
        entries := values.map (Scalar.round p)
        precision := p
        length_entries := by simp [Nat.mul_div_cancel' (Nat.dvd_of_mod_eq_zero h.2)] }
  else .error (unfilledRows rows values.length)

/-- An extent of an array; there are no negative ones. -/
def extent (n : Int) : Except Failure Nat :=
  if n < 0 then .error .impossibleExtent else .ok n.toNat

/-- The shape of a vector, or of a matrix if a number of columns is given. -/
def planarShape (rows : Int) (columns : Option Int) : Except Failure (List Nat) := do
  match columns with
  | none => return [← extent rows]
  | some columns =>
    let n ← extent rows
    return [n, ← extent columns]

/-- The number of bytes that no array has, even if its other extents are zero. -/
def addressable : Nat := Nat.pow 2 63

/-- More entries than this are not held in memory. -/
def mostEntries : Nat := Nat.pow 2 28

/-- Makes sure that there is room for the entries of a shape, at eight bytes each. -/
def room (shape : List Nat) : Except Failure Unit :=
  if addressable ≤ 8 * volume (shape.filter (· ≠ 0)) then .error .impossibleExtent
  else if mostEntries < volume shape then .error .noMemory
  else .ok ()

/-- A vector or matrix of zeros. -/
def zeros (p : Precision) (rows : Int) (columns : Option Int) : Except Failure (Tensor α) := do
  let shape ← planarShape rows columns
  room shape
  return replicate p shape Scalar.zero

/-- The square matrix with ones on the diagonal. -/
def identity (p : Precision) (n : Int) : Except Failure (Tensor α) := do
  let n ← extent n
  room [n, n]
  let entry (k : Nat) : α := Scalar.round p (if k % (n + 1) = 0 then Scalar.one else Scalar.zero)
  return {
    shape := [n, n]
    entries := (List.range (n * n)).map entry
    precision := p
    length_entries := by simp }

/-- A vector or matrix of numbers from a source, which hands out as many as are asked for. -/
def drawn (p : Precision) (rows : Int) (columns : Option Int)
    (source : Nat → Except Failure (List α)) : Except Failure (Tensor α) := do
  let shape ← planarShape rows columns
  let values ← source (volume shape)
  match ofEntries? p shape values with
  | some t => return t
  | none => .error .exhausted

end Tensor

end Minimization
