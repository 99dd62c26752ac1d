import Mathlib.Data.List.Induction
import Mathlib.Data.List.TakeWhile
import Mathlib.Data.Nat.Digits.Defs
import Minimization.Value.Reader
import Minimization.Value.Writer

/-!
# What is read from a text

Reading goes over a text from left to right, and over its tokens once more; what it puts together is
numbers, words and texts, lists of what it has put together before, and objects that get their fields one
after the other. So a condition that holds of the first and passes on from the parts of a list or an
object to the whole (`Value.Inherited`) holds of every value that is read (`Value.Inherited.yields_read`):
the scanner keeps it for the tokens that stand for a value, and the reader for all that is open.

One such condition is that the value can be written. Only whole numbers can stand in the way, by their
count of digits, and no number with so many of them is read (`Value.isWritable_of_read`).
-/

namespace Minimization.Value

/-! ## Conditions that pass on to the whole -/

/-- A condition that holds of what a single token stands for, and passes on from the parts of a value to
the whole. -/
structure Inherited (P : Value → Prop) : Prop where
  number : ∀ cs, Yields P (readNumber cs)
  word : ∀ cs, Yields P (readWord cs)
  text : ∀ s, P (.text s)
  list : ∀ {vs : List Value}, (∀ v ∈ vs, P v) → P (.list vs)
  empty : P (.object [])
  set : ∀ {fs : Fields Value} {v : Value}, P (.object fs) → P v → ∀ name,
    P (.object (Fields.set fs name v))

/-- The condition holds of the value that a token stands for, if it stands for one. -/
def Token.Fulfils (P : Value → Prop) : Token → Prop
  | .plain v => P v
  | _ => True

/-- It holds of every token that the scanner has read so far. -/
def Scanner.Fulfils (P : Value → Prop) (s : Scanner) : Prop := ∀ t ∈ s.tokens, t.Fulfils P

/-- It holds of every value of an open list, or of the open object with the fields it has so far. -/
def Reader.Frame.Fulfils (P : Value → Prop) : Reader.Frame → Prop
  | .items before => ∀ v ∈ before, P v
  | .fields before _ => P (.object before)

/-- So it does of what has been read of the innermost value. -/
def Reader.Mode.Fulfils (P : Value → Prop) : Reader.Mode → Prop
  | .nextName before => P (.object before)
  | .colon before _ => P (.object before)
  | .complete v => P v
  | _ => True

/-- It holds of all that the reader has put together. -/
structure Reader.Fulfils (P : Value → Prop) (r : Reader) : Prop where
  frames : ∀ frame ∈ r.frames, frame.Fulfils P
  mode : r.mode.Fulfils P

/-! ## Numbers -/

/-- A number that can be read is a float, or has no more than so many decimal digits. -/
theorem readNumber_cases (cs : List Char) :
    (∃ e, readNumber cs = .error e) ∨ (∃ x, readNumber cs = .ok (.real x)) ∨
      ∃ negative ds, (∀ d ∈ ds, d.isDigit = true) ∧ ds.length ≤ Decimal.mostDigits ∧
        readNumber cs = .ok (.int (Decimal.signed negative (digitsValue ds))) := by
  unfold readNumber
  dsimp only
  have hdigits (cs : List Char) : ∀ d ∈ (spanDigits cs).1, d.isDigit = true :=
    fun d => List.mem_takeWhile_imp
  repeat' first | split | dsimp only
  all_goals first
    | exact .inl ⟨_, rfl⟩
    | exact .inr (.inl ⟨_, rfl⟩)
    | exact .inr (.inr ⟨_, _, hdigits _, not_lt.mp ‹_›, rfl⟩)

namespace Inherited

variable {P : Value → Prop}

/-! ## Tokens -/

theorem fulfils_of_mark {c : Char} {t : Token} (h : mark? c = some t) : t.Fulfils P := by
  unfold mark? at h
  split at h
  all_goals cases h
  all_goals trivial

theorem yields_start {tokens : List Token} (h : ∀ t ∈ tokens, t.Fulfils P) (c : Char) :
    Yields (Scanner.Fulfils P) (Scanner.start tokens c) := by
  refine .ite h (.ite h (.ite h (.ite h ?_)))
  split
  next hmark => exact List.forall_mem_cons.mpr ⟨fulfils_of_mark hmark, h⟩
  next => exact .error _

variable (hP : Inherited P)
include hP

/-- Only numbers and words become values. -/
theorem yields_scannerStep {s : Scanner} (h : s.Fulfils P) (c : Char) :
    Yields (Scanner.Fulfils P) (s.step c) := by
  unfold Scanner.step
  split
  next => exact yields_start h c
  next read _ =>
    refine .ite h (.ite h ?_)
    refine (hP.number read.reverse).bind fun v hv => yields_start ?_ c
    exact List.forall_mem_cons.mpr ⟨hv, h⟩
  next read _ =>
    refine .ite h ?_
    refine (hP.word read.reverse).bind fun v hv => yields_start ?_ c
    exact List.forall_mem_cons.mpr ⟨hv, h⟩
  next => exact .ite (List.forall_mem_cons.mpr ⟨trivial, h⟩) (.ite h (.ite (.error _) h))
  next =>
    refine .ite h ?_
    split
    next => exact h
    next => exact .error _
  next =>
    split
    next => exact .error _
    next => exact .ite h h

theorem yields_finish {s : Scanner} (h : s.Fulfils P) : Yields (∀ t ∈ ·, t.Fulfils P) s.finish := by
  have hreverse : ∀ {tokens : List Token}, (∀ t ∈ tokens, t.Fulfils P) →
      ∀ t ∈ tokens.reverse, t.Fulfils P := fun h t ht => h t (List.mem_reverse.mp ht)
  unfold Scanner.finish
  split
  next => exact hreverse h
  next read _ =>
    exact (hP.number read.reverse).bind fun v hv => hreverse (List.forall_mem_cons.mpr ⟨hv, h⟩)
  next read _ =>
    exact (hP.word read.reverse).bind fun v hv => hreverse (List.forall_mem_cons.mpr ⟨hv, h⟩)
  next => exact .error _

theorem yields_scan (text : String) : Yields (∀ t ∈ ·, t.Fulfils P) (Token.scan text) := by
  have hstart : Scanner.Fulfils P ⟨[], .between⟩ := fun t ht => absurd ht List.not_mem_nil
  have hstep (s : Scanner) (c : Char) (hs : s.Fulfils P) (_ : True) := hP.yields_scannerStep hs c
  exact (Yields.foldlM (fun _ _ => trivial) hstep hstart).bind fun _ hs => hP.yields_finish hs

/-! ## Values from tokens -/

theorem yields_takeValue {frames : List Reader.Frame} {t : Token}
    (h : ∀ frame ∈ frames, frame.Fulfils P) (ht : t.Fulfils P) :
    Yields (Reader.Fulfils P) (Reader.takeValue frames t) := by
  cases t with
  | openList => exact ⟨List.forall_mem_cons.mpr ⟨nofun, h⟩, trivial⟩
  | openObject => exact ⟨h, trivial⟩
  | text s => exact ⟨h, hP.text s⟩
  | plain v => exact ⟨h, ht⟩
  | _ => exact .error _

/-- A list or an object that is complete is made of values that the condition holds of. -/
theorem yields_readerStep {r : Reader} {t : Token} (h : r.Fulfils P) (ht : t.Fulfils P) :
    Yields (Reader.Fulfils P) (r.step t) := by
  obtain ⟨frames, mode⟩ := r
  obtain ⟨hframes, hmode⟩ := h
  unfold Reader.step
  dsimp only at hframes hmode ⊢
  split
  next => exact hP.yields_takeValue hframes ht
  next => exact ⟨(List.forall_mem_cons.mp hframes).2, hP.list nofun⟩
  next => exact hP.yields_takeValue hframes ht
  next => exact ⟨hframes, hP.empty⟩
  next => exact ⟨hframes, hP.empty⟩
  next => exact ⟨hframes, hmode⟩
  next => exact ⟨List.forall_mem_cons.mpr ⟨hmode, hframes⟩, trivial⟩
  -- The innermost list or object gets the value that is complete, and goes on or is complete itself.
  next =>
    obtain ⟨hbefore, hframes⟩ := List.forall_mem_cons.mp hframes
    exact ⟨List.forall_mem_cons.mpr ⟨List.forall_mem_cons.mpr ⟨hmode, hbefore⟩, hframes⟩, trivial⟩
  next =>
    obtain ⟨hbefore, hframes⟩ := List.forall_mem_cons.mp hframes
    refine ⟨hframes, hP.list fun v hv => ?_⟩
    rcases List.mem_cons.mp (List.mem_reverse.mp hv) with rfl | hv
    · exact hmode
    · exact hbefore v hv
  next =>
    obtain ⟨hbefore, hframes⟩ := List.forall_mem_cons.mp hframes
    exact ⟨hframes, hP.set hbefore hmode _⟩
  next =>
    obtain ⟨hbefore, hframes⟩ := List.forall_mem_cons.mp hframes
    exact ⟨hframes, hP.set hbefore hmode _⟩
  next => exact .error _

/-- The condition holds of every value that is read from a text. -/
theorem yields_read (text : String) : Yields P (read text) := by
  have hstart : Reader.Fulfils P ⟨[], .value⟩ :=
    ⟨fun frame hframe => absurd hframe List.not_mem_nil, trivial⟩
  refine (hP.yields_scan text).bind fun tokens htokens => ?_
  refine (Yields.foldlM htokens (fun _ _ hr ht => hP.yields_readerStep hr ht) hstart).bind
    fun r hr => ?_
  split
  next hmode _ =>
    have hcomplete := hr.mode
    rw [hmode] at hcomplete
    exact hcomplete
  next => exact .error _

end Inherited

/-! ## What is read can be written -/

section IsWritable

variable {vs : List Value} {fs : Fields Value} {v : Value}

theorem isWritable_list : (list vs).isWritable = true ↔ ∀ v ∈ vs, v.isWritable = true := by
  rw [isWritable]
  induction vs with
  | nil => exact ⟨fun _ => nofun, fun _ => rfl⟩
  | cons v vs ih => rw [areWritable, Bool.and_eq_true, ih, List.forall_mem_cons]

theorem isWritable_object : (object fs).isWritable = true ↔ ∀ f ∈ fs, f.2.isWritable = true := by
  rw [isWritable]
  induction fs with
  | nil => exact ⟨fun _ => nofun, fun _ => rfl⟩
  | cons f fs ih => rw [fieldsWritable, Bool.and_eq_true, ih, List.forall_mem_cons]

/-- A whole number can be written if it has no more than so many digits. -/
theorem isWritable_int {n : Int} :
    (int n).isWritable = true ↔ n.natAbs < 10 ^ Decimal.mostDigits := by
  rw [isWritable, decide_eq_true_eq, Nat.length_toDigits_le_iff (by decide) (by decide)]

/-- A number is below the power of ten with as many zeros as it has digits. -/
theorem digitsValue_lt {ds : List Char} (h : ∀ d ∈ ds, d.isDigit = true) :
    digitsValue ds < 10 ^ ds.length := by
  induction ds using List.reverseRecOn with
  | nil => decide
  | append_singleton ds d ih =>
    have hd : d.toNat - '0'.toNat ≤ 9 := by
      have := h d (by simp)
      simp only [Char.isDigit, Bool.and_eq_true, decide_eq_true_eq, ge_iff_le, UInt32.le_iff_toNat_le] at this
      have h9 : d.toNat ≤ 57 := this.2
      have h0 : '0'.toNat = 48 := rfl
      omega
    have hds := ih fun d hmem => h d (List.mem_append_left _ hmem)
    rw [digitsValue, List.foldl_append] at *
    rw [List.length_append]
    simp only [List.foldl_cons, List.foldl_nil, List.length_singleton, pow_succ] at *
    omega

/-- A whole number that is read has as many digits as can be written. -/
theorem isWritable_signed {negative : Bool} {ds : List Char} (h : ∀ d ∈ ds, d.isDigit = true)
    (hlength : ds.length ≤ Decimal.mostDigits) :
    (int (Decimal.signed negative (digitsValue ds))).isWritable = true := by
  have habs : (Decimal.signed negative (digitsValue ds)).natAbs = digitsValue ds := by
    cases negative
    · rfl
    · exact Int.natAbs_neg _
  rw [isWritable_int, habs]
  exact (digitsValue_lt h).trans_le (Nat.pow_le_pow_right (by decide) hlength)

/-- Writing takes no more than the parts of a value do. -/
theorem inherited_isWritable : Inherited (·.isWritable = true) where
  number cs := by
    rcases readNumber_cases cs with ⟨e, he⟩ | ⟨x, hx⟩ | ⟨negative, ds, hds, hlength, hn⟩
    · rw [he]
      exact .error e
    · rw [hx]
      rfl
    · rw [hn]
      exact isWritable_signed hds hlength
  word cs := by
    unfold readWord
    split
    all_goals trivial
  text _ := rfl
  list := isWritable_list.mpr
  empty := rfl
  set h hv name := isWritable_object.mpr fun f hf => by
    rcases Fields.mem_set hf with rfl | hf
    · exact hv
    · exact isWritable_object.mp h f hf

theorem isWritable_of_read {text : String} (h : read text = .ok v) : v.isWritable = true :=
  (inherited_isWritable.yields_read text).of_ok h

end IsWritable

end Minimization.Value
