import Mathlib.Data.List.Basic
import Minimization.Objective.LeastSquares
import Minimization.Proofs.Perform
import Minimization.Proofs.Random.Publishing
import Minimization.Proofs.Random.Sampling

/-!
# Which rows a batch has

The rows kept by a least squares objective are a memory of one entry. As long as they are the rows that
would be drawn for their number (`LeastSquares.IsDrawn`), an answer that uses them is the answer that
draws anew (`LeastSquares.perform_answer`), and it leaves such rows behind, also where a number is
refused. So no order of writes to the cell and of calls ever shows that rows are kept: every call answers
over the `batch` of the number that the cell holds then (`LeastSquares.ask_after`).
-/

namespace Minimization

/-! ## Whole numbers -/

theorem isBelow_int (a b : Int) : (Value.int a).isBelow (.int b) = .ok (decide (a < b)) := by
  simp [Value.isBelow, Value.numeral?, Numeral.isBelow]

theorem isAtMost_int (a b : Int) : (Value.int a).isAtMost (.int b) = .ok (decide (a ≤ b)) := by
  have hagrees : (Value.int a).agrees (.int b) = (a == b) := by
    simp [Value.agrees, Value.numbersAgree?]
  rw [Value.isAtMost, isBelow_int, hagrees]
  rcases Int.lt_trichotomy a b with h | h | h
  · rw [decide_eq_true h, decide_eq_true (Int.le_of_lt h)]
    rfl
  · rw [h, decide_eq_false (Int.lt_irrefl b), decide_eq_true (Int.le_refl b)]
    exact congrArg Except.ok (beq_self_eq_true b)
  · rw [decide_eq_false (Int.lt_asymm h), decide_eq_false (Int.not_le.mpr h)]
    exact congrArg Except.ok (beq_false_of_ne (Int.ne_of_gt h))

/-! ## Batches -/

/-- The value that a cell publishes. -/
def published : Option Int → Value
  | none => .null
  | some v => .int v

/-- The rows of a batch of `size` out of `count` rows, drawn anew for a published number. -/
def batch (count size : Nat) : Option Int → Except Failure (List Nat)
  | none => .ok (List.range count)
  | some v =>
    if count ≤ size then .ok (List.range count)
    else do return Random.sample size count (.ofSeed (← Random.seedWords (.int v)))

section Batch

variable {count size : Nat}

/-- All rows, without a number or if a batch is as large as the data. -/
theorem batch_all {number : Option Int} (h : number = none ∨ count ≤ size) :
    batch count size number = .ok (List.range count) := by
  rcases number with - | v
  · rfl
  · exact if_pos (h.resolve_left nofun)

/-- Different rows in increasing order, for a natural number. -/
theorem batch_some (h : size < count) {v : Int} (hv : 0 ≤ v) :
    ∃ rows, batch count size (some v) = .ok rows ∧ Random.Selection size count rows := by
  have hseed : Random.seedWords (.int v) = .ok (Random.wordsOf v.toNat) := if_neg (Int.not_lt.mpr hv)
  refine ⟨Random.sample size count (.ofSeed (Random.wordsOf v.toNat)), ?_,
    Random.selection_sample (Nat.le_of_lt h) _⟩
  rw [batch, if_neg (Nat.not_le.mpr h), hseed]
  rfl

/-- No generator has a negative seed. -/
theorem batch_negative (h : size < count) {v : Int} (hv : v < 0) :
    batch count size (some v) = .error .negativeSeed := by
  have hseed : Random.seedWords (.int v) = .error .negativeSeed := if_pos hv
  rw [batch, if_neg (Nat.not_le.mpr h), hseed]
  rfl

/-- A batch that is not refused has all rows, or different ones as many as it should. -/
theorem batch_eq_ok {number : Option Int} {rows : List Nat} (h : batch count size number = .ok rows) :
    rows = List.range count ∨ Random.Selection size count rows := by
  by_cases hall : number = none ∨ count ≤ size
  · rw [batch_all hall] at h
    exact .inl (Except.ok.inj h).symm
  obtain ⟨hnumber, hcount⟩ := not_or.mp hall
  obtain ⟨v, rfl⟩ := Option.ne_none_iff_exists'.mp hnumber
  rcases Int.lt_or_le v 0 with hv | hv
  · rw [batch_negative (Nat.lt_of_not_le hcount) hv] at h
    cases h
  · obtain ⟨drawn, hdrawn, hselection⟩ := batch_some (Nat.lt_of_not_le hcount) hv
    rw [hdrawn] at h
    exact .inr (Except.ok.inj h ▸ hselection)

/-- A batch has rows of the data only. -/
theorem lt_of_mem_batch {number : Option Int} {rows : List Nat} (h : batch count size number = .ok rows)
    {i : Nat} (hi : i ∈ rows) : i < count := by
  rcases batch_eq_ok h with rfl | hselection
  · exact List.mem_range.mp hi
  · exact hselection.below i hi

end Batch

/-! ## Selected rows -/

namespace Tensor

variable {α : Type}

theorem getElem?_blocks {size count i : Nat} (h : i < count) (xs : List α) :
    (blocks size count xs)[i]? = some ((xs.drop (i * size)).take size) := by
  induction count generalizing i xs with
  | zero => exact absurd h (Nat.not_lt_zero i)
  | succ count ih =>
    cases i with
    | zero => rw [Nat.zero_mul, List.drop_zero]; rfl
    | succ i =>
      rw [blocks, List.getElem?_cons_succ, ih (Nat.lt_of_succ_lt_succ h), List.drop_drop, Nat.succ_mul,
        Nat.add_comm]

/-- The entries of a row. -/
def row (t : Tensor α) (i : Nat) : List α :=
  (t.entries.drop (i * volume (t.shape.drop 1))).take (volume (t.shape.drop 1))

theorem length_row {t : Tensor α} {i : Nat} (h : i < t.shape.headD 0) :
    (t.row i).length = volume (t.shape.drop 1) := by
  rcases hshape : t.shape with - | ⟨n, shape⟩
  · rw [hshape] at h
    exact absurd h (Nat.not_lt_zero i)
  · rw [hshape] at h
    have hlength : (i + 1) * volume shape ≤ t.entries.length := by
      rw [t.length_entries, hshape]
      exact Nat.mul_le_mul_right _ (Nat.succ_le_of_lt h)
    rw [row, hshape, List.drop_succ_cons, List.drop_zero, List.length_take, List.length_drop]
    rw [Nat.succ_mul] at hlength
    omega

variable [Scalar α]

/-- An array of some rows of another one, in their order. -/
structure HasRows (s t : Tensor α) (rows : List Nat) : Prop where
  shape : s.shape = rows.length :: t.shape.drop 1
  entries : s.entries = (rows.flatMap t.row).map (Scalar.round t.precision)

/-- No row is passed over, if they are all there. -/
theorem selectRows_eq {t : Tensor α} {rows : List Nat} (h : ∀ i ∈ rows, i < t.shape.headD 0) :
    ∃ s, LeastSquares.selectRows t rows = .ok s ∧ s.HasRows t rows := by
  have hblocks : (rows.filterMap fun i =>
      (blocks (volume (t.shape.drop 1)) (t.shape.headD 0) t.entries).toArray[i]?) = rows.map t.row := by
    refine List.filterMap_eq_map_iff_forall_eq_some.mpr fun i hi => ?_
    rw [List.getElem?_toArray, getElem?_blocks (h i hi), row]
  have hlength : (rows.map t.row).flatten.length = volume (rows.length :: t.shape.drop 1) := by
    rw [length_flatten_of_forall (n := volume (t.shape.drop 1)), List.length_map, volume_cons]
    intro row hrow
    obtain ⟨i, hi, rfl⟩ := List.mem_map.mp hrow
    exact length_row (h i hi)
  rw [LeastSquares.selectRows]
  simp only [hblocks, ofEntries?, dif_pos hlength]
  exact ⟨_, rfl, ⟨rfl, congrArg _ (List.flatMap_def ..).symm⟩⟩

end Tensor

namespace LeastSquares

/-! ## Writes and calls -/

/-- What an objective is asked for. -/
inductive Query (α : Type) where
  | rows
  | loss (x : Tensor α)
  | grad (x : Tensor α)

/-- What an objective answers. -/
inductive Reply (α : Type) where
  | rows (rows : List Nat)
  | loss (value : α)
  | grad (value : Tensor α)

/-- A call of an objective, or a write to the cell that it reads its numbers from. -/
inductive Action (α : Type) where
  | write (number : Option Int)
  | ask (q : Query α)

/-- A cell, and the rows kept by an objective that reads it. -/
structure Watched where
  cell : Cell (Option Int)
  kept : Batch

/-- The cell after the writes among some actions. -/
def written {α : Type} (b : Behaviour (Option Int)) (actions : List (Action α))
    (c : Cell (Option Int)) : Cell (Option Int) :=
  actions.foldl
    (fun c action => match action with
      | .write number => (perform (Cell.set b number) c).2
      | .ask _ => c) c

/-- If the listeners of a cell store nothing, it holds what was written to it last. -/
theorem value_written {α : Type} {b : Behaviour (Option Int)} (hb : b.StoresNothing)
    (actions : List (Action α)) (c : Cell (Option Int)) :
    (written b actions c).value =
      actions.foldl (fun last action => match action with
        | .write number => number
        | .ask _ => last) c.value := by
  induction actions generalizing c with
  | nil => rfl
  | cons action actions ih =>
    cases action with
    | write number =>
      refine (ih _).trans ?_
      rw [Cell.value_set hb]
      rfl
    | ask q => exact ih c

variable {α : Type} {o : LeastSquares α} {size : Nat} {kept : Batch}

/-! ## Kept rows -/

/-- The kept rows are the ones that would be drawn for their number. -/
def IsDrawn (o : LeastSquares α) (kept : Batch) : Prop :=
  ∀ v : Int, (Value.int v).agrees kept.number → o.drawRows (.int v) = .ok kept.rows

/-- Nothing that is published counts for the number of rows that were never drawn. -/
theorem isDrawn_none (o : LeastSquares α) : o.IsDrawn .none := nofun

theorem isDrawn_of_drawRows {v : Int} {rows : List Nat} (h : o.drawRows (.int v) = .ok rows) :
    o.IsDrawn ⟨.int v, rows⟩ := by
  intro w hw
  rwa [show w = v from eq_of_beq hw]

theorem drawRows_eq (hsize : o.batchSize = .int size) (h : size < o.sampleCount) (v : Int) :
    o.drawRows (.int v) = batch o.sampleCount size (some v) := by
  have hdraw : o.drawSize = .ok size := by
    rw [drawSize, hsize]
    exact if_neg (Int.not_lt.mpr (Int.natCast_nonneg size))
  rw [batch, if_neg (Nat.not_le.mpr h), drawRows, hdraw]
  rfl

theorem coversAll_eq (hsize : o.batchSize = .int size) :
    o.coversAll = .ok (decide (o.sampleCount ≤ size)) := by
  rw [coversAll, hsize, isAtMost_int]
  exact congrArg Except.ok (decide_eq_decide.mpr Int.ofNat_le)

/-- All rows, the kept ones, or rows that are drawn and kept. A number that is refused leaves what is kept
as it is. -/
theorem perform_batchRows_int (hsize : o.batchSize = .int size) (v : Int) (kept : Batch) :
    perform (o.batchRows (.int v)) kept =
      if o.sampleCount ≤ size then (.ok o.allRows, kept)
      else if (Value.int v).agrees kept.number then (.ok kept.rows, kept)
      else match o.drawRows (.int v) with
        | .ok rows => (.ok rows, ⟨.int v, rows⟩)
        | .error e => (.error e, kept) := by
  have hrows : o.batchRows (.int v) = (liftM o.coversAll >>= fun all =>
      if all then pure o.allRows
      else do
        let last ← get
        if (Value.int v).agrees last.number then return last.rows
        else do
          let rows ← o.drawRows (.int v)
          set (⟨.int v, rows⟩ : Batch)
          return rows) := rfl
  rw [hrows, coversAll_eq hsize, lift_ok_bind]
  by_cases hall : o.sampleCount ≤ size
  · rw [decide_eq_true hall, if_pos hall]
    rfl
  rw [decide_eq_false hall, if_neg Bool.false_ne_true, if_neg hall,
    perform_bind_of_ok (show perform get kept = (.ok kept, kept) from rfl)]
  by_cases hlast : (Value.int v).agrees kept.number
  · rw [if_pos hlast, if_pos hlast]
    rfl
  rw [if_neg hlast, if_neg hlast]
  rcases o.drawRows (.int v) with e | rows
  · rfl
  · rfl

/-- Whatever is kept, the rows are those of the published number, and what is kept then is again what
would be drawn for its number. -/
theorem perform_batchRows (hsize : o.batchSize = .int size) (hkept : o.IsDrawn kept)
    (number : Option Int) :
    ∃ kept', perform (o.batchRows (published number)) kept = (batch o.sampleCount size number, kept') ∧
      o.IsDrawn kept' := by
  rcases number with - | v
  · exact ⟨kept, rfl, hkept⟩
  rw [published, perform_batchRows_int hsize]
  by_cases hall : o.sampleCount ≤ size
  · rw [if_pos hall, batch_all (.inr hall)]
    exact ⟨kept, rfl, hkept⟩
  rw [if_neg hall, ← drawRows_eq hsize (Nat.lt_of_not_le hall) v]
  by_cases hlast : (Value.int v).agrees kept.number
  · -- The number is the one that the rows are kept for.
    rw [if_pos hlast, hkept v hlast]
    exact ⟨kept, rfl, hkept⟩
  rw [if_neg hlast]
  rcases hdrawn : o.drawRows (.int v) with e | rows
  · exact ⟨kept, rfl, hkept⟩
  · exact ⟨⟨.int v, rows⟩, rfl, isDrawn_of_drawRows hdrawn⟩

/-- Rows that were just asked for are kept, or all rows are used. -/
theorem perform_batchRows_again (hsize : o.batchSize = .int size) {kept' : Batch} {number : Option Int}
    {rows : List Nat} (h : perform (o.batchRows (published number)) kept = (.ok rows, kept')) :
    perform (o.batchRows (published number)) kept' = (.ok rows, kept') := by
  rcases number with - | v
  · exact congrArg (fun r => (r.1, kept')) h
  rw [published, perform_batchRows_int hsize] at h ⊢
  by_cases hall : o.sampleCount ≤ size
  · rw [if_pos hall] at h ⊢
    exact congrArg (fun r => (r.1, kept')) h
  rw [if_neg hall] at h ⊢
  by_cases hlast : (Value.int v).agrees kept.number
  · rw [if_pos hlast] at h
    obtain ⟨-, rfl⟩ := Prod.mk.inj h
    rw [if_pos hlast]
    exact h
  rw [if_neg hlast] at h
  rcases hdrawn : o.drawRows (.int v) with e | drawn
  · rw [hdrawn] at h
    cases congrArg Prod.fst h
  · rw [hdrawn] at h
    obtain ⟨hrows, rfl⟩ := Prod.mk.inj h
    rw [if_pos (show (Value.int v).agrees (.int v) = true from beq_self_eq_true v)]
    exact congrArg (·, _) hrows

variable [Scalar α]

/-! ## Answers -/

/-- The answer over the rows of a published number, which are drawn only if they are not kept. -/
def answer (o : LeastSquares α) (number : Value) :
    Query α → ExceptT Failure (StateM Batch) (Reply α)
  | .rows => return .rows (← o.batchRows number)
  | .loss x => return .loss (← o.loss number x)
  | .grad x => return .grad (← o.grad number x)

/-- The answer over some rows. -/
def answerOver (o : LeastSquares α) (q : Query α) (rows : List Nat) : Except Failure (Reply α) :=
  match q with
  | .rows => .ok (.rows rows)
  | .loss x => do
    return .loss (← lossOver (← selectRows o.design rows) (← selectRows o.targets rows) x)
  | .grad x => do
    return .grad (← gradOver (← selectRows o.design rows) (← selectRows o.targets rows) x)

/-- Rows first, then what is computed over them. -/
theorem answer_eq (o : LeastSquares α) (number : Value) (q : Query α) :
    o.answer number q = o.batchRows number >>= fun rows => liftM (o.answerOver q rows) := by
  cases q with
  | rows => rfl
  | loss x =>
    simp only [answer, loss, answerOver, bind_assoc, lift_bind]
    rfl
  | grad x =>
    simp only [answer, grad, answerOver, bind_assoc, lift_bind]
    rfl

/-- An answer is the one over the rows of the published number. -/
theorem perform_answer (hsize : o.batchSize = .int size) (hkept : o.IsDrawn kept)
    (number : Option Int) (q : Query α) :
    ∃ kept', perform (o.answer (published number) q) kept =
        (batch o.sampleCount size number >>= o.answerOver q, kept') ∧ o.IsDrawn kept' := by
  obtain ⟨kept', hrows, hkept'⟩ := perform_batchRows hsize hkept number
  refine ⟨kept', ?_, hkept'⟩
  rw [answer_eq, perform_bind, hrows]
  rcases batch o.sampleCount size number with e | rows <;> rfl

/-! ## Sequences of writes and calls -/

/-- The answer to a query, and what is kept afterwards. -/
def ask (o : LeastSquares α) (q : Query α) (w : Watched) : Except Failure (Reply α) × Watched :=
  let (reply, kept) := perform (o.answer (published w.cell.value) q) w.kept
  (reply, { w with kept })

/-- The cell and the kept rows after an action. A listener of the cell that fails, and a call that is
refused, end nothing. -/
def act (o : LeastSquares α) (b : Behaviour (Option Int)) (w : Watched) : Action α → Watched
  | .write number => { w with cell := (perform (Cell.set b number) w.cell).2 }
  | .ask q => (o.ask q w).2

/-- The cell and the kept rows after some actions. -/
def after (o : LeastSquares α) (b : Behaviour (Option Int)) (actions : List (Action α)) (w : Watched) :
    Watched :=
  actions.foldl (o.act b) w

/-- An action treats the cell as if nobody read it, and leaves rows that would be drawn for their
number. -/
theorem act_watched (hsize : o.batchSize = .int size) (b : Behaviour (Option Int)) {w : Watched}
    (hkept : o.IsDrawn w.kept) (action : Action α) :
    (o.act b w action).cell = written b [action] w.cell ∧ o.IsDrawn (o.act b w action).kept := by
  cases action with
  | write number => exact ⟨rfl, hkept⟩
  | ask q =>
    obtain ⟨kept', hreply, hkept'⟩ := perform_answer hsize hkept w.cell.value q
    refine ⟨rfl, ?_⟩
    show o.IsDrawn (perform (o.answer (published w.cell.value) q) w.kept).2
    rwa [hreply]

theorem after_watched (hsize : o.batchSize = .int size) (b : Behaviour (Option Int))
    (actions : List (Action α)) {w : Watched} (hkept : o.IsDrawn w.kept) :
    (o.after b actions w).cell = written b actions w.cell ∧ o.IsDrawn (o.after b actions w).kept := by
  induction actions generalizing w with
  | nil => exact ⟨rfl, hkept⟩
  | cons action actions ih =>
    obtain ⟨hcell, hkept'⟩ := act_watched hsize b hkept action
    obtain ⟨hcells, hkept''⟩ := ih hkept'
    exact ⟨by rw [hcell] at hcells; exact hcells, hkept''⟩

/-- That rows are kept makes no difference to any call. -/
theorem reply_after (hsize : o.batchSize = .int size) (b : Behaviour (Option Int))
    (c : Cell (Option Int)) (actions : List (Action α)) (q : Query α) :
    (o.ask q (o.after b actions ⟨c, .none⟩)).1
      = batch o.sampleCount size (written b actions c).value >>= o.answerOver q := by
  obtain ⟨hcell, hkept⟩ := after_watched hsize b actions (w := ⟨c, .none⟩) (isDrawn_none o)
  obtain ⟨kept', hreply, -⟩ := perform_answer hsize hkept (written b actions c).value q
  show (perform (o.answer (published (o.after b actions ⟨c, .none⟩).cell.value) q) _).1 = _
  rw [hcell, hreply]

/-- From a matrix and one target for every row. -/
theorem of_eq_ok {n d : Nat} {design targets : Tensor α} (hdesign : design.shape = [n, d])
    (htargets : targets.shape = [n]) (hsize : 1 ≤ size) :
    LeastSquares.of design targets (.int size)
      = .ok ⟨design.convert .double, targets.convert .double, .int size⟩ := by
  have hone : ¬ (size : Int) < 1 := Int.not_lt.mpr (Int.ofNat_le.mpr hsize)
  rw [LeastSquares.of, hdesign]
  show (if _ then _ else _) = _
  rw [if_neg (not_not_intro htargets), Value.atLeastOne, isBelow_int, decide_eq_false hone]
  rfl

/-- Whatever was written to the cell and asked before, a call answers over the batch of the number that
the cell holds, or is refused with it. The batch has all rows, or as many different rows in increasing
order as it should; only a negative number has none. -/
theorem ask_after {n d : Nat} {design targets : Tensor α} (hdesign : design.shape = [n, d])
    (htargets : targets.shape = [n]) (hsize : 1 ≤ size) :
    ∃ o : LeastSquares α, LeastSquares.of design targets (.int size) = .ok o ∧
      (∀ (b : Behaviour (Option Int)) (c : Cell (Option Int)) (actions : List (Action α)) (q : Query α),
        (o.ask q (o.after b actions ⟨c, .none⟩)).1
          = batch n size (written b actions c).value >>= o.answerOver q) ∧
      (∀ number rows, batch n size number = .ok rows → ∃ a y,
        selectRows o.design rows = .ok a ∧ a.HasRows o.design rows ∧
        selectRows o.targets rows = .ok y ∧ y.HasRows o.targets rows) ∧
      (∀ number, number = none ∨ n ≤ size → batch n size number = .ok (List.range n)) ∧
      (∀ v, size < n → 0 ≤ v →
        ∃ rows, batch n size (some v) = .ok rows ∧ Random.Selection size n rows) ∧
      ∀ v, size < n → v < 0 → batch n size (some v) = .error .negativeSeed := by
  let o : LeastSquares α := ⟨design.convert .double, targets.convert .double, .int size⟩
  have hcount : o.sampleCount = n := congrArg (List.headD · 0) hdesign
  have htargetCount : o.targets.shape.headD 0 = n := congrArg (List.headD · 0) htargets
  refine ⟨o, of_eq_ok hdesign htargets hsize, fun b c actions q => ?_, fun number rows hrows => ?_,
    fun number => batch_all, fun v h => batch_some h, fun v h => batch_negative h⟩
  · rw [← hcount]
    exact o.reply_after rfl b c actions q
  · have hbelow : ∀ i ∈ rows, i < o.sampleCount := by
      rw [hcount]
      exact fun i => lt_of_mem_batch hrows
    obtain ⟨a, ha, hrowsa⟩ := Tensor.selectRows_eq (t := o.design) hbelow
    obtain ⟨y, hy, hrowsy⟩ := Tensor.selectRows_eq (t := o.targets) (htargetCount.trans hcount.symm ▸ hbelow)
    exact ⟨a, y, ha, hrowsa, hy, hrowsy⟩

/-- A number that is drawn for, one that is refused, and the first one again: the call in between fails,
and the last one answers with two different rows of three. -/
theorem ask_after_refusal :
    ∃ o : LeastSquares Float,
      LeastSquares.of ⟨[3, 1], [1.0, 2.0, 4.0], .double, rfl⟩ ⟨[3], [1.0, 0.0, 3.0], .double, rfl⟩ (.int 2)
        = .ok o ∧
      let start : Watched := ⟨.holding none, .none⟩
      let before : List (Action Float) := [.write (some 7), .ask .rows, .write (some (-1))]
      (o.ask .rows (o.after (fun _ _ _ _ => []) before start)).1 = .error .negativeSeed ∧
      ∃ rows, Random.Selection 2 3 rows ∧
        (o.ask .rows (o.after (fun _ _ _ _ => []) (before ++ [.ask .rows, .write (some 7)]) start)).1
          = .ok (.rows rows) := by
  obtain ⟨o, hof, hask, -, -, hdrawn, hnegative⟩ := ask_after
    (show (⟨[3, 1], [1.0, 2.0, 4.0], .double, rfl⟩ : Tensor Float).shape = [3, 1] from rfl)
    (show (⟨[3], [1.0, 0.0, 3.0], .double, rfl⟩ : Tensor Float).shape = [3] from rfl)
    (show 1 ≤ 2 by decide)
  obtain ⟨rows, hrows, hselection⟩ := hdrawn 7 (by decide) (by decide)
  refine ⟨o, hof, ?_, rows, hselection, ?_⟩
  · rw [hask, value_written fun _ _ _ _ _ => List.not_mem_nil]
    exact congrArg (· >>= o.answerOver .rows) (hnegative (-1) (by decide) (by decide))
  · rw [hask, value_written fun _ _ _ _ _ => List.not_mem_nil]
    exact congrArg (· >>= o.answerOver .rows) hrows

end LeastSquares

end Minimization
