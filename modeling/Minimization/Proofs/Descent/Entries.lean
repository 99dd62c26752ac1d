import Minimization.Proofs.Chained
import Minimization.Proofs.Stateful

/-!
# What a history shows of a descent

A descent records its iterations one after the other, and its last point with its loss at the end. An
`Entry` is what one iteration adds to the history. `Leads` chains entries: each of them starts at the
point and in the world where the one before it ended, and it is handed a state besides (a trial size, or
moments). `History.Layout` reads a history that was empty by positions: which entry says what about its
columns, and where its first and last items come from.
-/

namespace Minimization

variable {α ω σ : Type}

/-- An iteration as a history shows it, with the step size that is reported after it and the worlds in
which it starts, evaluates the loss and ends. -/
structure Entry (α ω : Type) where
  point : Tensor α
  loss : α
  direction : Tensor α
  sizes : List α
  next : Tensor α
  reported : α
  start : ω
  prepared : ω
  finish : ω

/-- The history `h` shows the entries, and after them the point and the loss of the report. -/
structure History.Layout [Scalar α] (h : History α) (es : List (Entry α ω)) (start finish : Tensor α)
    (u v : ω) (report : Report α) : Prop where
  iterations_eq : report.iterations = es.length
  length_positions : h.positions.length = es.length + 1
  length_losses : h.losses.length = es.length + 1
  length_directions : h.directions.length = es.length
  stepSizes_eq : h.stepSizes = (es.map Entry.sizes).flatten
  first_position : h.positions[0]? = some start.toVector
  last_position : h.positions[es.length]? = some finish.toVector
  last_loss : h.losses[es.length]? = some report.loss
  shown : ∀ k e, es[k]? = some e →
    h.positions[k]? = some e.point.toVector ∧ h.positions[k + 1]? = some e.next.toVector ∧
      h.losses[k]? = some e.loss ∧ h.directions[k]? = some e.direction.toVector
  first_entry : ∀ e, es[0]? = some e → e.point = start ∧ e.start = u
  next_entry : ∀ k e e', es[k]? = some e → es[k + 1]? = some e' →
    e'.point = e.next ∧ e'.start = e.finish
  last_entry : ∀ e, es[es.length - 1]? = some e → e.next = finish ∧ e.finish = v

section Entries

variable [Scalar α]

/-- What some entries add to a history. -/
def recordEntries (es : List (Entry α ω)) (h : History α) : History α :=
  ⟨h.positions ++ es.map fun e => e.point.toVector, h.losses ++ es.map Entry.loss,
    h.directions ++ es.map fun e => e.direction.toVector, h.stepSizes ++ (es.map Entry.sizes).flatten⟩

/-- A run after an entry. -/
def Entry.after (e : Entry α ω) (r : Run α) : Run α :=
  (r.record (recordEntries [e])).reporting fun report => { report with stepSize := e.reported }

theorem recordEntries_cons (e : Entry α ω) (es : List (Entry α ω)) :
    recordEntries es ∘ recordEntries [e] = recordEntries (e :: es) := by
  funext h
  simp [recordEntries]

/-- Where a descent stands between two iterations; a state is handed on besides. -/
structure Standing (σ α ω : Type) where
  state : σ
  point : Tensor α
  run : Run α
  world : ω

/-- An entry leads from one standing to another; `made` says what its iteration does with the state that
it is handed. -/
structure Entry.LeadsTo (made : σ → Entry α ω → σ → Prop) (p : Standing σ α ω) (e : Entry α ω)
    (q : Standing σ α ω) : Prop where
  made : made p.state e q.state
  point_eq : e.point = p.point
  start_eq : e.start = p.world
  next_eq : e.next = q.point
  run_eq : q.run = e.after p.run
  finish_eq : e.finish = q.world

/-- Entries lead from one standing to another. -/
abbrev Leads (made : σ → Entry α ω → σ → Prop) (p : Standing σ α ω) (es : List (Entry α ω))
    (q : Standing σ α ω) : Prop :=
  Chained (Entry.LeadsTo made) p es q

namespace Leads

variable {made : σ → Entry α ω → σ → Prop} {p q : Standing σ α ω} {es : List (Entry α ω)}
  {e e' : Entry α ω} {k : Nat}

/-- The entries leave their records and the step size of the last one. -/
theorem run_eq (h : Leads made p es q) :
    q.run = (p.run.record (recordEntries es)).reporting fun report =>
      { report with stepSize := (es.map Entry.reported).getLastD report.stepSize } := by
  induction h with
  | none =>
    have hid : recordEntries ([] : List (Entry α ω)) = id := by
      funext h
      simp [recordEntries]
    rw [hid, Run.record_id]
    rfl
  | cons he _ ih =>
    rw [ih, he.run_eq, ← recordEntries_cons, ← Run.record_record]
    simp only [List.map_cons, List.getLastD_cons]
    rfl

/-- The point after an entry is the next one that is recorded. -/
theorem next_position (h : Leads made p es q) (hk : es[k]? = some e) :
    (es.map (fun e => e.point.toVector) ++ [q.point.toVector])[k + 1]? = some e.next.toVector := by
  have hlt : k < es.length := (List.getElem?_eq_some_iff.mp hk).1
  rcases Nat.lt_or_ge (k + 1) es.length with hk' | hk'
  · rw [List.getElem?_append_left (by simpa using hk'), List.getElem?_map,
      List.getElem?_eq_getElem hk']
    obtain ⟨b, b', b'', he, he'⟩ := h.consecutive hk (List.getElem?_eq_getElem hk')
    rw [Option.map_some, he'.point_eq, he.next_eq]
  · obtain rfl : k = es.length - 1 := by omega
    obtain ⟨b, he⟩ := h.last hk
    rw [he.next_eq, Nat.sub_add_cancel (by omega), List.getElem?_append_right (by simp),
      List.length_map, Nat.sub_self]
    rfl

/-- A history that was empty, after the entries and the end of a descent. -/
theorem layout (h : Leads made p es q) {report : Report α}
    (hiterations : report.iterations = es.length) :
    (((recordEntries es .empty).addPosition q.point.flatten).addLoss report.loss).Layout es p.point
      q.point p.world q.world report where
  iterations_eq := hiterations
  length_positions := by simp [recordEntries, History.empty, History.addPosition, History.addLoss]
  length_losses := by simp [recordEntries, History.empty, History.addPosition, History.addLoss]
  length_directions := by simp [recordEntries, History.empty, History.addPosition, History.addLoss]
  stepSizes_eq := by simp [recordEntries, History.empty, History.addPosition, History.addLoss]
  first_position := by
    show ([] ++ es.map (fun e => e.point.toVector) ++ [q.point.toVector])[0]? = _
    cases h with
    | none => rfl
    | cons he _ => exact congrArg (fun z => some z.toVector) he.point_eq
  last_position := by
    show ([] ++ es.map (fun e => e.point.toVector) ++ [q.point.toVector])[es.length]? = _
    simp
  last_loss := by
    show ([] ++ es.map Entry.loss ++ [report.loss])[es.length]? = _
    simp
  -- A position more than there are entries is recorded, and a loss more, both behind those of the entries.
  shown k e hk := by
    have hlt : k < es.length := (List.getElem?_eq_some_iff.mp hk).1
    refine ⟨?_, h.next_position hk, ?_, ?_⟩
    · show ([] ++ es.map (fun e => e.point.toVector) ++ [q.point.toVector])[k]? = _
      rw [List.nil_append, List.getElem?_append_left (by simpa using hlt), List.getElem?_map, hk]
      rfl
    · show ([] ++ es.map Entry.loss ++ [report.loss])[k]? = _
      rw [List.nil_append, List.getElem?_append_left (by simpa using hlt), List.getElem?_map, hk]
      rfl
    · show ([] ++ es.map fun e => e.direction.toVector)[k]? = _
      rw [List.nil_append, List.getElem?_map, hk]
      rfl
  first_entry e he := by
    obtain ⟨b, he⟩ := h.head he
    exact ⟨he.point_eq, he.start_eq⟩
  next_entry k e e' hk hk' := by
    obtain ⟨b, b', b'', he, he'⟩ := h.consecutive hk hk'
    exact ⟨he'.point_eq.trans he.next_eq.symm, he'.start_eq.trans he.finish_eq.symm⟩
  last_entry e he := by
    obtain ⟨b, he⟩ := h.last he
    exact ⟨he.next_eq, he.finish_eq⟩

end Leads

end Entries

end Minimization
