import Minimization.Description.Session

/-!
# What programs over named arrays leave alone

The name of an operation says whether it works in place. `Call.suits_named` confirms this for every operation:
the call that a name stands for has a target exactly if the name ends in `_inp` and the first operand is an
array, and then this array is the target. With what calls do to a store (`Store.Leads`), an instruction
therefore leaves alone what it has to (`Session.frames`). By induction, a program changes an array only by
instructions that work on it in place (`Session.getElem?_after`). What functions of one number a program can
name is open: they may be any, those that fail at some numbers included.

An instruction that fails changes nothing, unless it is one that `set_inp` is not declared for: a list of
positions is gone through one by one, and what was set before a position that does not exist stays set.
-/

namespace Minimization

/-! ## Operations by name -/

/-- The stored array that an operand is, if it is one. -/
def Operand.handle? : Operand → Option Handle
  | .array h _ => some h
  | _ => none

theorem Operand.yields_stored (a : Operand) : Yields (fun h => a.handle? = some h) a.stored := by
  cases a with
  | array h t => exact rfl
  | value | function | generator => exact .error _

namespace Call

variable {name : String} {a : Operand} {as : List Operand}

/-- Whether an operation works in place. -/
def inPlace (name : String) : Bool := "_inp".toList.isSuffixOf name.toList

/-- A call does in place what the name of its operation says, to the first operand. -/
structure Suits (name : String) (as : List Operand) (c : Call Float) : Prop where
  target_eq : c.target? = if inPlace name then as.head?.bind Operand.handle? else none
  whole : c.isWhole = true ∨ name = "set_inp" ∧ ∃ a vs more, as = a :: .value (.list vs) :: more

/-- Without a target there is nothing that could be left in part. -/
theorem isWhole_of_target?_eq_none {c : Call Float} (h : c.target? = none) : c.isWhole = true := by
  cases c with
  | setEachInPlace => cases h
  | _ => rfl

theorem suits_of_free {x : Except Failure (Call Float)} (hname : inPlace name = false)
    (hx : Yields (fun c => c.target? = none) x) : Yields (Suits name as) x :=
  hx.mono fun c hc => ⟨by rw [hc, hname]; rfl, .inl (isWhole_of_target?_eq_none hc)⟩

theorem suits_of_stored {f : Handle → Except Failure (Call Float)} (hname : inPlace name = true)
    (hf : ∀ h, Yields (fun c => c.target? = some h ∧ c.isWhole = true) (f h)) :
    Yields (Suits name (a :: as)) (a.stored >>= f) :=
  .bind a.yields_stored fun h ha => (hf h).mono fun c ⟨htarget, hwhole⟩ =>
    ⟨by rw [htarget, hname]; exact ha.symm, .inl hwhole⟩

theorem free_withNumber {onArrays : Handle → Handle → Call Float} {onNumber : Handle → Float → Call Float}
    {onNumbers : Float → Float → Except Failure (Call Float)}
    (harrays : ∀ h k, (onArrays h k).target? = none) (hnumber : ∀ h x, (onNumber h x).target? = none)
    (hnumbers : ∀ x y, Yields (fun c => c.target? = none) (onNumbers x y)) (a b : Operand) :
    Yields (fun c => c.target? = none) (withNumber onArrays onNumber onNumbers a b) := by
  unfold withNumber
  split
  · exact .bind_any fun x => hnumber _ x
  · refine .bind_any fun y => ?_
    split
    · exact .bind_any fun x => hnumbers x y
    · exact .error _
  · exact .bind_any fun h => .bind_any fun k => harrays h k

theorem free_scaling (a b : Operand) : Yields (fun c => c.target? = none) (scaling a b) := by
  unfold scaling
  split
  · exact rfl
  · exact rfl
  · exact .bind_any fun _ => .bind_any fun _ => rfl
  · exact .error _

theorem free_matrixProduct (a b : Operand) : Yields (fun c => c.target? = none) (matrixProduct a b) := by
  have hright (h : Handle) : Yields (fun c => c.target? = none)
      (b.stored >>= fun k => (pure (.product h k) : Except Failure (Call Float))) :=
    .bind_any fun _ => rfl
  unfold matrixProduct
  refine .bind_any fun h => ?_
  split
  · exact .ite (.error _) (hright h)
  · exact hright h

theorem free_get (a i : Operand) :
    Yields (fun c => c.target? = none) (a.stored >>= fun h =>
      match a with
      | .array _ t => do return .get h (← i.position t)
      | _ => throw .noMember : Except Failure (Call Float)) := by
  refine .bind_any fun h => ?_
  split
  · exact .bind_any fun _ => rfl
  · exact .error _

/-- Several positions are a list of them. -/
theorem suits_setting (a i x : Operand) :
    Yields (Suits "set_inp" [a, i, x]) (a.stored >>= fun h => setting h i x) := by
  refine .bind a.yields_stored fun h ha => ?_
  unfold setting
  split
  next vs =>
    exact .bind_any fun v => .bind_any fun is => ⟨ha.symm, .inr ⟨rfl, a, vs, [x], rfl⟩⟩
  next => exact .bind_any fun is => ⟨ha.symm, .inl rfl⟩

/-- A number that is scaled in place is scaled like any other. -/
theorem suits_scaleInPlace (a b : Operand) :
    Yields (Suits "scale_inp" [a, b])
      (match a with
      | .array h _ => return .scaleInPlace h b.factorInto
      | a => scaling a b) := by
  cases a with
  | array h t => exact ⟨rfl, .inl rfl⟩
  | value | function | generator =>
    exact (free_scaling _ b).mono fun c hc => ⟨hc, .inl (isWhole_of_target?_eq_none hc)⟩

theorem suits_applied (name : String) (as : List Operand) :
    Yields (Suits name as) (applied name as) := by
  unfold applied
  split
  -- First the operations that work in place, then what the others have in common.
  all_goals first
    | exact .error _
    | exact suits_of_stored (by decide) fun _ => ⟨rfl, rfl⟩
    | exact suits_of_stored (by decide) fun _ => .bind_any fun _ => ⟨rfl, rfl⟩
    | exact suits_setting _ _ _
    | exact suits_scaleInPlace _ _
    | refine suits_of_free (by decide) ?_
  all_goals first
    | exact free_withNumber (fun _ _ => rfl) (fun _ _ => rfl) (fun _ _ => .ok rfl) _ _
    | exact free_withNumber (fun _ _ => rfl) (fun _ _ => rfl) (fun _ _ => .error _) _ _
    | exact free_scaling _ _
    | exact free_matrixProduct _ _
    | exact free_get _ _
    | repeat' first | exact rfl | refine .bind_any fun _ => ?_

theorem suits_named (name : String) (as : List Operand) : Yields (Suits name as) (named name as) := by
  unfold named
  split
  · exact .error _
  · exact .ite (suits_applied name as) (.error _)

end Call

/-! ## Instructions -/

theorem Operand.real_of_special? {word : String} {v : Value}
    (h : Operand.special? word = some v) : ∃ x, v = .real x := by
  unfold Operand.special? at h
  split at h
  · obtain ⟨x, -, rfl⟩ := Option.map_eq_some_iff.mp h
    exact ⟨x, rfl⟩
  · cases h

/-- Whether the operands are of the kind that the operation is declared for, as far as it matters here:
`set_inp` is declared for one position. -/
def Instruction.isDeclared (i : Instruction) : Bool :=
  match i.operation, i.operands with
  | "set_inp", _ :: .list _ :: _ => false
  | _, _ => true

namespace Session

variable {p : Precision} {σ : Session} {i : Instruction} {a h : Handle}

/-- The array that a value stands for, if it is the name of one. -/
def handle? (σ : Session) : Value → Option Handle
  | .text name => σ.names.get? name
  | _ => none

/-- The array that an instruction works on in place, if it does: that of its first operand. -/
def target? (σ : Session) (i : Instruction) : Option Handle :=
  if Call.inPlace i.operation then i.operands.head?.bind σ.handle? else none

theorem yields_read (σ : Session) (v : Value) :
    Yields (fun a => a.handle? = σ.handle? v ∧ ∀ vs, a = .value (.list vs) → v = .list vs)
      (Operand.readBy σ.functions σ.names σ.store v) := by
  cases v with
  | text word =>
    unfold Operand.readBy handle?
    dsimp only
    rcases σ.names.get? word with - | h
    · rcases σ.functions word with - | f
      · rcases hspecial : Operand.special? word with - | x
        · exact .error _
        · obtain ⟨x, rfl⟩ := Operand.real_of_special? hspecial
          exact .ok ⟨rfl, nofun⟩
      · exact .ok ⟨rfl, nofun⟩
    · exact .bind_any fun t => .ok ⟨rfl, nofun⟩
  | object fields => exact .bind_any fun g => .ok ⟨rfl, nofun⟩
  | list vs => exact .ok ⟨rfl, fun _ h => Operand.value.inj h⟩
  | null | bool | int | real => exact .ok ⟨rfl, nofun⟩

/-- The operands are read one after the other. -/
theorem yields_first (σ : Session) (vs : List Value) :
    Yields (fun as => as.head?.bind Operand.handle? = vs.head?.bind σ.handle? ∧
        ∀ ws more, as = .value (.list ws) :: more → ∃ rest, vs = .list ws :: rest)
      (vs.mapM (Operand.readBy σ.functions σ.names σ.store)) := by
  cases vs with
  | nil => exact .ok ⟨rfl, nofun⟩
  | cons v vs =>
    rw [List.mapM_cons]
    refine .bind (yields_read σ v) fun a ⟨hhandle, hlist⟩ => .bind_any fun as => .ok ⟨hhandle, ?_⟩
    intro ws more h
    exact ⟨vs, by rw [hlist ws (List.cons.inj h).1]⟩

theorem yields_operands (σ : Session) (vs : List Value) :
    Yields (fun as => as.head?.bind Operand.handle? = vs.head?.bind σ.handle? ∧
        ∀ a ws more, as = a :: .value (.list ws) :: more → ∃ v rest, vs = v :: .list ws :: rest)
      (vs.mapM (Operand.readBy σ.functions σ.names σ.store)) := by
  cases vs with
  | nil => exact .ok ⟨rfl, nofun⟩
  | cons v vs =>
    rw [List.mapM_cons]
    refine .bind (yields_read σ v) fun a ⟨hhandle, _⟩ =>
      .bind (yields_first σ vs) fun as ⟨_, hsecond⟩ => .ok ⟨hhandle, ?_⟩
    intro b ws more h
    obtain ⟨rest, rfl⟩ := hsecond ws more (List.cons.inj h).2
    exact ⟨v, rest, rfl⟩

/-- The call that an instruction stands for works on the array that the instruction works on. -/
theorem yields_call (σ : Session) (i : Instruction) :
    Yields (fun c => c.target? = σ.target? i ∧ (i.isDeclared = true → c.isWhole = true)) (σ.call i) := by
  refine .bind (yields_operands σ i.operands) fun as ⟨hfirst, hsecond⟩ =>
    (Call.suits_named i.operation as).mono fun c hc => ⟨?_, fun hdeclared => ?_⟩
  · rw [hc.target_eq, hfirst]
    rfl
  · rcases hc.whole with hwhole | ⟨hname, a, ws, more, has⟩
    · exact hwhole
    · obtain ⟨v, rest, hoperands⟩ := hsecond a ws more has
      rw [Instruction.isDeclared, hname, hoperands] at hdeclared
      cases hdeclared

/-- What an instruction leaves of the store. -/
theorem perform_leads (p : Precision) (σ : Session) (i : Instruction) :
    σ.store.Leads (σ.target? i) i.isDeclared (σ.perform p i).1 (σ.perform p i).2.store := by
  have hcall := yields_call σ i
  unfold perform
  split
  next e _ => exact .failed e
  next c hc =>
    obtain ⟨htarget, hwhole⟩ := hcall.of_ok hc
    have hleads := c.leads p σ.store
    rw [htarget] at hleads
    cases hi : i.isDeclared with
    | true =>
      rw [hwhole hi] at hleads
      exact hleads
    | false =>
      cases hcw : c.isWhole with
      | true =>
        rw [hcw] at hleads
        exact hleads.of_whole false
      | false =>
        rw [hcw] at hleads
        exact hleads

/-- The only names that change are those for results. -/
theorem names_perform (p : Precision) (σ : Session) (i : Instruction) :
    (σ.perform p i).2.names = named σ.names i.result? (σ.perform p i).1 := by
  unfold perform
  split
  next => rfl
  next => rfl

/-- The functions that have a name stay the same ones. -/
theorem functions_perform (p : Precision) (σ : Session) (i : Instruction) :
    (σ.perform p i).2.functions = σ.functions := by
  unfold perform
  split
  next => rfl
  next => rfl

theorem ext {σ τ : Session} (hfunctions : σ.functions = τ.functions) (hnames : σ.names = τ.names)
    (hstore : σ.store = τ.store) : σ = τ := by
  obtain ⟨functions, names, store, _⟩ := σ
  obtain ⟨functions', names', store', _⟩ := τ
  obtain rfl : functions = functions' := hfunctions
  obtain rfl : names = names' := hnames
  obtain rfl : store = store' := hstore
  rfl

/-- An instruction leaves alone what it has to. -/
structure Frames (p : Precision) (σ : Session) (i : Instruction) : Prop where
  /-- A failure leaves everything as it was. -/
  failed : ∀ e, (σ.perform p i).1 = .error e → i.isDeclared = true → (σ.perform p i).2 = σ
  /-- Arrays that the instruction does not work on in place keep their contents. -/
  kept : ∀ h < σ.store.arrays.length, σ.target? i ≠ some h →
    (σ.perform p i).2.store.arrays[h]? = σ.store.arrays[h]?
  /-- An array that is the result of an instruction that does not work in place is a new one. -/
  fresh : σ.target? i = none → ∀ h, (σ.perform p i).1 = .ok (.array h) →
    h = σ.store.arrays.length ∧ ∀ name, σ.names.get? name ≠ some h
  /-- An instruction that works in place answers its array, which all of its names then show alike. -/
  changed : ∀ a, σ.target? i = some a → ∀ o, (σ.perform p i).1 = .ok o → o = .array a ∧
    ∃ t t', σ.store.arrays[a]? = some t ∧ Tensor.Alike t' t ∧
      ∀ name, (σ.perform p i).2.array? name =
        ((named σ.names i.result? (.ok (.array a))).get? name).bind fun h =>
          if h = a then some t' else σ.store.arrays[h]?

theorem frames (p : Precision) (σ : Session) (i : Instruction) : σ.Frames p i where
  failed e he hi := by
    have hleads := σ.perform_leads p i
    rw [he, hi] at hleads
    refine ext (functions_perform ..) ?_ hleads.eq_of_error
    rw [names_perform, he]
    rfl
  kept h hh hne := (σ.perform_leads p i).getElem?_eq hh hne
  fresh htarget h hh := by
    have hleads := σ.perform_leads p i
    rw [htarget, hh] at hleads
    obtain rfl := hleads.eq_length
    exact ⟨rfl, fun name hname => Nat.lt_irrefl _ (σ.inside hname)⟩
  changed a htarget o ho := by
    have hleads := σ.perform_leads p i
    rw [htarget, ho] at hleads
    obtain ⟨rfl, t, t', ht, alike, hstore⟩ := hleads.changed_of_ok
    refine ⟨rfl, t, t', ht, alike, fun name => ?_⟩
    have hlt := (List.getElem?_eq_some_iff.mp ht).1
    rw [array?, names_perform, ho, hstore]
    congr 1
    funext h
    by_cases hh : h = a
    · rw [if_pos hh, hh]
      exact List.getElem?_set_self hlt
    · rw [if_neg hh]
      exact List.getElem?_set_ne (Ne.symm hh)

/-! ## Programs -/

theorem after_append (p : Precision) (σ : Session) (program later : List Instruction) :
    σ.after p (program ++ later) = (σ.after p program).after p later :=
  List.foldl_append

/-- An instruction does not work on an array in place, or fails. -/
def Spares (p : Precision) (σ : Session) (h : Handle) (i : Instruction) : Prop :=
  σ.target? i ≠ some h ∨ i.isDeclared = true ∧ ∃ e, (σ.perform p i).1 = .error e

theorem Spares.getElem?_eq (hi : σ.Spares p h i) (hh : h < σ.store.arrays.length) :
    (σ.perform p i).2.store.arrays[h]? = σ.store.arrays[h]? := by
  rcases hi with hne | ⟨hdeclared, e, he⟩
  · exact (σ.frames p i).kept h hh hne
  · rw [(σ.frames p i).failed e he hdeclared]

/-- A program changes an array only by instructions that work on it in place and succeed. -/
theorem getElem?_after {program : List Instruction} (hh : h < σ.store.arrays.length)
    (hspares : ∀ earlier i later, program = earlier ++ i :: later → (σ.after p earlier).Spares p h i) :
    (σ.after p program).store.arrays[h]? = σ.store.arrays[h]? := by
  -- By induction on the program, for all sessions that it can start in.
  induction program generalizing σ with
  | nil => rfl
  | cons i program ih =>
    have hfirst : (σ.perform p i).2.store.arrays[h]? = σ.store.arrays[h]? :=
      (hspares [] i program rfl).getElem?_eq hh
    have hlt : h < (σ.perform p i).2.store.arrays.length :=
      Nat.lt_of_lt_of_le hh (σ.perform_leads p i).length_le
    have hrest := ih hlt fun earlier j later heq => hspares (i :: earlier) j later (by rw [heq]; rfl)
    exact hrest.trans hfirst

/-- The instructions of a program that work in place work on one array. -/
def WorksOn (p : Precision) (σ : Session) (a : Handle) (program : List Instruction) : Prop :=
  ∀ earlier i later, program = earlier ++ i :: later →
    ∀ b, (σ.after p earlier).target? i = some b → b = a

theorem WorksOn.spares {program : List Instruction} (hp : σ.WorksOn p a program) (hne : h ≠ a) :
    ∀ earlier i later, program = earlier ++ i :: later → (σ.after p earlier).Spares p h i :=
  fun earlier i later heq => .inl fun htarget => hne (hp earlier i later heq h htarget)

/-- Wherever an instruction stands in a program, and whatever functions the program can name, it leaves alone
what it has to. From there on, an array changes only by instructions that work on it in place and succeed. So
if the instruction does not work in place and its result is an array, changes of this array in place are not
seen in any older one, nor the other way around. -/
theorem after_frames (p : Precision) (σ : Session) (earlier : List Instruction) (i : Instruction)
    (later : List Instruction) :
    let before := σ.after p earlier
    let result := (before.perform p i).1
    let session := (before.perform p i).2
    before.Frames p i ∧ σ.after p (earlier ++ i :: later) = session.after p later ∧
    (∀ h < session.store.arrays.length,
      (∀ more j rest, later = more ++ j :: rest → (session.after p more).Spares p h j) →
      (session.after p later).store.arrays[h]? = session.store.arrays[h]?) ∧
    (before.target? i = none → ∀ h, result = .ok (.array h) → ∀ a < before.store.arrays.length,
      (session.WorksOn p h later →
        (session.after p later).store.arrays[a]? = before.store.arrays[a]?) ∧
      (session.WorksOn p a later →
        (session.after p later).store.arrays[h]? = session.store.arrays[h]?)) := by
  intro before result session
  have hframes := before.frames p i
  have hleads : before.store.Leads (before.target? i) i.isDeclared result session.store :=
    before.perform_leads p i
  refine ⟨hframes, after_append p σ earlier (i :: later), fun h hh => getElem?_after hh,
    fun htarget h hh a ha => ?_⟩
  obtain ⟨hnew, -⟩ := hframes.fresh htarget h hh
  have hne : a ≠ h := by
    rw [hnew]
    exact Nat.ne_of_lt ha
  have hkept : session.store.arrays[a]? = before.store.arrays[a]? := hframes.kept a ha (by rw [htarget]; nofun)
  have hlt : a < session.store.arrays.length := Nat.lt_of_lt_of_le ha hleads.length_le
  refine ⟨fun hworks => ?_, fun hworks => ?_⟩
  · exact (getElem?_after hlt (hworks.spares hne)).trans hkept
  · rw [hh] at hleads
    exact getElem?_after hleads.lt_length (hworks.spares (Ne.symm hne))

/-- A vector that is added to itself in place has two names then. -/
example :
    (empty.after .double [⟨"vec_of", [.real 1.0, .real 2.0], some "v"⟩,
      ⟨"add_inp", [.text "v", .text "v"], some "w"⟩]).names = [("v", 0), ("w", 0)] := by
  rfl

end Session

end Minimization
