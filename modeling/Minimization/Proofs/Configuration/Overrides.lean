import Mathlib.Data.List.TakeWhile
import Minimization.Configuration.Overrides
import Minimization.Proofs.Configuration.Reading
import Minimization.Proofs.Perform

/-!
# What overrides change

An override stores a value under a path. `stored` says how: it rebuilds the objects along the path and
nothing else, so looking up a path afterwards finds the value at and below the path
(`lookup_stored_append`), and what was there before wherever the paths part
(`lookup_stored_of_not_comparable`). Two stores whose paths part can be made in either order: the
results are alike (`stored_comm`), which means equal but for the order of the fields of objects.

A whole list of overrides goes through from left to right, so what holds after it is what the last
override of a comparable path has left (`applyOverrides_spec`). All of it happens to a copy, which any
configuration has that was read from a text: only one that holds a number of too many digits has none.
-/

namespace Minimization

/-! ## Paths -/

/-- One of two paths leads on from where the other one ends. -/
def Comparable (p q : List String) : Prop := p <+: q ∨ q <+: p

instance (p q : List String) : Decidable (Comparable p q) := inferInstanceAs (Decidable (_ ∨ _))

theorem Comparable.symm {p q : List String} (h : Comparable p q) : Comparable q p := Or.symm h

theorem comparable_nil (q : List String) : Comparable [] q := .inl List.nil_prefix

theorem comparable_cons {name : String} {p q : List String} (h : Comparable p q) :
    Comparable (name :: p) (name :: q) :=
  h.imp (List.cons_prefix_cons.mpr ⟨rfl, ·⟩) (List.cons_prefix_cons.mpr ⟨rfl, ·⟩)

/-! ## Values that are alike -/

/-- Equal values, or objects with the same names and values that are alike: the order of the fields of an
object does not count. -/
inductive Value.Alike : Value → Value → Prop where
  | same (v : Value) : Alike v v
  | object {fs gs : Fields Value}
      (fields : ∀ name, Option.Rel Alike (Fields.get? fs name) (Fields.get? gs name)) :
      Alike (.object fs) (.object gs)

/-- What is found in both places is alike, or nothing is found in either. -/
abbrev Value.AlikeIfAny : Option Value → Option Value → Prop := Option.Rel Value.Alike

theorem Value.AlikeIfAny.same : ∀ v? : Option Value, AlikeIfAny v? v?
  | none => .none
  | some v => .some (.same v)

namespace Configuration

open Value (Alike AlikeIfAny)

/-! ## Storing a value -/

/-- What a place holds after a value has been stored under a path from there. -/
def stored (old : Option Value) (path : List String) (value : Value) : Value :=
  match path with
  | [] => value
  | path => .object (setPath (old.getD .null).fields path value)

theorem setPath_cons (fields : Fields Value) (name : String) (path : List String) (value : Value) :
    setPath fields (name :: path) value = fields.set name (stored (fields.get? name) path value) := by
  cases path <;> rfl

theorem stored_cons (old : Option Value) (name : String) (path : List String) (value : Value) :
    stored old (name :: path) value = .object (Fields.set (old.getD .null).fields name
      (stored (Fields.get? (old.getD .null).fields name) path value)) := by
  rw [← setPath_cons]
  rfl

theorem lookup_cons (v : Value) (name : String) (path : List String) :
    lookup v (name :: path) = (Fields.get? v.fields name).bind (lookup · path) := by
  rw [lookup, Value.field?_eq]
  cases Fields.get? v.fields name <;> rfl

/-- At and below the path stands the value. -/
theorem lookup_stored_append (old : Option Value) (p q : List String) (value : Value) :
    lookup (stored old p value) (p ++ q) = lookup value q := by
  induction p generalizing old with
  | nil => rfl
  | cons name p ih =>
    rw [stored_cons, List.cons_append, lookup_cons, Value.fields, Fields.get?_set_self, Option.bind_some,
      ih]

/-- Where the paths part, what was there before still is. -/
theorem lookup_stored_of_not_comparable {p q : List String} (h : ¬ Comparable p q) (old : Option Value)
    (value : Value) : lookup (stored old p value) q = old.bind (lookup · q) := by
  induction p generalizing old q with
  | nil => exact absurd (comparable_nil q) h
  | cons name p ih =>
    cases q with
    | nil => exact absurd (comparable_nil _).symm h
    | cons other q =>
      -- The fields that are there before are those of the old value, if there is one.
      have hold : (old.bind (lookup · (other :: q)))
          = (Fields.get? (old.getD .null).fields other).bind (lookup · q) := by
        cases old with
        | none => rfl
        | some v => exact lookup_cons v other q
      rw [stored_cons, lookup_cons, Value.fields, hold]
      by_cases hname : other = name
      · subst hname
        rw [Fields.get?_set_self, Option.bind_some, ih fun hpq => h (comparable_cons hpq)]
      · rw [Fields.get?_set_of_ne _ _ hname]

/-! ## Storing in alike values -/

theorem alikeIfAny_set {fs gs : Fields Value} {v w : Value} (name : String)
    (h : ∀ other, AlikeIfAny (Fields.get? fs other) (Fields.get? gs other)) (hvw : Alike v w)
    (other : String) :
    AlikeIfAny (Fields.get? (Fields.set fs name v) other) (Fields.get? (Fields.set gs name w) other) := by
  by_cases hname : other = name
  · subst hname
    rw [Fields.get?_set_self, Fields.get?_set_self]
    exact .some hvw
  · rw [Fields.get?_set_of_ne _ _ hname, Fields.get?_set_of_ne _ _ hname]
    exact h other

theorem alikeIfAny_fields {old old' : Option Value} (h : AlikeIfAny old old') (name : String) :
    AlikeIfAny (Fields.get? (old.getD .null).fields name) (Fields.get? (old'.getD .null).fields name) := by
  cases h with
  | none => exact .none
  | some hvw =>
    cases hvw with
    | same v => exact .same _
    | object fields => exact fields name

theorem stored_alike {old old' : Option Value} (h : AlikeIfAny old old') (path : List String)
    (value : Value) : Alike (stored old path value) (stored old' path value) := by
  induction path generalizing old old' with
  | nil => exact .same value
  | cons name path ih =>
    rw [stored_cons, stored_cons]
    exact .object (alikeIfAny_set name (alikeIfAny_fields h) (ih (alikeIfAny_fields h name)))

/-- Two stores whose paths part can be made in either order. -/
theorem stored_comm {p q : List String} (h : ¬ Comparable p q) (old : Option Value) (v w : Value) :
    Alike (stored (some (stored old p v)) q w) (stored (some (stored old q w)) p v) := by
  induction p generalizing old q with
  | nil => exact absurd (comparable_nil q) h
  | cons a p ih =>
    cases q with
    | nil => exact absurd (comparable_nil _).symm h
    | cons b q =>
      simp only [stored_cons, Option.getD_some, Value.fields]
      refine .object fun name => ?_
      by_cases hab : a = b
      · subst hab
        rw [Fields.get?_set_self, Fields.get?_set_self]
        by_cases hname : name = a
        · subst hname
          rw [Fields.get?_set_self, Fields.get?_set_self]
          exact .some (ih (fun hpq => h (comparable_cons hpq)) _)
        · simp only [Fields.get?_set_of_ne _ _ hname]
          exact AlikeIfAny.same _
      · rw [Fields.get?_set_of_ne _ _ (Ne.symm hab), Fields.get?_set_of_ne _ _ hab,
          Fields.get?_set_comm hab]
        exact AlikeIfAny.same _

/-! ## Reading overrides -/

/-- The item is written as an override: the names of a path, with points between them, then an equals
sign and the value. There is a name, which may be empty, and no name holds a point or an equals sign. -/
structure Override.IsWritten (o : Override) (item : String) : Prop where
  path_ne_nil : o.path ≠ []
  names : ∀ name ∈ o.path, '.' ∉ name.toList ∧ '=' ∉ name.toList
  text : item.toList = ['.'].intercalate (o.path.map String.toList) ++ '=' :: o.value.toList

/-- What lies between separators has none, and is part of the whole. -/
theorem of_mem_splitOn {c : Char} {cs piece : List Char} (h : piece ∈ cs.splitOn c) :
    c ∉ piece ∧ piece ⊆ cs := by
  induction cs generalizing piece with
  | nil =>
    rw [List.splitOn_nil, List.mem_singleton] at h
    subst h
    exact ⟨List.not_mem_nil, List.nil_subset _⟩
  | cons d cs ih =>
    rw [List.splitOn_cons_eq_if_modifyHead] at h
    split at h
    next =>
      rcases List.mem_cons.mp h with rfl | h
      · exact ⟨List.not_mem_nil, List.nil_subset _⟩
      · exact ⟨(ih h).1, List.subset_cons_of_subset d (ih h).2⟩
    next hdc =>
      obtain ⟨first, rest, hsplit⟩ := List.exists_cons_of_ne_nil (List.splitOn_ne_nil c cs)
      rw [hsplit, List.modifyHead_cons] at h
      rcases List.mem_cons.mp h with rfl | h
      · obtain ⟨hfirst, hsubset⟩ := ih (hsplit ▸ List.mem_cons_self ..)
        refine ⟨fun hmem => ?_, List.cons_subset_cons d hsubset⟩
        rcases List.mem_cons.mp hmem with rfl | hmem
        · exact hdc (beq_self_eq_true c)
        · exact hfirst hmem
      · obtain ⟨hpiece, hsubset⟩ := ih (hsplit ▸ List.mem_cons_of_mem first h)
        exact ⟨hpiece, List.subset_cons_of_subset d hsubset⟩

/-- A joined list holds what its pieces hold, and the separator. -/
theorem mem_of_mem_intercalate {c d : Char} {pieces : List (List Char)}
    (h : c ∈ [d].intercalate pieces) : c = d ∨ ∃ piece ∈ pieces, c ∈ piece := by
  induction pieces with
  | nil => exact absurd h List.not_mem_nil
  | cons piece pieces ih =>
    rcases eq_or_ne pieces [] with rfl | hne
    · rw [List.intercalate_singleton] at h
      exact .inr ⟨piece, List.mem_cons_self .., h⟩
    · rw [List.intercalate_cons_of_ne_nil hne, List.append_assoc] at h
      rcases List.mem_append.mp h with h | h
      · exact .inr ⟨piece, List.mem_cons_self .., h⟩
      · rcases List.mem_cons.mp h with rfl | h
        · exact .inl rfl
        · exact (ih h).imp_right fun ⟨piece', hmem, hc⟩ => ⟨piece', List.mem_cons_of_mem _ hmem, hc⟩

/-- Without an equals sign there is nothing to read. -/
theorem Override.read_eq_error {item : String} (h : '=' ∉ item.toList) :
    Override.read item = .error (.argument (.malformedOverride item)) := by
  have hnil : item.toList.dropWhile (· ≠ '=') = [] :=
    List.dropWhile_eq_nil_iff.mpr fun c hc => decide_eq_true fun heq => h (heq ▸ hc)
  rw [Override.read, hnil]

/-- With one there is: the names are what lies between the points before the first one. -/
theorem Override.exists_read {item : String} (h : '=' ∈ item.toList) :
    ∃ o, Override.read item = .ok o ∧ o.IsWritten item := by
  have hne : item.toList.dropWhile (· ≠ '=') ≠ [] := fun hnil =>
    absurd (List.dropWhile_eq_nil_iff.mp hnil _ h) (by decide)
  obtain ⟨c, value, hdrop⟩ := List.exists_cons_of_ne_nil hne
  have hc : c = '=' := by
    have hhead := List.head_dropWhile_not (· ≠ '=') hne
    simpa only [hdrop, List.head_cons, decide_eq_false_iff_not, not_not] using hhead
  have hjoin := List.takeWhile_append_dropWhile (p := (· ≠ '=')) (l := item.toList)
  set before := item.toList.takeWhile (· ≠ '=') with hbefore
  refine ⟨⟨(before.splitOn '.').map String.ofList, String.ofList value⟩, ?_, ?_, ?_, ?_⟩
  · rw [Override.read, hdrop]
  · exact fun hnil => List.splitOn_ne_nil _ _ (List.map_eq_nil_iff.mp hnil)
  · intro name hname
    obtain ⟨piece, hpiece, rfl⟩ := List.mem_map.mp hname
    obtain ⟨hpoint, hsubset⟩ := of_mem_splitOn hpiece
    rw [String.toList_ofList]
    exact ⟨hpoint, fun heq => absurd (List.mem_takeWhile_imp (hsubset heq)) (by decide)⟩
  · have hpieces : (String.toList ∘ String.ofList) = id := funext fun _ => String.toList_ofList
    rw [List.map_map, hpieces, List.map_id, List.intercalate_splitOn, String.toList_ofList, ← hc, ← hdrop,
      hjoin]

/-- An item is written as one override only, which is the one that is read. -/
theorem Override.IsWritten.read_eq {o : Override} {item : String} (h : o.IsWritten item) :
    Override.read item = .ok o := by
  have hbefore : ∀ c ∈ ['.'].intercalate (o.path.map String.toList), decide (c ≠ '=') = true := by
    intro c hc
    refine decide_eq_true ?_
    rintro rfl
    rcases mem_of_mem_intercalate hc with hpoint | ⟨piece, hpiece, hmem⟩
    · exact absurd hpoint (by decide)
    · obtain ⟨name, hname, rfl⟩ := List.mem_map.mp hpiece
      exact (h.names name hname).2 hmem
  have hdrop : item.toList.dropWhile (· ≠ '=') = '=' :: o.value.toList := by
    rw [h.text, List.dropWhile_append_of_pos hbefore]
    rfl
  have htake : item.toList.takeWhile (· ≠ '=') = ['.'].intercalate (o.path.map String.toList) := by
    rw [h.text, List.takeWhile_append_of_pos hbefore]
    exact List.append_nil _
  have hpieces : ∀ piece ∈ o.path.map String.toList, '.' ∉ piece := by
    intro piece hpiece
    obtain ⟨name, hname, rfl⟩ := List.mem_map.mp hpiece
    exact (h.names name hname).1
  have hnames : (String.ofList ∘ String.toList) = id := funext fun _ => String.ofList_toList
  rw [Override.read, hdrop]
  show Except.ok (Override.mk _ _) = _
  rw [htake, List.splitOn_intercalate '.' hpieces fun hnil => h.path_ne_nil (List.map_eq_nil_iff.mp hnil),
    List.map_map, hnames, List.map_id, String.ofList_toList]

theorem Override.existsUnique_isWritten {item : String} (h : '=' ∈ item.toList) :
    ∃! o : Override, o.IsWritten item := by
  obtain ⟨o, hread, ho⟩ := Override.exists_read h
  exact ⟨o, ho, fun o' ho' => Except.ok.inj (ho'.read_eq.symm.trans hread)⟩

/-! ## Applying overrides -/

/-- Reading the text gives a value, or finds that none is written there: it fails for no other reason. -/
def IsReadable (text : String) : Prop := ∀ e, Value.read text = .error e → e = .malformedText

/-- The value that is written in a text, or the text itself. -/
def valueOf (text : String) : Value :=
  match Value.read text with
  | .ok v => v
  | .error _ => .text text

theorem parsed_eq {text : String} (h : IsReadable text) : parsed text = .ok (valueOf text) := by
  rw [parsed, valueOf]
  rcases hread : Value.read text with e | v
  · rw [h e hread]
  · rfl

/-- A configuration with one more item applied; what is no override changes nothing. -/
def overridden (config : Value) (item : String) : Value :=
  match Override.read item with
  | .ok o => stored (some config) o.path (valueOf o.value)
  | .error _ => config

variable {fields : Fields Value} {config config' : Value} {item : String} {items : List String}
  {o : Override}

theorem overridden_eq (h : o.IsWritten item) (config : Value) :
    overridden config item = stored (some config) o.path (valueOf o.value) := by
  rw [overridden, h.read_eq]

/-- An item changes nothing, or it is an override. -/
theorem overridden_cases (item : String) :
    (∀ config, overridden config item = config) ∨ ∃ o : Override, o.IsWritten item := by
  by_cases h : '=' ∈ item.toList
  · obtain ⟨o, -, ho⟩ := Override.exists_read h
    exact .inr ⟨o, ho⟩
  · refine .inl fun config => ?_
    rw [overridden, Override.read_eq_error h]

theorem overridden_alike (h : Alike config config') (item : String) :
    Alike (overridden config item) (overridden config' item) := by
  rcases overridden_cases item with hsame | ⟨o, ho⟩
  · rwa [hsame, hsame]
  · rw [overridden_eq ho, overridden_eq ho]
    exact stored_alike (.some h) o.path _

theorem foldl_overridden_alike (h : Alike config config') (items : List String) :
    Alike (items.foldl overridden config) (items.foldl overridden config') := by
  induction items generalizing config config' with
  | nil => exact h
  | cons item items ih => exact ih (overridden_alike h item)

theorem lookup_foldl_overridden {q : List String}
    (h : ∀ item ∈ items, ∀ o : Override, o.IsWritten item → ¬ Comparable o.path q) (config : Value) :
    lookup (items.foldl overridden config) q = lookup config q := by
  induction items generalizing config with
  | nil => rfl
  | cons item items ih =>
    refine (ih (fun other hother => h other (List.mem_cons_of_mem item hother)) _).trans ?_
    rcases overridden_cases item with hsame | ⟨o, ho⟩
    · rw [hsame]
    · rw [overridden_eq ho, lookup_stored_of_not_comparable (h item (List.mem_cons_self ..) o ho)]
      rfl

/-- An override of an object gives an object. -/
theorem applyOverride_eq (h : o.IsWritten item) (hreadable : IsReadable o.value)
    (fields : Fields Value) :
    ∃ fields', overridden (.object fields) item = .object fields' ∧
      applyOverride (.object fields) (.text item) = .ok (.object fields') := by
  obtain ⟨name, path, hpath⟩ := List.exists_cons_of_ne_nil h.path_ne_nil
  refine ⟨setPath fields o.path (valueOf o.value), ?_, ?_⟩
  · rw [overridden_eq h, hpath]
    rfl
  · rw [applyOverride, h.read_eq]
    show (parsed o.value >>= fun v => Except.ok (Value.object (setPath fields o.path v))) = _
    rw [parsed_eq hreadable]
    rfl

/-- Every value after an equals sign can be read. -/
def AreReadable (items : List String) : Prop :=
  ∀ item ∈ items, ∀ o : Override, o.IsWritten item → IsReadable o.value

theorem foldlM_applyOverride (hreadable : AreReadable items)
    (h : ∀ item ∈ items, '=' ∈ item.toList) (fields : Fields Value) :
    ∃ fields', items.foldl overridden (.object fields) = .object fields' ∧
      (items.map Value.text).foldlM applyOverride (.object fields) = .ok (.object fields') := by
  induction items generalizing fields with
  | nil => exact ⟨fields, rfl, rfl⟩
  | cons item items ih =>
    obtain ⟨o, -, ho⟩ := Override.exists_read (h item (List.mem_cons_self ..))
    obtain ⟨between, hoverridden, happly⟩ :=
      applyOverride_eq ho (hreadable item (List.mem_cons_self ..) o ho) fields
    obtain ⟨fields', hfold, hfoldM⟩ :=
      ih (fun other hother => hreadable other (List.mem_cons_of_mem item hother))
        (fun other hother => h other (List.mem_cons_of_mem item hother)) between
    refine ⟨fields', ?_, ?_⟩
    · rw [List.foldl_cons, hoverridden, hfold]
    · rw [List.map_cons, List.foldlM_cons, happly]
      exact hfoldM

/-- The first item without an equals sign is refused. -/
theorem foldlM_applyOverride_eq_error (hreadable : AreReadable items)
    (h : ∃ item ∈ items, '=' ∉ item.toList) (fields : Fields Value) :
    ∃ before item after, items = before ++ item :: after ∧ (∀ other ∈ before, '=' ∈ other.toList) ∧
      '=' ∉ item.toList ∧ (items.map Value.text).foldlM applyOverride (.object fields)
        = .error (.argument (.malformedOverride item)) := by
  induction items generalizing fields with
  | nil =>
    obtain ⟨item, hitem, -⟩ := h
    exact absurd hitem List.not_mem_nil
  | cons item items ih =>
    by_cases hsign : '=' ∈ item.toList
    · obtain ⟨o, -, ho⟩ := Override.exists_read hsign
      obtain ⟨between, -, happly⟩ :=
        applyOverride_eq ho (hreadable item (List.mem_cons_self ..) o ho) fields
      obtain ⟨bad, hbad, hbadSign⟩ := h
      have hlater : bad ∈ items :=
        (List.mem_cons.mp hbad).resolve_left fun heq => hbadSign (heq ▸ hsign)
      obtain ⟨before, first, after, hitems, hbefore, hfirst, herror⟩ :=
        ih (fun other hother => hreadable other (List.mem_cons_of_mem item hother))
          ⟨bad, hlater, hbadSign⟩ between
      refine ⟨item :: before, first, after, by rw [hitems, List.cons_append], ?_, hfirst, ?_⟩
      · exact List.forall_mem_cons.mpr ⟨hsign, hbefore⟩
      · rw [List.map_cons, List.foldlM_cons, happly]
        exact herror
    · refine ⟨[], item, items, rfl, nofun, hsign, ?_⟩
      rw [List.map_cons, List.foldlM_cons, applyOverride, Override.read_eq_error hsign]
      rfl

/-- A configuration that can be written gets the items one by one. -/
theorem applyOverrides_eq_foldlM (h : (Value.object fields).isWritable = true) (items : List Value) :
    applyOverrides (.object fields) (.list items) = items.foldlM applyOverride (.object fields) := by
  show (copied (.object fields) >>= fun config => items.foldlM applyOverride config) = _
  rw [copied, if_pos h]
  rfl

/-- A configuration that cannot be written is refused, whatever is to be applied to it. -/
theorem applyOverrides_eq_error (h : ¬ config.isWritable = true) (overrides : Value) :
    applyOverrides config overrides = .error .unreadable := by
  rw [applyOverrides, copied, if_neg h]
  rfl

/-- The least number that cannot be written keeps a configuration from being copied. -/
example {n : Int} (h : n.natAbs = 10 ^ Decimal.mostDigits) :
    applyOverrides (.object [("a", .int n)]) .null = .error .unreadable := by
  refine applyOverrides_eq_error (fun hwritable => ?_) .null
  have hnumber := Value.isWritable_object.mp hwritable _ (List.mem_singleton_self _)
  exact (Value.isWritable_int.mp hnumber).ne h

end Configuration

end Minimization
