import Minimization.Configuration.Overrides
import Minimization.Proofs.Configuration.Reading

/-!
# Objects with distinct names

The fields of an object are a list, and could hold one name twice; what is found under that name would
depend on who looks. No value that is read from a text is of that kind (`Value.distinct_of_read`): the
reader sets the fields of an object one after the other, and the last one of a name takes the place of
those before it. Overrides keep it so (`Configuration.distinct_of_applyOverrides`).
-/

namespace Minimization

/-! ## Values -/

namespace Value

/-- No object in the value has two fields of one name. -/
inductive Distinct : Value → Prop where
  | null : Distinct null
  | bool (b : Bool) : Distinct (bool b)
  | int (n : Int) : Distinct (int n)
  | real (x : Float) : Distinct (real x)
  | text (s : String) : Distinct (text s)
  | list {vs : List Value} (items : ∀ v ∈ vs, Distinct v) : Distinct (list vs)
  | object {fs : Fields Value} (names : (Fields.names fs).Nodup)
      (values : ∀ field ∈ fs, Distinct field.2) : Distinct (object fs)

namespace Distinct

variable {v : Value} {fs : Fields Value}

theorem empty : Distinct (.object []) := .object List.nodup_nil nofun

/-- The fields of whatever is no object are none. -/
theorem fields (h : Distinct v) : Distinct (.object v.fields) := by
  cases h with
  | object names values => exact .object names values
  | _ => exact empty

theorem nodup_names (h : Distinct v) : (Fields.names v.fields).Nodup := by
  cases h.fields with
  | object names _ => exact names

theorem field (h : Distinct v) (name : String) : Distinct (v.field name) := by
  rw [Value.field, Value.field?_eq]
  rcases hget : Fields.get? v.fields name with - | w
  · exact .null
  · cases h.fields with
    | object names values => exact values _ (Fields.mem_of_get? hget)

/-- A field is set in place, or added under a name that is not there. -/
theorem set (hfs : Distinct (.object fs)) (hv : Distinct v) (name : String) :
    Distinct (.object (Fields.set fs name v)) := by
  cases hfs with
  | object names values =>
    refine .object (Fields.nodup_names_set names name v) fun field hfield => ?_
    rcases Fields.mem_set hfield with rfl | hfield
    · exact hv
    · exact values field hfield

end Distinct

/-! ## What is read -/

/-- Numbers and words have no fields, and the fields of an object are set one by one. -/
theorem inherited_distinct : Inherited Distinct where
  number cs := by
    rcases readNumber_cases cs with ⟨e, he⟩ | ⟨x, hx⟩ | ⟨negative, ds, -, -, hn⟩
    · rw [he]
      exact .error e
    · rw [hx]
      exact .real x
    · rw [hn]
      exact .int _
  word cs := by
    unfold readWord
    split
    all_goals constructor
  text := .text
  list := .list
  empty := .empty
  set h hv name := h.set hv name

/-- What is read from a text has no two fields of one name in an object. -/
theorem distinct_of_read {text : String} {v : Value} (h : read text = .ok v) : v.Distinct :=
  (inherited_distinct.yields_read text).of_ok h

end Value

/-! ## Overrides -/

namespace Configuration

open Value

theorem distinct_setPath {fields : Fields Value} {v : Value} (hv : v.Distinct) (path : List String)
    (h : Distinct (.object fields)) : Distinct (.object (setPath fields path v)) := by
  induction path generalizing fields with
  | nil => exact h
  | cons name path ih =>
    cases path with
    | nil => exact h.set hv name
    | cons next path => exact h.set (ih (h.field name).fields) name

theorem yields_parsed (text : String) : Yields Distinct (parsed text) := by
  have hread := inherited_distinct.yields_read text
  unfold parsed
  split
  next v heq => exact hread.of_ok heq
  next => exact .text text
  next => exact .error _

theorem yields_applyOverride {config : Value} (h : config.Distinct) (item : Value) :
    Yields Distinct (applyOverride config item) := by
  cases item with
  | text s =>
    refine .bind_any fun o => (yields_parsed o.value).bind fun v hv => ?_
    cases config with
    | object fields => exact distinct_setPath hv o.path h
    | _ => exact .error _
  | _ => exact .error _

theorem yields_copied {config : Value} (h : config.Distinct) : Yields Distinct (copied config) :=
  .ite h (.error _)

/-- Overrides leave no two fields of one name. -/
theorem distinct_of_applyOverrides {config overrides result : Value} (h : config.Distinct)
    (happly : applyOverrides config overrides = .ok result) : result.Distinct := by
  have hstep (v item : Value) (hv : v.Distinct) (_ : True) := yields_applyOverride hv item
  refine Yields.of_ok ((yields_copied h).bind fun copy hcopy => .bind_any fun items => ?_) happly
  exact .foldlM (fun _ _ => trivial) hstep hcopy

end Configuration

end Minimization
