/-!
# Fields in order

A list of named values that keeps the order in which the names were first set. Setting a name that is
already there replaces its value in place; a new name goes to the end.
-/

namespace Minimization

/-- Named values in the order in which the names were first set. -/
abbrev Fields (β : Type) := List (String × β)

namespace Fields

variable {β : Type}

/-- The value of a name. -/
def get? (fs : Fields β) (name : String) : Option β :=
  match fs with
  | [] => none
  | (n, v) :: rest => if n = name then some v else get? rest name

/-- Whether a name is set. -/
def has (fs : Fields β) (name : String) : Bool := (fs.get? name).isSome

/-- The fields with `name` set to `value`. -/
def set (fs : Fields β) (name : String) (value : β) : Fields β :=
  match fs with
  | [] => [(name, value)]
  | (n, v) :: rest => if n = name then (n, value) :: rest else (n, v) :: set rest name value

/-- The fields with all of `more` set, in order. -/
def update (fs more : Fields β) : Fields β :=
  more.foldl (fun acc field => acc.set field.1 field.2) fs

/-- The names in order. -/
def names (fs : Fields β) : List String := fs.map Prod.fst

theorem get?_set_self (fs : Fields β) (name : String) (value : β) :
    (fs.set name value).get? name = some value := by
  induction fs with
  | nil => simp [set, get?]
  | cons f fs ih =>
    by_cases h : f.1 = name
    · simp [set, get?, h]
    · simp [set, get?, h, ih]

theorem get?_set_of_ne (fs : Fields β) {name other : String} (value : β) (h : other ≠ name) :
    (fs.set name value).get? other = fs.get? other := by
  induction fs with
  | nil => simp [set, get?, Ne.symm h]
  | cons f fs ih =>
    by_cases hn : f.1 = name
    · simp [set, get?, hn, Ne.symm h]
    · simp [set, get?, hn, ih]

/-- Values of two names can be set in either order, but for the order of the names. -/
theorem get?_set_comm {a b : String} (h : a ≠ b) (fs : Fields β) (v w : β) (name : String) :
    ((fs.set a v).set b w).get? name = ((fs.set b w).set a v).get? name := by
  by_cases ha : name = a
  · subst ha
    rw [get?_set_of_ne _ _ h, get?_set_self, get?_set_self]
  · rw [get?_set_of_ne (fs.set b w) _ ha]
    by_cases hb : name = b
    · subst hb
      rw [get?_set_self, get?_set_self]
    · rw [get?_set_of_ne _ _ hb, get?_set_of_ne _ _ ha, get?_set_of_ne _ _ hb]

theorem mem_of_get? {fs : Fields β} {name : String} {v : β} (h : fs.get? name = some v) :
    (name, v) ∈ fs := by
  induction fs with
  | nil => cases h
  | cons field fs ih =>
    rw [get?] at h
    split at h
    next hname =>
      obtain rfl := Option.some.inj h
      exact hname ▸ List.mem_cons_self ..
    next => exact List.mem_cons_of_mem field (ih h)

theorem get?_eq_none {fs : Fields β} {name : String} (h : name ∉ names fs) : fs.get? name = none := by
  induction fs with
  | nil => rfl
  | cons field fs ih =>
    rw [get?, if_neg (Ne.symm (List.ne_of_not_mem_cons h))]
    exact ih (List.not_mem_of_not_mem_cons h)

/-- What is set over other fields counts; the others stay, if no two fields that are set have one
name. -/
theorem get?_update {fs more : Fields β} (h : (names more).Nodup) (name : String) :
    (update fs more).get? name = (more.get? name).or (fs.get? name) := by
  induction more generalizing fs with
  | nil => rfl
  | cons field more ih =>
    obtain ⟨hfield, hmore⟩ := List.nodup_cons.mp h
    rw [update, List.foldl_cons, ← update, ih hmore, get?]
    by_cases hname : field.1 = name
    · subst hname
      rw [if_pos rfl, get?_set_self, get?_eq_none hfield]
      rfl
    · rw [if_neg hname, get?_set_of_ne _ _ (Ne.symm hname)]

theorem mem_set {fs : Fields β} {name : String} {v : β} {field : String × β}
    (h : field ∈ fs.set name v) : field = (name, v) ∨ field ∈ fs := by
  induction fs with
  | nil => exact .inl (List.mem_singleton.mp h)
  | cons first fs ih =>
    rw [set] at h
    split at h
    next hname =>
      rcases List.mem_cons.mp h with rfl | h
      · exact .inl (by rw [hname])
      · exact .inr (List.mem_cons_of_mem _ h)
    next =>
      rcases List.mem_cons.mp h with rfl | h
      · exact .inr (List.mem_cons_self ..)
      · exact (ih h).imp_right (List.mem_cons_of_mem _)

/-- Setting a name never makes a second field of that name. -/
theorem nodup_names_set {fs : Fields β} (h : (names fs).Nodup) (name : String) (v : β) :
    (names (fs.set name v)).Nodup := by
  induction fs with
  | nil => exact List.pairwise_singleton _ name
  | cons first fs ih =>
    obtain ⟨hfirst, hrest⟩ := List.nodup_cons.mp h
    rw [set]
    split
    next => exact h
    next hname =>
      refine List.nodup_cons.mpr ⟨fun hmem => ?_, ih hrest⟩
      obtain ⟨field, hfield, heq⟩ := List.mem_map.mp hmem
      rcases mem_set hfield with rfl | hfield
      · exact hname heq.symm
      · exact hfirst (heq ▸ List.mem_map_of_mem hfield)

end Fields

end Minimization
