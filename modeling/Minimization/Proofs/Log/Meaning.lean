import Minimization.Log.Registry

/-!
# Levels, names and lines

What the settings of loggers mean, apart from who is asked for them when. `Level.Means` are the levels that can be
asked for. Names belong to one logger only if they are equal or one is short for the other (`fullName_eq_iff`). In
the layout of handlers that are not given one, every record makes a line (`Registry.lineOf_defaultLayout`).
-/

namespace Minimization.Log

/-! ## Levels -/

namespace Level

/-- What a setting means that is a positive number, the name of a level in any case, or a text that names nothing
at all. -/
inductive Means : Value → Level → Prop
  | number {n : Int} (h : 0 < n) : Means (.int n) n
  | named {s : String} {n : Level} (h : (capitalized s, n) ∈ named) (hn : n ≠ unset) : Means (.text s) n
  | unknown {s : String} (h : capitalized s ∉ Fields.names named)
      (h' : capitalized s ∉ Fields.names reserved) : Means (.text s) warning

variable {v : Value} {n : Level}

/-- The named levels have distinct names, and all but one are positive. -/
theorem get?_named {name : String} (h : (name, n) ∈ named) : Fields.get? named name = some n := by
  have hfields : ∀ field ∈ named, Fields.get? named field.1 = some field.2 := by decide
  exact hfields (name, n) h

theorem Means.ofValue_eq (h : Means v n) : ofValue v = .ok n := by
  cases h with
  | number => rfl
  | named h => rw [ofValue, get?_named h]
  | unknown h h' => rw [ofValue, Fields.get?_eq_none h, Fields.get?_eq_none h']

theorem Means.pos (h : Means v n) : 0 < n := by
  have hfields : ∀ field ∈ Level.named, field.2 ≠ unset → 0 < field.2 := by decide
  cases h with
  | number h => exact h
  | named h hn => exact hfields _ h hn
  | unknown => exact (by decide : (0 : Int) < 30)

end Level

/-! ## Names -/

/-- Which names are short for others: no name for that of the root, and a name that does not start with that of
the root for the one that does. -/
inductive Abbreviates : Option String → Option String → Prop
  | root : Abbreviates none (some rootName)
  | short {name : String} (hroot : name ≠ rootName) (hdot : ¬ (rootName ++ ".").toList <+: name.toList) :
      Abbreviates (some name) (some (rootName ++ "." ++ name))

section Names

variable {name : String} {m n : Option String}

theorem fullName_of_full (h : name = rootName ∨ (rootName ++ ".").toList <+: name.toList) :
    fullName (some name) = name := by
  refine if_pos ?_
  rw [Bool.or_eq_true, decide_eq_true_iff]
  exact h.imp_right String.startsWith_string_iff.mpr

theorem fullName_of_short (hroot : name ≠ rootName) (hdot : ¬ (rootName ++ ".").toList <+: name.toList) :
    fullName (some name) = rootName ++ "." ++ name := by
  refine if_neg ?_
  rw [Bool.or_eq_true, decide_eq_true_iff, not_or]
  exact ⟨hroot, fun h => hdot (String.startsWith_string_iff.mp h)⟩

theorem fullName_append (name : String) :
    fullName (some (rootName ++ "." ++ name)) = rootName ++ "." ++ name := by
  refine fullName_of_full (.inr ?_)
  rw [show (rootName ++ "." ++ name).toList = (rootName ++ ".").toList ++ name.toList from
    String.toList_append]
  exact List.prefix_append ..

theorem rootName_ne_append (name : String) : rootName ≠ rootName ++ "." ++ name := by
  intro h
  rw [String.append_assoc] at h
  have hlength := congrArg String.length h
  rw [String.length_append, String.length_append] at hlength
  have hdot : ".".length = 1 := rfl
  omega

theorem Abbreviates.fullName_eq (h : Abbreviates m n) : fullName m = fullName n := by
  cases h with
  | root => exact (fullName_of_full (.inl rfl)).symm
  | short hroot hdot => rw [fullName_of_short hroot hdot, fullName_append]

/-- A name is full, or it is short for its full name. -/
theorem fullName_cases (m : Option String) :
    m = some (fullName m) ∨ Abbreviates m (some (fullName m)) := by
  rcases m with - | name
  · exact .inr .root
  · by_cases h : name = rootName ∨ (rootName ++ ".").toList <+: name.toList
    · exact .inl (by rw [fullName_of_full h])
    · rw [not_or] at h
      rw [fullName_of_short h.1 h.2]
      exact .inr (.short h.1 h.2)

/-- No two names are short for the same one. -/
theorem Abbreviates.eq_of_eq {k k' : Option String} (hm : Abbreviates m k) (hn : Abbreviates n k')
    (h : k = k') : m = n := by
  cases hm with
  | root =>
    cases hn with
    | root => rfl
    | short => exact absurd (Option.some.inj h) (rootName_ne_append _)
  | short =>
    cases hn with
    | root => exact absurd (Option.some.inj h).symm (rootName_ne_append _)
    | short => exact congrArg some ((String.append_right_inj _).mp (Option.some.inj h))

/-- Two names are those of one logger only if they are equal or one is short for the other. -/
theorem fullName_eq_iff : fullName m = fullName n ↔ m = n ∨ Abbreviates m n ∨ Abbreviates n m := by
  constructor
  · intro h
    have hm := fullName_cases m
    have hn := fullName_cases n
    rw [← h] at hn
    rcases hm with hm | hm
    · rcases hn with hn | hn
      · exact .inl (hm.trans hn.symm)
      · rw [← hm] at hn
        exact .inr (.inr hn)
    · rcases hn with hn | hn
      · rw [← hn] at hm
        exact .inr (.inl hm)
      · exact .inl (hm.eq_of_eq hn rfl)
  · rintro (rfl | h | h)
    · rfl
    · exact h.fullName_eq
    · exact h.fullName_eq.symm

end Names

/-! ## Lines -/

section Lines

open Text

variable {fields : Fields Value} {queue : List Value} {name text : String}

/-- A directive for a field as it is. -/
def plain (name : String) : Directive := ⟨some name, [], none, none, 's'⟩

theorem apply_plain (text : String) :
    (Style.ofFlags [] none none).apply 's' (.text text) = .ok text := by
  show Except.ok ("".pushn ' ' (0 - text.length) ++ text) = _
  rw [Nat.zero_sub]
  exact congrArg Except.ok (String.empty_append ..)

theorem write_plain (h : fields.get? name = some (.text text)) :
    Supply.write ⟨some fields, queue⟩ (plain name) = .ok (text, ⟨some fields, []⟩) := by
  have hlookUp : Supply.lookUp ⟨some fields, queue⟩ (some name) = .ok ⟨some fields, [.text text]⟩ := by
    unfold Supply.lookUp
    dsimp only
    rw [h]
  rw [Supply.write, plain, hlookUp]
  show (do
    let text ← (Style.ofFlags [] none none).apply 's' (.text text)
    return (text, ⟨some fields, []⟩) : Except Failure (String × Supply)) = _
  rw [apply_plain]
  rfl

theorem fill_plain (h : fields.get? name = some (.text text)) (rest : Template) :
    Template.fill (.directive (plain name) :: rest) ⟨some fields, queue⟩
      = (Template.fill rest ⟨some fields, []⟩).map (text ++ ·) := by
  rw [Template.fill, write_plain h]
  rfl

theorem fill_literal (c : Char) (rest : Template) (s : Supply) :
    Template.fill (.literal c :: rest) s = (Template.fill rest s).map (String.singleton c ++ ·) :=
  rfl

/-- In the layout of handlers that are not given one, every record makes a line. -/
theorem Registry.lineOf_defaultLayout (name : String) (record : Record) :
    lineOf defaultLayout name record
      = .ok ("[" ++ record.level.name ++ "] " ++ name ++ ": " ++ record.message) := by
  have hread : Template.read defaultLayout = [.literal '[', .directive (plain "levelname"), .literal ']',
      .literal ' ', .directive (plain "name"), .literal ':', .literal ' ', .directive (plain "message")] := by
    rfl
  rw [lineOf, hread, Supply.byName, fill_literal, fill_plain rfl, fill_literal, fill_literal,
    fill_plain rfl, fill_literal, fill_literal, fill_plain rfl]
  refine congrArg Except.ok ?_
  -- What is between the fields comes one character after the other.
  rw [show "] " = String.singleton ']' ++ String.singleton ' ' from rfl,
    show ": " = String.singleton ':' ++ String.singleton ' ' from rfl]
  simp only [String.append_assoc, String.append_empty]
  rfl

end Lines

end Minimization.Log
