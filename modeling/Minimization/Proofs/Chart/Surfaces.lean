import Mathlib.Data.List.Infix
import Minimization.Chart
import Minimization.Proofs.Perform

/-!
# Drawing on surfaces that refuse

A surface can refuse any action, and a drawing that meets a refusal ends there. Since nothing comes back from
an action that goes through, what a drawing would do next does not depend on the surface: it is a list of
actions, with what comes of it once all of them are done (`Draw.Consists`). So it is enough to know a drawing
on one surface, and on any other it is cut off before the first action that is refused
(`Draw.Consists.on_cases`).

What a drawing consists of is put together along the program: one lemma for an action, one for a part that can
fail without touching the surface, one for two parts in a row.
-/

namespace Minimization.Chart

variable {β γ : Type}

/-- Does one action after the other, up to the first one that is refused. -/
def Surface.carryOut (s : Surface) (d : Drawing) : List Action → Except Failure Unit × Drawing
  | [] => (.ok (), d)
  | a :: todo =>
    match s.answer d.actions a with
    | .ok () => s.carryOut ⟨d.actions ++ [a]⟩ todo
    | .error e => (.error e, d)

/-- None of the actions is refused after those that are done, and the ones before it. -/
def Surface.Grants (s : Surface) (done todo : List Action) : Prop :=
  ∀ before a, before ++ [a] <+: todo → s.answer (done ++ before) a = .ok ()

namespace Surface

variable {s : Surface} {done todo : List Action} {a : Action} {d : Drawing}

theorem grants_nil (s : Surface) (done : List Action) : s.Grants done [] := fun _ _ h =>
  absurd (List.prefix_nil.mp h) (by simp)

theorem grants_cons : s.Grants done (a :: todo) ↔
    s.answer done a = .ok () ∧ s.Grants (done ++ [a]) todo := by
  constructor
  · intro h
    refine ⟨?_, fun before b hb => ?_⟩
    · have hhead := h [] a (List.cons_prefix_cons.mpr ⟨rfl, List.nil_prefix⟩)
      rwa [List.append_nil] at hhead
    · rw [List.append_assoc]
      exact h (a :: before) b (List.cons_prefix_cons.mpr ⟨rfl, hb⟩)
  · rintro ⟨hhead, htail⟩ before b hb
    rcases before with _ | ⟨first, before⟩
    · obtain ⟨rfl, -⟩ := List.cons_prefix_cons.mp hb
      rwa [List.append_nil]
    · obtain ⟨rfl, hrest⟩ := List.cons_prefix_cons.mp hb
      have hanswer := htail before b hrest
      rwa [List.append_assoc] at hanswer

/-- What is refused is not granted. -/
theorem not_grants {e : Failure} (h : done ++ [a] <+: todo) (ha : s.answer done a = .error e) :
    ¬ s.Grants [] todo := fun hgrants => nomatch (hgrants done a h).symm.trans ha

theorem Grants.of_prefix {more : List Action} (h : s.Grants [] todo) (hmore : more <+: todo) :
    s.Grants [] more := fun before a ha => h before a (ha.trans hmore)

theorem carryOut_cons_of_ok (h : s.answer d.actions a = .ok ()) :
    s.carryOut d (a :: todo) = s.carryOut ⟨d.actions ++ [a]⟩ todo := by
  rw [carryOut, h]

theorem carryOut_cons_of_error {e : Failure} (h : s.answer d.actions a = .error e) :
    s.carryOut d (a :: todo) = (.error e, d) := by
  rw [carryOut, h]

/-- Either every action goes through, or there is a first one that does not. -/
theorem carryOut_cases (s : Surface) (d : Drawing) (todo : List Action) :
    (s.Grants d.actions todo ∧ s.carryOut d todo = (.ok (), ⟨d.actions ++ todo⟩)) ∨
      ∃ before a after e, todo = before ++ a :: after ∧ s.Grants d.actions before ∧
        s.answer (d.actions ++ before) a = .error e ∧
        s.carryOut d todo = (.error e, ⟨d.actions ++ before⟩) := by
  induction todo generalizing d with
  | nil => exact .inl ⟨s.grants_nil _, by rw [List.append_nil]; rfl⟩
  | cons a todo ih =>
    rcases ha : s.answer d.actions a with e | u
    · refine .inr ⟨[], a, todo, e, rfl, s.grants_nil _, ?_, ?_⟩
      · rwa [List.append_nil]
      · rw [carryOut_cons_of_error ha, List.append_nil]
    · rw [carryOut_cons_of_ok ha]
      rcases ih ⟨d.actions ++ [a]⟩ with ⟨hgrants, hall⟩ | ⟨before, b, after, e, rfl, hbefore, hb, hcut⟩
      · refine .inl ⟨grants_cons.mpr ⟨ha, hgrants⟩, ?_⟩
        rw [hall, List.append_assoc, List.singleton_append]
      · rw [List.append_assoc] at hb hcut
        exact .inr ⟨a :: before, b, after, e, rfl, grants_cons.mpr ⟨ha, hbefore⟩, hb, hcut⟩

/-- After some actions come the others, unless one of the first is refused. -/
theorem carryOut_append (s : Surface) (d : Drawing) (first rest : List Action) :
    s.carryOut d (first ++ rest) =
      match s.carryOut d first with
      | (.ok (), d') => s.carryOut d' rest
      | (.error e, d') => (.error e, d') := by
  induction first generalizing d with
  | nil => rfl
  | cons a first ih =>
    rcases ha : s.answer d.actions a with e | u
    · rw [List.cons_append, carryOut_cons_of_error ha, carryOut_cons_of_error ha]
    · rw [List.cons_append, carryOut_cons_of_ok ha, carryOut_cons_of_ok ha, ih]

end Surface

/-- On every surface the drawing does these actions, up to the first one that is refused; this comes of it if
none is. -/
def Draw.Consists (p : Draw β) (todo : List Action) (r : Except Failure β) : Prop :=
  ∀ (s : Surface) (d : Drawing),
    perform (p.run s) d = ((s.carryOut d todo).1 >>= fun _ => r, (s.carryOut d todo).2)

namespace Draw.Consists

variable {p : Draw β} {f : β → Draw γ} {first rest : List Action} {b : β} {e : Failure}

theorem pure (b : β) : Consists (Pure.pure b) [] (.ok b) := fun _ _ => rfl

/-- What has no need of the surface. -/
theorem lift (x : Except Failure β) : Consists (liftM x) [] x := fun _ _ => rfl

theorem act (a : Action) : Consists (Draw.act a) [a] (.ok ()) := by
  intro s d
  show perform (liftM (s.answer d.actions a) >>= fun _ => set (⟨d.actions ++ [a]⟩ : Drawing)) d = _
  rcases ha : s.answer d.actions a with e | u
  · rw [Surface.carryOut_cons_of_error ha]
    rfl
  · rw [Surface.carryOut_cons_of_ok ha]
    rfl

/-- Two parts in a row. -/
theorem bind {r : Except Failure γ} (hp : Consists p first (.ok b)) (hf : Consists (f b) rest r) :
    Consists (p >>= f) (first ++ rest) r := by
  intro s d
  show perform (p.run s >>= fun b => (f b).run s) d = _
  rw [perform_bind, hp, s.carryOut_append]
  rcases s.carryOut d first with ⟨e | u, d'⟩
  · rfl
  · exact hf s d'

/-- A part that fails is the last one. -/
theorem bind_error (hp : Consists p first (.error e)) : Consists (p >>= f) first (.error e) := by
  intro s d
  show perform (p.run s >>= fun b => (f b).run s) d = _
  rw [perform_bind, hp]
  rcases s.carryOut d first with ⟨e | u, d'⟩ <;> rfl

variable {p : Draw Unit} {todo : List Action} {r : Except Failure Unit}

/-- A drawing on a surface that refuses nothing does all it consists of. -/
theorem onEmpty_eq (h : Consists p todo r) : p.onEmpty = (r, ⟨todo⟩) := by
  show perform (p.run Surface.willing) Drawing.empty = _
  rw [h]
  rcases Surface.willing.carryOut_cases Drawing.empty todo with
    ⟨-, hall⟩ | ⟨_, _, _, _, -, -, hrefused, -⟩
  · rw [hall]
    rfl
  · cases hrefused

/-- On any other surface it does all of that too, or it is cut off before the first action that is refused. -/
theorem on_cases (h : Consists p todo r) (s : Surface) :
    (s.Grants [] todo ∧ p.on s = (r, ⟨todo⟩)) ∨
      ∃ before a after e, todo = before ++ a :: after ∧ s.Grants [] before ∧
        s.answer before a = .error e ∧ p.on s = (.error e, ⟨before⟩) := by
  have hon := h s Drawing.empty
  rcases s.carryOut_cases Drawing.empty todo with
    ⟨hgrants, hall⟩ | ⟨before, a, after, e, heq, hbefore, hrefused, hcut⟩
  · rw [hall] at hon
    exact .inl ⟨hgrants, hon⟩
  · rw [hcut] at hon
    exact .inr ⟨before, a, after, e, heq, hbefore, hrefused, hon⟩

end Draw.Consists

end Minimization.Chart
