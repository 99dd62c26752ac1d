import Minimization.Proofs.Stateful

/-!
# How computations end

A computation ends with an answer or with a failure, and it leaves a world either way. `Leaves` says
what holds of that: one condition for an answer and its world, one for the world after a failure. It goes
through a computation part by part, so that a run with many places to fail is described by what holds
between any two of them. `Succeeds` is the case without failures, from any world that satisfies a
condition, which is kept; and a computation `IsQuiet` if it succeeds in any world and leaves it as it is.
-/

namespace Minimization

variable {m : Type → Type} [Monad m] {ω β γ : Type} [Stateful m ω]

/-- Started in a world, the computation succeeds with an answer and a world that `Q` holds of, or it
fails and leaves a world that `E` holds of. -/
def Leaves (c : ExceptT Failure m β) (w : ω) (Q : β → ω → Prop) (E : ω → Prop) : Prop :=
  match attempt c w with
  | (.ok b, w') => Q b w'
  | (.error _, w') => E w'

namespace Leaves

variable {c : ExceptT Failure m β} {f : β → ExceptT Failure m γ} {w w' : ω} {b : β}
  {P Q : β → ω → Prop} {S : γ → ω → Prop} {E F : ω → Prop} {R : ω → ω → Prop}

theorem of_ok (h : attempt c w = (.ok b, w')) (hQ : Q b w') : Leaves c w Q E := by
  rw [Leaves, h]
  exact hQ

theorem of_error {e : Failure} (h : attempt c w = (.error e, w')) (hE : E w') : Leaves c w Q E := by
  rw [Leaves, h]
  exact hE

theorem ok (hc : Leaves c w Q E) (h : attempt c w = (.ok b, w')) : Q b w' := by
  rw [Leaves, h] at hc
  exact hc

theorem error (hc : Leaves c w Q E) {e : Failure} (h : attempt c w = (.error e, w')) : E w' := by
  rw [Leaves, h] at hc
  exact hc

theorem exists_ok (hc : Leaves c w Q fun _ => False) : ∃ b w', attempt c w = (.ok b, w') ∧ Q b w' := by
  rcases h : attempt c w with ⟨e | b, w'⟩
  · exact (hc.error h).elim
  · exact ⟨b, w', rfl, hc.ok h⟩

theorem mono (hc : Leaves c w P E) (hQ : ∀ b w', P b w' → Q b w') (hE : ∀ w', E w' → F w') :
    Leaves c w Q F := by
  rcases h : attempt c w with ⟨e | b, w'⟩
  · exact of_error h (hE w' (hc.error h))
  · exact of_ok h (hQ b w' (hc.ok h))

theorem pure (h : Q b w) : Leaves (pure b : ExceptT Failure m β) w Q E := of_ok (attempt_pure b w) h

theorem bind_of_ok (h : attempt c w = (.ok b, w')) (hf : Leaves (f b) w' S E) :
    Leaves (c >>= f) w S E := by
  rw [Leaves] at hf ⊢
  rw [attempt_bind_of_ok h]
  exact hf

theorem bind (hc : Leaves c w P E) (hf : ∀ b w', P b w' → Leaves (f b) w' S E) :
    Leaves (c >>= f) w S E := by
  rcases h : attempt c w with ⟨e | b, w'⟩
  · exact of_error (attempt_bind_of_error h f) (hc.error h)
  · exact bind_of_ok h (hf b w' (hc.ok h))

/-- What goes on after a result that is known only goes on if it is a success. -/
theorem bind_lift {x : Except Failure β} (hE : ∀ e, x = .error e → E w)
    (hf : ∀ b, x = .ok b → Leaves (f b) w S E) : Leaves ((liftM x : ExceptT Failure m β) >>= f) w S E := by
  rcases x with e | b
  · exact of_error (attempt_bind_of_error (attempt_lift _ w) f) (hE e rfl)
  · exact bind_of_ok (attempt_lift _ w) (hf b rfl)

/-- What a part keeps, it keeps whether it succeeds or not. -/
theorem of_keeps (hc : Keeps R c) : Leaves c w (fun _ => R w) (R w) := by
  have hkept := hc w
  rcases h : attempt c w with ⟨e | b, w'⟩
  all_goals rw [h] at hkept
  · exact of_error h hkept
  · exact of_ok h hkept

/-- A part that keeps a relation, whether it is the one that fails or not. -/
theorem bind_keeps [Trans R R R] {w₀ : ω} (h₀ : R w₀ w) (hc : Keeps R c)
    (hf : ∀ b w', R w₀ w' → Leaves (f b) w' S (R w₀)) : Leaves (c >>= f) w S (R w₀) :=
  bind (P := fun _ => R w₀)
    ((of_keeps hc).mono (fun _ _ h => Trans.trans h₀ h) fun _ h => Trans.trans h₀ h) hf

end Leaves

/-- In every world that `I` holds of the computation succeeds, with an answer that `Q` holds of, and `I`
holds of the world that it leaves. -/
def Succeeds (I : ω → Prop) (c : ExceptT Failure m β) (Q : β → Prop) : Prop :=
  ∀ w, I w → Leaves c w (fun b w' => Q b ∧ I w') fun _ => False

/-- A condition on worlds, for worlds with a state beside them. -/
def Beneath {σ : Type} (I : ω → Prop) (w : σ × ω) : Prop := I w.2

namespace Succeeds

variable {I : ω → Prop} {c : ExceptT Failure m β} {f : β → ExceptT Failure m γ} {b : β}
  {P Q : β → Prop} {S : γ → Prop} {w : ω}

theorem exists_ok (hc : Succeeds I c Q) (hw : I w) :
    ∃ b w', attempt c w = (.ok b, w') ∧ Q b ∧ I w' :=
  (hc w hw).exists_ok

theorem of_exists_ok (h : ∀ w, I w → ∃ b w', attempt c w = (.ok b, w') ∧ Q b ∧ I w') :
    Succeeds I c Q := by
  intro w hw
  obtain ⟨b, w', hb, hQ⟩ := h w hw
  exact .of_ok hb hQ

theorem mono (hc : Succeeds I c P) (h : ∀ b, P b → Q b) : Succeeds I c Q :=
  fun w hw => (hc w hw).mono (fun b _ => And.imp_left (h b)) fun _ => id

/-- What does the same succeeds as well. -/
theorem congr {c' : ExceptT Failure m β} (h : ∀ w, attempt c w = attempt c' w) (hc : Succeeds I c' Q) :
    Succeeds I c Q := by
  intro w
  rw [Leaves, h]
  exact hc w

theorem pure (h : Q b) : Succeeds I (pure b : ExceptT Failure m β) Q := fun _ hw => .pure ⟨h, hw⟩

theorem lift {x : Except Failure β} (hx : x = .ok b) (h : Q b) :
    Succeeds I (liftM x : ExceptT Failure m β) Q := by
  subst hx
  exact fun w hw => .of_ok (attempt_lift _ w) ⟨h, hw⟩

/-- What goes on after a result that is known to be a success. -/
theorem bind_lift {x : Except Failure β} (hx : x = .ok b) (hf : Succeeds I (f b) S) :
    Succeeds I ((liftM x : ExceptT Failure m β) >>= f) S := by
  subst hx
  exact fun w hw => .bind_of_ok (attempt_lift _ w) (hf w hw)

theorem bind (hc : Succeeds I c P) (hf : ∀ b, P b → Succeeds I (f b) S) : Succeeds I (c >>= f) S :=
  fun w hw => (hc w hw).bind fun b w' ⟨hP, hw'⟩ => hf b hP w' hw'

theorem mapM {δ : Type} {g : δ → ExceptT Failure m β} {xs : List δ}
    (h : ∀ x ∈ xs, Succeeds I (g x) Q) :
    Succeeds I (xs.mapM g) fun bs => bs.length = xs.length ∧ ∀ b ∈ bs, Q b := by
  -- The answers are collected behind those that are there already.
  have hloop : ∀ (xs : List δ) (acc : List β), (∀ x ∈ xs, Succeeds I (g x) Q) → (∀ b ∈ acc, Q b) →
      Succeeds I (List.mapM.loop g xs acc) fun bs =>
        bs.length = acc.length + xs.length ∧ ∀ b ∈ bs, Q b := by
    intro xs
    induction xs with
    | nil =>
      exact fun acc _ hacc =>
        .pure ⟨List.length_reverse, fun b hb => hacc b (List.mem_reverse.mp hb)⟩
    | cons x xs ih =>
      intro acc h hacc
      refine .bind (h x (List.mem_cons_self ..)) fun b hb =>
        (ih (b :: acc) (fun y hy => h y (List.mem_cons_of_mem x hy)) fun b' hb' => ?_).mono
          fun bs ⟨hlength, hbs⟩ => ⟨?_, hbs⟩
      · rcases List.mem_cons.mp hb' with rfl | hb'
        · exact hb
        · exact hacc b' hb'
      · rw [hlength, List.length_cons, List.length_cons, Nat.add_assoc, Nat.add_comm 1]
  exact (hloop xs [] h nofun).mono fun bs ⟨hlength, hbs⟩ =>
    ⟨hlength.trans (Nat.zero_add _), hbs⟩

/-- What an evaluation answers, it answers as a part of a descent. -/
theorem evaluate {α : Type} {e : Evaluation m β} (h : Succeeds I e Q) :
    Succeeds (Beneath I) (Descent.evaluate e : Descent m α β) Q := by
  refine .of_exists_ok fun w hw => ?_
  obtain ⟨b, v, hb, hQ⟩ := h.exists_ok hw
  exact ⟨b, (w.1, v), by rw [attempt_evaluate, hb], hQ⟩

theorem record {α : Type} (f : History α → History α) :
    Succeeds (Beneath I) (Descent.record (m := m) f) fun _ => True :=
  fun w hw => .of_ok (attempt_record f w) ⟨trivial, hw⟩

theorem reporting {α : Type} (f : Report α → Report α) :
    Succeeds (Beneath I) (Descent.reporting (m := m) f) fun _ => True :=
  fun w hw => .of_ok (attempt_reporting f w) ⟨trivial, hw⟩

theorem notify {α : Type} (n : Notice α) :
    Succeeds (Beneath I) (Descent.notify (m := m) n) fun _ => True :=
  fun w hw => .of_ok (attempt_notify n w) ⟨trivial, hw⟩

theorem report {α : Type} :
    Succeeds (Beneath I) (ExceptT.mk (do return .ok (← get).report) : Descent m α (Report α))
      fun _ => True :=
  fun w hw => .of_ok (attempt_report w) ⟨trivial, hw⟩

end Succeeds

/-- Whenever the computation fails, `E` holds of its failure. -/
def FailsWith (E : Failure → Prop) (c : ExceptT Failure m β) : Prop :=
  ∀ w e w', attempt c w = (.error e, w') → E e

namespace FailsWith

variable {E : Failure → Prop} {c : ExceptT Failure m β} {f : β → ExceptT Failure m γ}

theorem of_ok (h : ∀ w, ∃ b w', attempt c w = (.ok b, w')) : FailsWith E c := by
  intro w e w' he
  obtain ⟨b, v, hb⟩ := h w
  cases hb.symm.trans he

theorem pure (b : β) : FailsWith E (pure b : ExceptT Failure m β) :=
  .of_ok fun w => ⟨b, w, attempt_pure b w⟩

theorem bind (hc : FailsWith E c) (hf : ∀ b, FailsWith E (f b)) : FailsWith E (c >>= f) := by
  intro w e w' h
  rcases attempt_bind_eq_error.mp h with h | ⟨b, v, -, h⟩
  · exact hc w e w' h
  · exact hf b v e w' h

/-- What goes on after a result that is known only goes on if it is a success. -/
theorem bind_lift {x : Except Failure β} (hx : ∀ e, x = .error e → E e)
    (hf : ∀ b, x = .ok b → FailsWith E (f b)) :
    FailsWith E ((liftM x : ExceptT Failure m β) >>= f) := by
  intro w e w' h
  rcases attempt_bind_eq_error.mp h with h | ⟨b, v, hb, h⟩
  · rw [attempt_lift] at h
    exact hx e (Prod.mk.inj h).1
  · exact hf b (attempt_lift_eq_ok.mp hb).1 v e w' h

/-- What fails as an evaluation fails as a part of a descent. -/
theorem evaluate {α : Type} {e : Evaluation m β} (h : FailsWith E e) :
    FailsWith E (Descent.evaluate e : Descent m α β) := by
  intro w e' w' he
  rw [attempt_evaluate] at he
  exact h w.2 e' _ (Prod.ext (Prod.mk.inj he).1 rfl)

end FailsWith

/-- The computation has an answer in every world and leaves it as it is. -/
def IsQuiet (c : ExceptT Failure m β) : Prop := ∀ w, ∃ b, attempt c w = (.ok b, w)

theorem isQuiet_iff {c : ExceptT Failure m β} :
    IsQuiet c ↔ Keeps Eq c ∧ Succeeds (fun _ => True) c fun _ => True := by
  constructor
  · intro h
    refine ⟨fun w => ?_, .of_exists_ok fun w _ => ?_⟩
    · obtain ⟨b, hb⟩ := h w
      rw [hb]
    · obtain ⟨b, hb⟩ := h w
      exact ⟨b, w, hb, trivial, trivial⟩
  · rintro ⟨hkeeps, hsucceeds⟩ w
    obtain ⟨b, w', hb, -⟩ := hsucceeds.exists_ok (w := w) trivial
    have hw : w = w' := (hkeeps w).trans (congrArg Prod.snd hb)
    exact ⟨b, by rw [hb, hw]⟩

theorem IsQuiet.pure (b : β) : IsQuiet (pure b : ExceptT Failure m β) := fun w => ⟨b, attempt_pure b w⟩

theorem IsQuiet.bind {c : ExceptT Failure m β} {f : β → ExceptT Failure m γ} (hc : IsQuiet c)
    (hf : ∀ b, IsQuiet (f b)) : IsQuiet (c >>= f) := by
  intro w
  obtain ⟨b, hb⟩ := hc w
  rw [attempt_bind_of_ok hb]
  exact hf b w

end Minimization
