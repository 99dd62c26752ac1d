import Minimization.Proofs.Stateful

/-!
# Things in places

Programs share things that can be changed: stores of parameters, arrays. Where that matters, the things
stand in places, in the order in which they were made, and what a program holds of them are places. A
`Placing` computation can look at a thing, make a new one, copy one, or change the one in a place, for
everybody who holds this place.

`Simulates` compares a computation of that kind with one that is handed the things themselves and cannot
change them. Both do the same, and where they fail, some of the things are as they were: those that were
there before the program began to make things of its own. What a computation leaves after a success is
said by a condition, which is how places and changes in them are followed from part to part.
-/

namespace Minimization

/-- Computations that use things in places. -/
abbrev Placing (ι : Type) (m : Type → Type) (β : Type) := ExceptT Failure (StateT (List ι) m) β

namespace Placing

variable {m : Type → Type} [Monad m] {ι β σ : Type}

/-- A computation that uses no places. -/
def beside (c : ExceptT Failure m β) : Placing ι m β := ExceptT.mk (StateT.lift c.run)

/-- A computation with the same places, as a part of one with a state of its own. -/
def nested (c : Placing ι m β) : Placing ι (StateT σ m) β :=
  ExceptT.mk fun things => StateT.lift (c.run.run things)

/-- Puts a new thing behind the others. Its place is the next one. -/
def put (t : ι) : Placing ι m Nat := do
  let things ← getThe (List ι)
  set (things ++ [t])
  return things.length

/-- Changes what is in a place. -/
def change (place : Nat) (f : ι → ι) : Placing ι m Unit :=
  modifyThe (List ι) fun things => things.modify place f

variable [Inhabited ι]

/-- What is in a place. -/
def look (place : Nat) : Placing ι m ι := do
  return (← getThe (List ι))[place]?.getD default

/-- Copies what is in a place. -/
def copy (place : Nat) : Placing ι m Nat := do put (← look place)

/-- Copies what is in a place, and changes the copy. -/
def copyWith (place : Nat) (f : ι → ι) : Placing ι m Nat := do
  let own ← copy place
  change own f
  return own

/-- Changes what is in a place, unless that fails. -/
def rework (place : Nat) (f : ι → Except Failure ι) : Placing ι m Unit := do
  let t ← f (← look place)
  change place fun _ => t

end Placing

/-! ## What becomes of the places -/

namespace Placing

variable {m : Type → Type} [Monad m] {ω : Type} [Stateful m ω] {ι β σ : Type}

theorem attempt_nested (c : Placing ι m β) (things : List ι) (s : σ) (u : ω) :
    attempt (nested c) (things, s, u)
      = ((attempt c (things, u)).1, (attempt c (things, u)).2.1, s, (attempt c (things, u)).2.2) := by
  have hlift : Stateful.run (StateT.lift (c.run.run things) : StateT σ m _) (s, u)
      = ((Stateful.run (c.run.run things) u).1, s, (Stateful.run (c.run.run things) u).2) := by
    show (_, _, _) = _
    rw [show (StateT.lift (c.run.run things) : StateT σ m _).run s
      = c.run.run things >>= fun a => pure (a, s) from rfl, Stateful.run_bind, Stateful.run_pure]
  exact attempt_of_run (Prod.ext (Prod.ext (congrArg (·.1.1) hlift) (congrArg (·.1.2) hlift))
    (congrArg Prod.snd hlift))

theorem attempt_put (t : ι) (w : List ι × ω) :
    attempt (put t : Placing ι m Nat) w = (.ok w.1.length, w.1 ++ [t], w.2) := by
  rw [put, attempt_bind_of_ok (attempt_getThe w), attempt_bind_of_ok (attempt_set _ w), attempt_pure]

theorem attempt_change (place : Nat) (f : ι → ι) (w : List ι × ω) :
    attempt (change place f : Placing ι m Unit) w = (.ok (), w.1.modify place f, w.2) :=
  attempt_modifyThe _ w

theorem modify_concat (f : ι → ι) (things : List ι) (t : ι) :
    (things ++ [t]).modify things.length f = things ++ [f t] := by
  induction things with
  | nil => rfl
  | cons first things ih =>
    rw [List.cons_append, List.length_cons, List.modify_succ_cons, ih, List.cons_append]

/-- Things that are put behind the others leave them as they are. -/
theorem getElem?_later {things later : List ι} {place : Nat} {t : ι} (h : things[place]? = some t)
    (hlater : things <+: later) : later[place]? = some t := by
  obtain ⟨more, rfl⟩ := hlater
  rw [List.getElem?_append_left (List.getElem?_eq_some_iff.mp h).1, h]

/-- What is in front of a place is not changed in it. -/
theorem prefix_modify {kept things : List ι} {place : Nat} (h : kept <+: things)
    (hplace : kept.length ≤ place) (f : ι → ι) : kept <+: things.modify place f := by
  rw [List.prefix_iff_getElem?] at *
  intro i hi
  rw [List.getElem?_modify_ne, h i hi]
  omega

theorem getElem?_modify_self {things : List ι} {place : Nat} {t : ι} (h : things[place]? = some t) (t' : ι) :
    (things.modify place fun _ => t')[place]? = some t' := by
  rw [List.getElem?_modify, h]
  exact congrArg some (if_pos rfl)

variable [Inhabited ι]

theorem attempt_look (place : Nat) (w : List ι × ω) :
    attempt (look place : Placing ι m ι) w = (.ok (w.1[place]?.getD default), w) := by
  rw [look, attempt_bind_of_ok (attempt_getThe w), attempt_pure]

theorem attempt_copy (place : Nat) (w : List ι × ω) :
    attempt (copy place : Placing ι m Nat) w
      = (.ok w.1.length, w.1 ++ [w.1[place]?.getD default], w.2) := by
  rw [copy, attempt_bind_of_ok (attempt_look place w), attempt_put]

theorem attempt_copyWith (place : Nat) (f : ι → ι) (w : List ι × ω) :
    attempt (copyWith place f : Placing ι m Nat) w
      = (.ok w.1.length, w.1 ++ [f (w.1[place]?.getD default)], w.2) := by
  rw [copyWith, attempt_bind_of_ok (attempt_copy place w), attempt_bind_of_ok (attempt_change _ _ _),
    attempt_pure, modify_concat]

theorem attempt_rework {place : Nat} {t : ι} {w : List ι × ω} (h : w.1[place]? = some t)
    (f : ι → Except Failure ι) :
    attempt (rework place f : Placing ι m Unit) w = match f t with
      | .ok t' => (.ok (), w.1.modify place fun _ => t', w.2)
      | .error e => (.error e, w) := by
  rw [rework, attempt_bind_of_ok (attempt_look place w), h, Option.getD_some]
  rcases f t with e | t'
  · exact attempt_bind_of_error (attempt_lift _ w) _
  · exact (attempt_bind_of_ok (attempt_lift _ w) _).trans (attempt_change _ _ w)

end Placing

open Placing

/-! ## Simulation -/

variable {m : Type → Type} [Monad m] {ω : Type} [Stateful m ω] {ι β γ δ ε σ τ : Type}

/-- Started with these things, the first computation does what the second one does. After a success `Q`
holds of the things and of both results; after a failure the things that are kept are still in front. -/
def Simulates (kept things : List ι) (c' : Placing ι m γ) (c : ExceptT Failure m β)
    (Q : List ι → γ → β → Prop) : Prop :=
  ∀ w : ω, match attempt c w with
    | (.ok b, v) => ∃ later b', attempt c' (things, w) = (.ok b', later, v) ∧ Q later b' b
    | (.error e, v) => ∃ later, attempt c' (things, w) = (.error e, later, v) ∧ kept <+: later

/-- The things are as they were, apart from new ones behind them, and this one is in this place. -/
def Placing.Finds (things later : List ι) (place : Nat) (t : ι) : Prop :=
  things <+: later ∧ later[place]? = some t

namespace Simulates

variable {kept things : List ι} {place : Nat} {t : ι} {c' : Placing ι m γ} {c : ExceptT Failure m β}
  {f' : γ → Placing ι m ε} {f : β → ExceptT Failure m δ} {P Q : List ι → γ → β → Prop}
  {S : List ι → ε → δ → Prop} {w v : ω}

theorem of_ok {b : β} (h : Simulates kept things c' c Q) (hc : attempt c w = (.ok b, v)) :
    ∃ later b', attempt c' (things, w) = (.ok b', later, v) ∧ Q later b' b := by
  have hw := h w
  rw [hc] at hw
  exact hw

theorem of_error {e : Failure} (h : Simulates kept things c' c Q) (hc : attempt c w = (.error e, v)) :
    ∃ later, attempt c' (things, w) = (.error e, later, v) ∧ kept <+: later := by
  have hw := h w
  rw [hc] at hw
  exact hw

theorem intro
    (hok : ∀ {w b v}, attempt c w = (.ok b, v) →
      ∃ later b', attempt c' (things, w) = (.ok b', later, v) ∧ Q later b' b)
    (herror : ∀ {w e v}, attempt c w = (.error e, v) →
      ∃ later, attempt c' (things, w) = (.error e, later, v) ∧ kept <+: later) :
    Simulates kept things c' c Q := by
  intro w
  rcases hc : attempt c w with ⟨e | b, v⟩
  · exact herror hc
  · exact hok hc

theorem mono (h : Simulates kept things c' c P) (hQ : ∀ later b' b, P later b' b → Q later b' b) :
    Simulates kept things c' c Q := by
  refine .intro (fun hc => ?_) fun hc => h.of_error hc
  obtain ⟨later, b', hattempt, hP⟩ := h.of_ok hc
  exact ⟨later, b', hattempt, hQ _ _ _ hP⟩

/-- Fewer things may be kept. -/
theorem keep {kept' : List ι} (h : Simulates kept' things c' c Q) (hkept : kept <+: kept') :
    Simulates kept things c' c Q := by
  refine .intro (fun hc => h.of_ok hc) fun hc => ?_
  obtain ⟨later, hattempt, hlater⟩ := h.of_error hc
  exact ⟨later, hattempt, hkept.trans hlater⟩

/-- It only matters what the second computation does. -/
theorem congr {d : ExceptT Failure m β} (h : Simulates kept things c' c Q)
    (hd : ∀ w, attempt d w = attempt c w) : Simulates kept things c' d Q := by
  intro w
  rw [hd]
  exact h w

theorem pure {b' : γ} {b : β} (h : Q things b' b) :
    Simulates (m := m) kept things (pure b') (pure b) Q := by
  intro w
  rw [attempt_pure]
  exact ⟨things, b', attempt_pure _ _, h⟩

theorem throw (hkept : kept <+: things) (e : Failure) :
    Simulates kept things (throw e : Placing ι m γ) (throw e : ExceptT Failure m β) Q := by
  intro w
  rw [attempt_throw]
  exact ⟨things, attempt_throw _ _, hkept⟩

theorem bind (hc : Simulates kept things c' c Q)
    (hf : ∀ later b' b, Q later b' b → Simulates kept later (f' b') (f b) S) :
    Simulates kept things (c' >>= f') (c >>= f) S := by
  intro w
  rcases hattempt : attempt c w with ⟨e | b, v⟩
  · obtain ⟨later, hattempt', hlater⟩ := hc.of_error hattempt
    rw [attempt_bind_of_error hattempt]
    exact ⟨later, attempt_bind_of_error hattempt' f', hlater⟩
  · obtain ⟨later, b', hattempt', hQ⟩ := hc.of_ok hattempt
    rw [attempt_bind_of_ok hattempt, attempt_bind_of_ok hattempt']
    exact hf later b' b hQ v

/-- The first computation may answer something else in the end. -/
theorem bind_pure {b' : ε} {T : List ι → ε → β → Prop} (h : Simulates kept things c' c Q)
    (hT : ∀ later b₀ b, Q later b₀ b → T later b' b) :
    Simulates kept things (c' >>= fun _ => Pure.pure b') c T := by
  refine .intro (fun hc => ?_) fun hc => ?_
  · obtain ⟨later, b₀, hattempt, hQ⟩ := h.of_ok hc
    exact ⟨later, b', (attempt_bind_of_ok hattempt _).trans (attempt_pure _ _), hT _ _ _ hQ⟩
  · obtain ⟨later, hattempt, hlater⟩ := h.of_error hc
    exact ⟨later, attempt_bind_of_error hattempt _, hlater⟩

/-! ### Parts that use no places -/

/-- What goes on after a result that is known only goes on if it is a success. -/
theorem bind_lift {x : Except Failure β} {f' : β → Placing ι m ε} (hkept : kept <+: things)
    (hf : ∀ b, x = .ok b → Simulates kept things (f' b) (f b) S) :
    Simulates kept things (liftM x >>= f') (liftM x >>= f) S := by
  intro w
  rcases x with e | b
  · rw [attempt_bind_of_error (attempt_lift _ _)]
    exact ⟨things, attempt_bind_of_error (attempt_lift _ _) _, hkept⟩
  · rw [attempt_bind_of_ok (attempt_lift _ _), attempt_bind_of_ok (attempt_lift _ _)]
    exact hf b rfl w

/-- What is known step by step is used step by step. -/
theorem lift_bind {x : Except Failure τ} {g : τ → Except Failure β}
    (h : Simulates kept things c' (liftM x >>= fun t => liftM (g t) : ExceptT Failure m β) Q) :
    Simulates kept things c' (liftM (x >>= g) : ExceptT Failure m β) Q :=
  h.congr (attempt_lift_bind x g)

/-- A success is passed on. -/
theorem ok_bind {x : Except Failure τ} {b : τ} {g : τ → Placing ι m γ} (hx : x = .ok b)
    (hf : Simulates kept things (g b) c Q) : Simulates kept things (liftM x >>= g) c Q := by
  subst hx
  intro w
  rw [attempt_bind_of_ok (attempt_lift _ _)]
  exact hf w

theorem beside (hkept : kept <+: things) (c : ExceptT Failure m β) :
    Simulates kept things (beside c) c fun later b' b => later = things ∧ b' = b := by
  have hbeside (w : ω) : attempt (Placing.beside c) (things, w) = _ := attempt_beside c (things, w)
  refine .intro (fun {w b v} hc => ?_) fun {w e v} hc => ?_
  · exact ⟨things, b, by rw [hbeside, hc], rfl, rfl⟩
  · exact ⟨things, by rw [hbeside, hc], hkept⟩

theorem beside_bind {c : ExceptT Failure m β} {f' : β → Placing ι m ε} (hkept : kept <+: things)
    (hf : ∀ b, Simulates kept things (f' b) (f b) S) :
    Simulates kept things (Placing.beside c >>= f') (c >>= f) S := by
  refine .bind (.beside hkept c) ?_
  rintro later b' b ⟨rfl, rfl⟩
  exact hf b'

/-- A part of a computation with a state. -/
theorem nested (h : Simulates kept things c' c Q) :
    Simulates (m := StateT σ m) kept things (nested c') (ExceptT.mk (StateT.lift c.run)) Q := by
  refine .intro (fun {w b v} hc => ?_) fun {w e v} hc => ?_
  · obtain ⟨hb, hv⟩ := attempt_beside_eq_ok.mp hc
    obtain ⟨later, b', hattempt, hQ⟩ := h.of_ok hb
    refine ⟨later, b', ?_, hQ⟩
    rw [attempt_nested, hattempt]
    exact congrArg (fun s => (_, later, s, v.2)) hv
  · rw [attempt_beside] at hc
    obtain ⟨he, rfl⟩ := Prod.mk.inj hc
    obtain ⟨later, hattempt, hlater⟩ := h.of_error (Prod.ext he rfl : attempt c w.2 = (.error e, _))
    refine ⟨later, ?_, hlater⟩
    rw [attempt_nested, hattempt]

/-- Rounds that keep a condition on the things and the states. -/
theorem rounds {J : List ι → τ → σ → Prop} {round' : Nat → τ → Placing ι m (τ × Bool)}
    {round : Nat → σ → ExceptT Failure m (σ × Bool)}
    (h : ∀ {things p st} number, J things p st →
      Simulates kept things (round' number p) (round number st)
        fun later r' r => J later r'.1 r.1 ∧ r'.2 = r.2)
    (left : Nat) : ∀ {things p st}, J things p st → ∀ made,
      Simulates kept things (Constrained.rounds round' left made p) (Constrained.rounds round left made st)
        fun later r' r => r'.1 = r.1 ∧ J later r'.2 r.2 := by
  induction left with
  | zero => exact fun hJ made => .pure ⟨rfl, hJ⟩
  | succ left ih =>
    intro things p st hJ made
    refine .bind (h (made + 1) hJ) ?_
    rintro later ⟨p', done'⟩ ⟨st', done⟩ ⟨hJ', hdone⟩
    obtain rfl : done' = done := hdone
    cases done' with
    | true => exact .pure ⟨rfl, hJ'⟩
    | false => exact ih hJ' (made + 1)

/-! ### Parts that use places -/

theorem put_bind {g : Nat → Placing ι m γ}
    (hf : Simulates kept (things ++ [t]) (g things.length) c Q) :
    Simulates kept things (put t >>= g) c Q := by
  intro w
  rw [attempt_bind_of_ok (attempt_put t _)]
  exact hf w

/-- The place of a new thing is the answer. -/
theorem put_lift {Q : List ι → Nat → β → Prop} {b : β} (h : Q (things ++ [t]) things.length b) :
    Simulates kept things (put t) (liftM (.ok b : Except Failure β) : ExceptT Failure m β) Q := by
  intro w
  rw [attempt_lift]
  exact ⟨_, _, attempt_put t _, h⟩

variable [Inhabited ι]

/-- What is in a place can be used. -/
theorem look_bind {g : ι → Placing ι m γ} (h : things[place]? = some t)
    (hf : Simulates kept things (g t) c Q) : Simulates kept things (look place >>= g) c Q := by
  intro w
  rw [attempt_bind_of_ok (attempt_look place _), h]
  exact hf w

/-- A copy is one more thing that is there. -/
theorem copy_bind {g : Nat → Placing ι m γ} (h : things[place]? = some t)
    (hf : Simulates kept (things ++ [t]) (g things.length) c Q) :
    Simulates kept things (copy place >>= g) c Q := by
  intro w
  rw [attempt_bind_of_ok (attempt_copy place _), h]
  exact hf w

/-- And so is a copy that has been changed. -/
theorem copyWith_bind {g : Nat → Placing ι m γ} {change : ι → ι} (h : things[place]? = some t)
    (hf : Simulates kept (things ++ [change t]) (g things.length) c Q) :
    Simulates kept things (copyWith place change >>= g) c Q := by
  intro w
  rw [attempt_bind_of_ok (attempt_copyWith place change _), h]
  exact hf w

/-- What is put in a place is what the other computation goes on with. -/
theorem rework (hkept : kept <+: things) (h : things[place]? = some t) (change : ι → Except Failure ι) :
    Simulates kept things (rework place change) (liftM (change t) : ExceptT Failure m ι)
      fun later _ t' => later = things.modify place fun _ => t' := by
  intro w
  have hattempt := attempt_rework (m := m) (w := (things, w)) h change
  rw [attempt_lift]
  rcases hchange : change t with e | t'
  all_goals rw [hchange] at hattempt
  · exact ⟨things, hattempt, hkept⟩
  · exact ⟨_, (), hattempt, rfl⟩

theorem rework_bind {g : Unit → Placing ι m γ} {f : ι → ExceptT Failure m β}
    {change : ι → Except Failure ι} (hkept : kept <+: things) (h : things[place]? = some t)
    (hf : ∀ t', Simulates kept (things.modify place fun _ => t') (g ()) (f t') Q) :
    Simulates kept things (Placing.rework place change >>= g) (liftM (change t) >>= f) Q := by
  refine .bind (.rework hkept h change) ?_
  rintro later _ t' rfl
  exact hf t'

end Simulates

end Minimization
