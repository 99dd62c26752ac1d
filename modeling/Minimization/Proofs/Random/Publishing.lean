import Minimization.Proofs.Outcome
import Minimization.Proofs.Random.Delivery
import Minimization.Random.Station

/-!
# What publishing leaves behind

A generator `Yields` numbers one after the other. A cell holds a value that is stored in it, whatever its
listeners do, unless they store another one (`Behaviour.StoresNothing`); if they only listen, every
listener is told of it once (`Cell.told`). So a station that publishes the numbers its generator yields
is `Left` with the generator after them, and with a cell that holds the last one; in it every listener
has heard exactly these numbers, in order, if all of them only listen.
-/

namespace Minimization

/-! ## Cells -/

variable {β : Type}

namespace Cell

/-- A cell that holds a value and has told all its listeners. -/
def told (c : Cell β) (v : β) : Cell β :=
  { c with value := v, events := c.events ++ c.listeners.map fun l => ⟨l, c.value, v⟩ }

/-- A cell after some values. -/
def toldAll (c : Cell β) (vs : List β) : Cell β := vs.foldl told c

/-- The listeners of a cell do nothing when they are told of a change. -/
def OnlyListening (c : Cell β) (b : Behaviour β) : Prop :=
  ∀ l ∈ c.listeners, ∀ times previous current, b l times previous current = []

/-- The values that a listener was told of, in order. -/
def heard (c : Cell β) (listener : String) : List β :=
  (c.events.filter fun e => e.listener == listener).map Event.current

@[simp] theorem listeners_toldAll (c : Cell β) (vs : List β) :
    (c.toldAll vs).listeners = c.listeners := by
  induction vs generalizing c with
  | nil => rfl
  | cons v vs ih => exact ih (c.told v)

/-- Storing a value tells all listeners. -/
theorem perform_set {b : Behaviour β} {c : Cell β} (h : c.OnlyListening b) (v : β) :
    perform (set b v) c = (.ok (), c.told v) := by
  have hquiet : ∀ r ∈ c.reactions b c.value v c.listeners, r.commands = [] := by
    intro r hr
    obtain ⟨i, hi, rfl⟩ := List.mem_mapIdx.mp hr
    exact h _ (List.getElem_mem hi) _ _ _
  have hset := notifies_set (b := b) (c := c) (v := v) fun l hl times v' => by
    rw [h l hl]
    exact List.not_mem_nil
  generalize perform (set b v) c = r at hset ⊢
  obtain ⟨o, c'⟩ := r
  cases hset with
  | whole =>
    rw [map_listener_reactions, List.flatMap_eq_nil_iff.mpr hquiet]
    rfl
  | @cut earlier r later obeyed message ignored heq _ hr =>
    -- A listener that does nothing does not fail.
    rw [hquiet r (by rw [heq]; exact List.mem_append_right _ (List.mem_cons_self ..))] at hr
    exact absurd hr (by simp)

theorem heard_told (c : Cell β) (v : β) (listener : String) :
    (c.told v).heard listener
      = c.heard listener ++ List.replicate (c.listeners.count listener) v := by
  show ((notified { c with value := v } c.value v c.listeners []).eventsOf listener).map Event.current = _
  rw [eventsOf_notified, List.map_append, List.map_replicate]
  rfl

/-- A listener hears every value as often as it is registered. -/
theorem heard_toldAll (c : Cell β) (vs : List β) (listener : String) :
    (c.toldAll vs).heard listener
      = c.heard listener ++ vs.flatMap fun v => List.replicate (c.listeners.count listener) v := by
  induction vs generalizing c with
  | nil => exact (List.append_nil _).symm
  | cons v vs ih =>
    rw [toldAll, List.foldl_cons, ← toldAll, ih, heard_told, List.flatMap_cons, List.append_assoc]
    rfl

end Cell

/-! ## Generators -/

namespace Random

/-- The generator yields numbers one after the other, and is another generator then. -/
inductive Generator.Yields : Generator → List Int → Generator → Prop
  | none {g} : Yields g [] g
  | cons {g g' g'' n ns} : g.integer = .ok (n, g') → Yields g' ns g'' → Yields g (n :: ns) g''

theorem Generator.Yields.append {g g' g'' : Generator} {ns ks : List Int} (h : g.Yields ns g')
    (h' : g'.Yields ks g'') : g.Yields (ns ++ ks) g'' := by
  induction h with
  | none => exact h'
  | cons hn _ ih => exact .cons hn (ih h')

/-! ## Stations -/

namespace Station

/-- The station has published the numbers that its generator yields. Its cell holds the last of them,
and if its listeners only listen, all of them were told. -/
structure Left (s : Station) (b : Behaviour Value) (ns : List Int) (s' : Station) : Prop where
  drawn : s.generator.Yields ns s'.generator
  value_eq : s'.cell.value = ns.foldl (fun _ n => .int n) s.cell.value
  cell_eq : s.cell.OnlyListening b → s'.cell = s.cell.toldAll (ns.map .int)

section Left

variable {b : Behaviour Value} {s s' s'' : Station} {ns ks : List Int}

theorem Left.none (s : Station) : s.Left b [] s := ⟨.none, rfl, fun _ => rfl⟩

theorem Left.onlyListening (h : s.Left b ns s') (hb : s.cell.OnlyListening b) :
    s'.cell.OnlyListening b := by
  rw [Cell.OnlyListening, h.cell_eq hb, Cell.listeners_toldAll]
  exact hb

theorem Left.append (h : s.Left b ns s') (h' : s'.Left b ks s'') : s.Left b (ns ++ ks) s'' where
  drawn := h.drawn.append h'.drawn
  value_eq := by rw [h'.value_eq, h.value_eq, List.foldl_append]
  cell_eq hb := by
    rw [h'.cell_eq (h.onlyListening hb), h.cell_eq hb, List.map_append, Cell.toldAll, Cell.toldAll,
      Cell.toldAll, List.foldl_append]

/-- The cell holds the number that was published last. -/
theorem Left.last_eq {n : Int} (h : s.Left b (ns ++ [n]) s') : s'.cell.value = .int n := by
  rw [h.value_eq, List.foldl_append]
  rfl

end Left

section Attempt

variable {m : Type → Type} [Monad m] {ω : Type} [Stateful m ω] {w : Station × ω}

/-- Storing a value changes the cell, and nothing else. -/
theorem attempt_store (b : Behaviour Value) (v : Value) (w : Station × ω) :
    attempt (store b v : ExceptT Failure (StateT Station m) Unit) w
      = ((perform (Cell.set b v) w.1.cell).1,
          { w.1 with cell := (perform (Cell.set b v) w.1.cell).2 }, w.2) := by
  have h : Stateful.run ((pure (w.1, w.1) : m (Station × Station)) >>= fun p =>
      (pure (PUnit.unit, { p.1 with cell := (perform (Cell.set b v) p.1.cell).2 }) :
        m (PUnit × Station)) >>= fun q => pure ((perform (Cell.set b v) p.1.cell).1, q.2)) w.2
        = (((perform (Cell.set b v) w.1.cell).1,
            { w.1 with cell := (perform (Cell.set b v) w.1.cell).2 }), w.2) := by
    rw [Stateful.run_bind, Stateful.run_pure, Stateful.run_bind, Stateful.run_pure,
      Stateful.run_pure]
  exact attempt_of_run h

/-- Drawing changes the generator, and nothing else. -/
theorem attempt_draw (w : Station × ω) :
    attempt (draw : ExceptT Failure (StateT Station m) Int) w =
      match w.1.generator.integer with
      | .error e => (.error e, w)
      | .ok (n, g) => (.ok n, { w.1 with generator := g }, w.2) := by
  unfold draw
  rw [attempt_bind_of_ok (attempt_getThe w)]
  rcases w.1.generator.integer with e | ⟨n, g⟩
  · exact attempt_throw e w
  · exact (attempt_bind_of_ok (attempt_set _ w) _).trans (attempt_pure _ _)

/-- Publishing draws a number and stores it, if there is one. -/
theorem attempt_publish (b : Behaviour Value) (w : Station × ω) :
    attempt (discard (publish b) : Evaluation (StateT Station m) Unit) w =
      match w.1.generator.integer with
      | .error e => (.error e, w)
      | .ok (n, g) => ((perform (Cell.set b (.int n)) w.1.cell).1,
          ⟨g, (perform (Cell.set b (.int n)) w.1.cell).2⟩, w.2) := by
  rw [attempt_discard, publish, attempt_bind, attempt_draw]
  rcases w.1.generator.integer with e | ⟨n, g⟩
  · rfl
  dsimp only
  rw [attempt_bind, attempt_store]
  dsimp only
  rcases perform (Cell.set b (.int n)) w.1.cell with ⟨e | _, c⟩
  · rfl
  · dsimp only
    rw [attempt_pure]
    rfl

/-- A number that is drawn is published, and publishing fails only because of a listener then. -/
theorem left_publish {b : Behaviour Value} (hb : b.StoresNothing) {n : Int} {g : Generator}
    (h : w.1.generator.integer = .ok (n, g)) :
    let o := attempt (discard (publish b) : Evaluation (StateT Station m) Unit) w
    w.1.Left b [n] o.2.1 ∧ o.2.2 = w.2 ∧ (w.1.cell.OnlyListening b → o.1 = .ok ()) := by
  rw [attempt_publish, h]
  refine ⟨⟨.cons h .none, Cell.value_set hb _ _, fun hlistening => ?_⟩, rfl, fun hlistening => ?_⟩
  · exact congrArg Prod.snd (Cell.perform_set hlistening (.int n))
  · exact congrArg Prod.fst (Cell.perform_set hlistening (.int n))

/-- Publishing that succeeds leaves the number in the cell. -/
theorem published_of_attempt {b : Behaviour Value} (hb : b.StoresNothing) {w' : Station × ω}
    (h : attempt (discard (publish b) : Evaluation (StateT Station m) Unit) w = (.ok (), w')) :
    ∃ n, attempt (publish b : ExceptT Failure (StateT Station m) Int) w = (.ok n, w') ∧
      w'.1.cell.value = .int n := by
  rw [attempt_discard] at h
  rcases hpublish : attempt (publish b : ExceptT Failure (StateT Station m) Int) w with ⟨e | n, w₁⟩
  · rw [hpublish] at h
    cases h
  rw [hpublish] at h
  obtain rfl : w₁ = w' := congrArg Prod.snd h
  refine ⟨n, rfl, ?_⟩
  unfold publish at hpublish
  obtain ⟨n', w₂, -, hpublish⟩ := attempt_bind_eq_ok.mp hpublish
  obtain ⟨_, w₃, hstore, hpublish⟩ := attempt_bind_eq_ok.mp hpublish
  obtain ⟨rfl, rfl⟩ := attempt_pure_eq_ok.mp hpublish
  rw [attempt_store] at hstore
  obtain ⟨-, rfl⟩ := Prod.mk.inj hstore
  exact Cell.value_set hb _ _

end Attempt

/-- A station that never runs out of numbers, with listeners that only listen. -/
structure IsReady (b : Behaviour Value) (s : Station) : Prop where
  endless : ∃ g, s.generator = .congruential g
  listening : s.cell.OnlyListening b

/-- A station that is ready publishes, and is ready again. -/
theorem succeeds_publish {m : Type → Type} [Monad m] {ω : Type} [Stateful m ω] (b : Behaviour Value) :
    Succeeds (fun w : Station × ω => w.1.IsReady b)
      (discard (publish b) : Evaluation (StateT Station m) Unit) fun _ => True := by
  rintro ⟨⟨generator, cell⟩, u⟩ ⟨⟨g, rfl⟩, hlistening⟩
  have hpublish : attempt (discard (publish b) : Evaluation (StateT Station m) Unit)
      (⟨.congruential g, cell⟩, u)
        = (.ok (), ⟨.congruential (g.upTo (Generator.publishedBound - 1)).2,
            cell.told (.int (g.upTo (Generator.publishedBound - 1)).1)⟩, u) := by
    rw [attempt_publish, Generator.integer]
    dsimp only
    rw [Cell.perform_set hlistening]
  exact .of_ok hpublish ⟨trivial, ⟨_, rfl⟩, hlistening⟩

end Station

end Random

end Minimization
