import Minimization.Cell
import Minimization.Proofs.Chained
import Minimization.Proofs.Perform

/-!
# What storing a value delivers

Listeners may register and remove listeners while they are told of a change, themselves included, and they
may fail. What each of them does (`Reaction`) is settled when the value is stored: by the registrations at
that time, and by how often a listener was told before. `Cell.Delivers` says what becomes of the cell: the
reactions are gone through in order up to the first one that fails, and what the commands change counts from
the next value on (`Cell.delivers`).

As long as no listener fails, every change starts from the value that the one before it ended with, and a
listener hears it as often as it is registered then (`Cell.chained_after`). Both together are `Cell.delivers`.
-/

namespace Minimization

variable {β : Type}

/-- When they are told of a change, listeners may fail or change who listens, but they store nothing. -/
def Behaviour.StoresNothing (b : Behaviour β) : Prop :=
  ∀ l times previous current v, Command.store v ∉ b l times previous current

theorem Behaviour.StoresNothing.of_listeners {b : Behaviour β} (hb : b.StoresNothing) (c : Cell β)
    (v : β) : ∀ l ∈ c.listeners, ∀ times v', Command.store v' ∉ b l times c.value v :=
  fun l _ times v' => hb l times c.value v v'

/-! ## Commands -/

/-- The listeners that are registered after a command. -/
def Command.registered (listeners : List String) : Command β → List String
  | .register l => listeners ++ [l]
  | .unregister l => listeners.erase l
  | .store _ | .fail _ => listeners

/-- None of the commands fails. -/
def Command.Complete (commands : List (Command β)) : Prop := ∀ message, Command.fail message ∉ commands

theorem Command.Complete.of_cons {command : Command β} {commands : List (Command β)}
    (h : Complete (command :: commands)) : Complete commands :=
  fun message hmem => h message (List.mem_cons_of_mem command hmem)

/-- Commands that do not all succeed split at the first one that fails. -/
theorem Command.complete_or_fails (commands : List (Command β)) :
    Complete commands ∨
      ∃ obeyed message ignored, commands = obeyed ++ .fail message :: ignored ∧ Complete obeyed := by
  induction commands with
  | nil => exact .inl fun _ => List.not_mem_nil
  | cons command commands ih =>
    by_cases hfail : ∃ message, command = .fail message
    · obtain ⟨message, rfl⟩ := hfail
      exact .inr ⟨[], message, commands, rfl, fun _ => List.not_mem_nil⟩
    · have hcons {cs : List (Command β)} (hcs : Complete cs) : Complete (command :: cs) := by
        intro message hmem
        rcases List.mem_cons.mp hmem with heq | hmem
        · exact hfail ⟨message, heq.symm⟩
        · exact hcs message hmem
      rcases ih with hcomplete | ⟨obeyed, message, ignored, rfl, hobeyed⟩
      · exact .inl (hcons hcomplete)
      · exact .inr ⟨command :: obeyed, message, ignored, rfl, hcons hobeyed⟩

/-- What a listener does when it is told of a change. -/
structure Reaction (β : Type) where
  listener : String
  commands : List (Command β)

namespace Cell

/-! ## One value -/

/-- The cell after some listeners were told of a change, and some commands of theirs obeyed. -/
def notified (c : Cell β) (previous current : β) (told : List String) (obeyed : List (Command β)) :
    Cell β where
  value := c.value
  listeners := obeyed.foldl Command.registered c.listeners
  events := c.events ++ told.map fun l => ⟨l, previous, current⟩

/-- What listeners do when they are told of a change one after the other: one reaction for each registration,
in order. How often a listener was told before counts the registrations of it that came earlier. -/
def reactions (b : Behaviour β) (c : Cell β) (previous current : β) (listeners : List String) :
    List (Reaction β) :=
  listeners.mapIdx fun i l => ⟨l, b l (c.timesTold l + (listeners.take i).count l) previous current⟩

/-- What becomes of a cell when listeners are told of a change: either all of them are, or they are told up to
the first one that fails, which is obeyed up to the failure. -/
inductive Notifies (c : Cell β) (previous current : β) (reactions : List (Reaction β)) :
    Except Failure Unit → Cell β → Prop
  | whole (h : ∀ r ∈ reactions, Command.Complete r.commands) :
      Notifies c previous current reactions (.ok ())
        (c.notified previous current (reactions.map Reaction.listener)
          (reactions.flatMap Reaction.commands))
  | cut {earlier r later obeyed message ignored} (h : reactions = earlier ++ r :: later)
      (hearlier : ∀ r ∈ earlier, Command.Complete r.commands)
      (hr : r.commands = obeyed ++ .fail message :: ignored) (hobeyed : Command.Complete obeyed) :
      Notifies c previous current reactions (.error (.raised message))
        (c.notified previous current (earlier.map Reaction.listener ++ [r.listener])
          (earlier.flatMap Reaction.commands ++ obeyed))

section Tell

variable {b : Behaviour β} {store : β → Change β Unit} {obeyed rest : List (Command β)}
  {previous current : β}

theorem notified_notified (c : Cell β) (told told' : List String) (obeyed obeyed' : List (Command β)) :
    (c.notified previous current told obeyed).notified previous current told' obeyed'
      = c.notified previous current (told ++ told') (obeyed ++ obeyed') := by
  unfold notified
  rw [List.foldl_append, List.map_append, List.append_assoc]

/-- How often a listener was told counts what it is told. -/
theorem timesTold_notified (c : Cell β) (told : List String) (l : String) :
    (c.notified previous current told obeyed).timesTold l = c.timesTold l + told.count l := by
  have hcount : ((told.map fun l => (⟨l, previous, current⟩ : Event β)).filter fun e =>
      e.listener == l).length = told.count l := by
    rw [List.filter_map, List.length_map, List.count_eq_length_filter]
    rfl
  rw [timesTold, notified, List.filter_append, List.length_append, hcount, ← timesTold]

/-- After a listener is told, the others react as they would have done together with it. -/
theorem reactions_cons (c : Cell β) (l : String) (obeyed : List (Command β)) (ls : List String) :
    c.reactions b previous current (l :: ls)
      = ⟨l, b l (c.timesTold l) previous current⟩ ::
          (c.notified previous current [l] obeyed).reactions b previous current ls := by
  rw [reactions, reactions, List.mapIdx_cons, List.take_zero, List.count_nil, Nat.add_zero]
  congr 2
  funext i k
  rw [timesTold_notified, List.take_succ_cons, List.count_cons, List.count_singleton, Nat.add_assoc,
    Nat.add_comm (List.count k _)]

theorem map_listener_reactions (b : Behaviour β) (c : Cell β) (ls : List String) :
    (c.reactions b previous current ls).map Reaction.listener = ls := by
  refine List.ext_getElem? fun i => ?_
  rw [reactions, List.getElem?_map, List.getElem?_mapIdx, Option.map_map]
  exact Option.map_id'

/-- The reaction of a listener that does not fail comes before those of the others. -/
theorem Notifies.cons {c c' : Cell β} {r : Reaction β} {rs : List (Reaction β)} {o : Except Failure Unit}
    (hr : Command.Complete r.commands)
    (h : (c.notified previous current [r.listener] r.commands).Notifies previous current rs o c') :
    c.Notifies previous current (r :: rs) o c' := by
  cases h with
  | whole h =>
    rw [notified_notified]
    exact .whole (List.forall_mem_cons.mpr ⟨hr, h⟩)
  | cut h hearlier hlast hobeyed =>
    subst h
    rw [notified_notified, ← List.append_assoc, ← List.append_assoc]
    exact .cut (List.cons_append ..).symm (List.forall_mem_cons.mpr ⟨hr, hearlier⟩) hlast hobeyed

/-- Commands that store nothing and do not fail change the listeners one after the other. -/
theorem perform_obey_append (store : β → Change β Unit) (previous current : β)
    (hstore : ∀ v, Command.store v ∉ obeyed) (h : Command.Complete obeyed) (rest : List (Command β))
    (c : Cell β) :
    perform ((obeyed ++ rest).forM (obey store)) c
      = perform (rest.forM (obey store)) (c.notified previous current [] obeyed) := by
  induction obeyed generalizing c with
  | nil =>
    rw [notified, List.map_nil, List.append_nil]
    rfl
  | cons command obeyed ih =>
    have hfirst : perform (obey store command) c
        = (.ok (), c.notified previous current [] [command]) := by
      rw [notified, List.map_nil, List.append_nil]
      cases command with
      | register l => rfl
      | unregister l => rfl
      | store v => exact absurd (List.mem_cons_self ..) (hstore v)
      | fail message => exact absurd (List.mem_cons_self ..) (h message)
    show perform (obey store command >>= fun _ => (obeyed ++ rest).forM (obey store)) c = _
    rw [perform_bind_of_ok hfirst,
      ih (fun v hmem => hstore v (List.mem_cons_of_mem command hmem)) h.of_cons, notified_notified]
    rfl

/-- A listener whose commands do not fail is told and obeyed. -/
theorem perform_tell {c : Cell β} {l : String}
    (hstore : ∀ v, Command.store v ∉ b l (c.timesTold l) previous current)
    (h : Command.Complete (b l (c.timesTold l) previous current)) :
    perform (tell b store previous current l) c
      = (.ok (), c.notified previous current [l] (b l (c.timesTold l) previous current)) := by
  have hobey := perform_obey_append store previous current hstore h [] (c.notified previous current [l] [])
  rw [List.append_nil, notified_notified] at hobey
  exact hobey

/-- A listener that fails is told, and obeyed up to the failure. -/
theorem perform_tell_fail {c : Cell β} {l message : String} {ignored : List (Command β)}
    (hstore : ∀ v, Command.store v ∉ b l (c.timesTold l) previous current)
    (hl : b l (c.timesTold l) previous current = obeyed ++ .fail message :: ignored)
    (h : Command.Complete obeyed) :
    perform (tell b store previous current l) c
      = (.error (.raised message), c.notified previous current [l] obeyed) := by
  rw [hl] at hstore
  have hobeyed : ∀ v, Command.store v ∉ obeyed := fun v hmem => hstore v (List.mem_append_left _ hmem)
  show perform ((b l (c.timesTold l) previous current).forM (obey store))
    (c.notified previous current [l] []) = _
  rw [hl, perform_obey_append store previous current hobeyed h, notified_notified]
  exact perform_bind_of_error rfl _

/-- Telling listeners one after the other. -/
theorem notifies_forM (store : β → Change β Unit) {ls : List String}
    (hls : ∀ l ∈ ls, ∀ times v, Command.store v ∉ b l times previous current) (c : Cell β) :
    c.Notifies previous current (c.reactions b previous current ls)
      (perform (ls.forM (tell b store previous current)) c).1
      (perform (ls.forM (tell b store previous current)) c).2 := by
  induction ls generalizing c with
  | nil =>
    have hnil : perform (List.forM [] (tell b store previous current)) c
        = (.ok (), c.notified previous current [] []) := by
      rw [notified, List.map_nil, List.append_nil]
      rfl
    rw [hnil]
    exact .whole fun r hr => absurd hr List.not_mem_nil
  | cons l ls ih =>
    show c.Notifies previous current _
      (perform (tell b store previous current l >>= fun _ => ls.forM (tell b store previous current)) c).1
      (perform (tell b store previous current l >>= fun _ => ls.forM (tell b store previous current)) c).2
    have hl := hls l (List.mem_cons_self ..) (c.timesTold l)
    rcases Command.complete_or_fails (b l (c.timesTold l) previous current) with
      hcomplete | ⟨obeyed, message, ignored, hfails, hobeyed⟩
    · rw [perform_bind_of_ok (perform_tell hl hcomplete),
        reactions_cons c l (b l (c.timesTold l) previous current)]
      exact (ih (fun k hk => hls k (List.mem_cons_of_mem l hk)) _).cons hcomplete
    · rw [perform_bind_of_error (perform_tell_fail hl hfails hobeyed), reactions_cons c l obeyed]
      exact .cut (List.nil_append _).symm (fun r hr => absurd hr List.not_mem_nil) hfails hobeyed

/-- Storing a value tells the listeners that are registered then. -/
theorem notifies_set {c : Cell β} {v : β}
    (hc : ∀ l ∈ c.listeners, ∀ times v', Command.store v' ∉ b l times c.value v) :
    Notifies { c with value := v } c.value v (c.reactions b c.value v c.listeners)
      (perform (set b v) c).1 (perform (set b v) c).2 :=
  notifies_forM (setWithin b _) hc { c with value := v }

end Tell

/-! ## Many requests -/

/-- What can be asked of a cell. -/
inductive Request (β : Type) where
  | store (value : β)
  | register (listener : String)
  | unregister (listener : String)

/-- The outcome of a request, and the cell after it. -/
def respond (b : Behaviour β) (c : Cell β) : Request β → Except Failure Unit × Cell β
  | .store v => perform (set b v) c
  | .register l => (.ok (), c.register l)
  | .unregister l => (.ok (), c.unregister l)

/-- The cell after some requests; one that fails leaves what it has changed. -/
def after (b : Behaviour β) (c : Cell β) (requests : List (Request β)) : Cell β :=
  requests.foldl (fun c q => (c.respond b q).2) c

/-- The changes that a listener was told of, in order. -/
def eventsOf (c : Cell β) (listener : String) : List (Event β) :=
  c.events.filter fun e => e.listener == listener

/-- A change leads from one value to another. -/
def IsChange (a : β) (change : β × β) (a' : β) : Prop := change = (a, a')

/-- What a listener hears of some changes if it is told of each of them as often as it is registered. -/
def hearing (listener : String) (registrations : Nat) (changes : List (β × β)) : List (Event β) :=
  changes.flatMap fun change => List.replicate registrations ⟨listener, change.1, change.2⟩

section Requests

variable {b : Behaviour β} {c : Cell β} {requests : List (Request β)} {l : String} {k : Nat}

/-- A listener is told of a change as often as it is among those that are told. -/
theorem eventsOf_notified (c : Cell β) (previous current : β) (told : List String)
    (obeyed : List (Command β)) (l : String) :
    (c.notified previous current told obeyed).eventsOf l
      = c.eventsOf l ++ List.replicate (told.count l) ⟨l, previous, current⟩ := by
  have htold : (told.map fun l => (⟨l, previous, current⟩ : Event β)).filter (fun e => e.listener == l)
      = List.replicate (told.count l) ⟨l, previous, current⟩ := by
    rw [List.filter_map, show (fun e : Event β => e.listener == l) ∘ (fun l => ⟨l, previous, current⟩)
      = (· == l) from rfl, List.filter_beq, List.map_replicate]
  rw [eventsOf, notified, List.filter_append, htold, ← eventsOf]

/-- Storing a value without a failure tells every listener of it, once for each registration. -/
theorem eventsOf_set (hb : b.StoresNothing) {v : β} (h : (perform (set b v) c).1 = .ok ()) (l : String) :
    (perform (set b v) c).2.eventsOf l
      = c.eventsOf l ++ List.replicate (c.listeners.count l) ⟨l, c.value, v⟩ := by
  have hset := notifies_set (hb.of_listeners c v)
  rw [h] at hset
  generalize (perform (set b v) c).2 = c' at hset ⊢
  cases hset with
  | whole =>
    rw [eventsOf_notified, map_listener_reactions]
    rfl

/-- The value that is stored stays, also if a listener fails. -/
theorem value_set (hb : b.StoresNothing) (v : β) (c : Cell β) : (perform (set b v) c).2.value = v := by
  have hset := notifies_set (hb.of_listeners c v)
  generalize perform (set b v) c = r at hset ⊢
  obtain ⟨o, c'⟩ := r
  cases hset with
  | whole => rfl
  | cut => rfl

/-- Without failures the changes are chained, from the value that a cell holds before some requests to the one
that it holds after them, and a listener hears each of them as often as it is registered then. -/
theorem chained_after (hb : b.StoresNothing)
    (hcalm : ∀ earlier q later, requests = earlier ++ q :: later →
      ((c.after b earlier).respond b q).1 = .ok ())
    (hcount : ∀ earlier v later, requests = earlier ++ .store v :: later →
      (c.after b earlier).listeners.count l = k) :
    ∃ changes, (c.after b requests).eventsOf l = c.eventsOf l ++ hearing l k changes ∧
      Chained IsChange c.value changes (c.after b requests).value := by
  -- By induction on the requests, for all cells that they can start with.
  induction requests generalizing c with
  | nil => exact ⟨[], (List.append_nil _).symm, .none⟩
  | cons q requests ih =>
    obtain ⟨changes, hheard, hchained⟩ := ih (c := (c.respond b q).2)
      (fun earlier q' later heq => hcalm (q :: earlier) q' later (by rw [heq]; rfl))
      (fun earlier v later heq => hcount (q :: earlier) v later (by rw [heq]; rfl))
    have hfirst : (c.respond b q).1 = .ok () := hcalm [] q requests rfl
    show ∃ changes, ((c.respond b q).2.after b requests).eventsOf l = _ ∧ _
    cases q with
    | register _ => exact ⟨changes, hheard, hchained⟩
    | unregister _ => exact ⟨changes, hheard, hchained⟩
    | store v =>
      refine ⟨(c.value, v) :: changes, ?_, .cons (b := v) rfl ?_⟩
      · have htold := eventsOf_set hb hfirst l
        rw [show c.listeners.count l = k from hcount [] v requests rfl] at htold
        rw [hheard, respond, htold, hearing, hearing, List.flatMap_cons, List.append_assoc]
      · rw [respond, value_set hb] at hchained
        exact hchained

end Requests

/-- What storing values delivers, for every cell and every request. -/
structure Delivers (b : Behaviour β) : Prop where
  /-- The value is stored, and the listeners that are registered then are told of it, once for each registration
  and in order, up to the first one that fails. What they register and remove counts afterwards. -/
  stored : ∀ (c : Cell β) (v : β),
    ((c.reactions b c.value v c.listeners).map Reaction.listener = c.listeners) ∧
    Notifies { c with value := v } c.value v (c.reactions b c.value v c.listeners)
      (c.respond b (.store v)).1 (c.respond b (.store v)).2 ∧
    (c.respond b (.store v)).2.value = v
  /-- Only the first registration is removed. -/
  removed : ∀ (c : Cell β) (l : String) (before after : List String), c.listeners = before ++ l :: after →
    l ∉ before → c.unregister l = { c with listeners := before ++ after }
  /-- Nothing is removed for a listener that is not registered. -/
  absent : ∀ (c : Cell β) (l : String), l ∉ c.listeners → c.unregister l = c
  /-- As long as nothing fails, a listener with the same number of registrations whenever a value is stored hears
  every change so many times, and the changes are chained up to the value that the cell holds in the end. -/
  chained : ∀ (c : Cell β) (requests : List (Request β)) (l : String) (k : Nat),
    (∀ earlier q later, requests = earlier ++ q :: later → ((c.after b earlier).respond b q).1 = .ok ()) →
    (∀ earlier v later, requests = earlier ++ .store v :: later →
      (c.after b earlier).listeners.count l = k) →
    ∃ changes, (c.after b requests).eventsOf l = c.eventsOf l ++ hearing l k changes ∧
      Chained IsChange c.value changes (c.after b requests).value

/-- Listeners that store nothing may do all else: register and remove listeners, and fail. -/
theorem delivers {b : Behaviour β} (hb : b.StoresNothing) : Delivers b where
  stored c v := ⟨map_listener_reactions b c c.listeners, notifies_set (hb.of_listeners c v), value_set hb v c⟩
  removed c l before after hc hl := by
    rw [unregister, hc, List.erase_append_right _ hl, List.erase_cons_head]
  absent c l hl := by
    rw [unregister, List.erase_of_not_mem hl]
  chained _ _ _ _ hcalm hcount := chained_after hb hcalm hcount

/-- One listener moves itself to the end whenever it is told, and registers another one, which fails when it is
told a second time. -/
def restless : Behaviour Nat := fun l times _ _ =>
  match l, times with
  | "mover", _ => [.unregister "mover", .register "mover", .register "failing"]
  | "failing", 1 => [.fail "again"]
  | _, _ => []

/-- The mover hears a chain, although it and others come and go. -/
theorem delivers_restless :
    let c := (holding 1).register "mover"
    let requests : List (Request Nat) := [.store 2, .store 3]
    (restless.StoresNothing ∧
      (∀ earlier q later, requests = earlier ++ q :: later →
        ((c.after restless earlier).respond restless q).1 = .ok ()) ∧
      ∀ earlier v later, requests = earlier ++ .store v :: later →
        (c.after restless earlier).listeners.count "mover" = 1) ∧
    Delivers restless ∧
    ∃ changes, (c.after restless requests).eventsOf "mover"
        = c.eventsOf "mover" ++ hearing "mover" 1 changes ∧
      Chained IsChange c.value changes (c.after restless requests).value := by
  intro c requests
  have hnothing : restless.StoresNothing := by
    intro l times previous current v hmem
    unfold restless at hmem
    split at hmem <;> simp at hmem
  have hcalm : ∀ earlier q later, requests = earlier ++ q :: later →
      ((c.after restless earlier).respond restless q).1 = .ok () := by
    intro earlier q later heq
    replace heq : [Request.store 2, .store 3] = earlier ++ q :: later := heq
    rcases earlier with _ | ⟨_, _ | ⟨_, earlier⟩⟩
    · cases heq
      rfl
    · cases heq
      rfl
    · simp at heq
  have hcount : ∀ earlier v later, requests = earlier ++ .store v :: later →
      (c.after restless earlier).listeners.count "mover" = 1 := by
    intro earlier v later heq
    replace heq : [Request.store 2, .store 3] = earlier ++ .store v :: later := heq
    rcases earlier with _ | ⟨_, _ | ⟨_, earlier⟩⟩
    · rfl
    · cases heq
      rfl
    · simp at heq
  exact ⟨⟨hnothing, hcalm, hcount⟩, delivers hnothing,
    (delivers hnothing).chained c requests "mover" 1 hcalm hcount⟩

/-- A listener that is registered twice hears every change twice in a row, which is no chain. -/
theorem registered_twice_unchained :
    let c := ((holding 1).register "twice").register "twice"
    let r := c.respond (fun _ _ _ _ => []) (.store 2)
    r.1 = .ok () ∧ "twice" ∈ c.listeners ∧
      ¬Chained IsChange c.value ((r.2.eventsOf "twice").map fun e => (e.previous, e.current)) r.2.value := by
  intro c r
  refine ⟨rfl, List.mem_cons_self .., fun h => ?_⟩
  -- The second change would have to start from 2, but is the first one again.
  obtain ⟨_, a, _, hfirst, hsecond⟩ := h.consecutive (k := 0) rfl rfl
  have hend : 2 = a := congrArg Prod.snd hfirst
  have hstart : 1 = a := congrArg Prod.fst hsecond
  exact absurd (hstart.trans hend.symm) (by decide)

end Cell

end Minimization
