import Minimization.Value.Printer

/-!
# A cell with listeners

A `Cell` holds a value and the names of its listeners, in the order in which they were registered; a
name can be registered more than once. `Cell.set` stores a value and then tells every listener that was
registered when it began, in order. What a listener does is a list of commands, which may depend on how
often it was told before and on the values. A command that fails ends the whole delivery; the value
stays stored.
-/

namespace Minimization

variable {β : Type}

/-- What a listener can do when it is told of a change. -/
inductive Command (β : Type) where
  | register (listener : String)
  | unregister (listener : String)
  | store (value : β)
  | fail (message : String)

/-- The commands of every listener, when it is told of a change: by how often it was told before, the
previous value and the current one. -/
abbrev Behaviour (β : Type) := String → Nat → β → β → List (Command β)

/-- A change that a listener was told of. -/
structure Event (β : Type) where
  listener : String
  previous : β
  current : β

/-- A value, its listeners, and what they were told, in order. -/
structure Cell (β : Type) where
  value : β
  listeners : List String
  events : List (Event β)

namespace Cell

/-- The cell with a value and no listeners. -/
def holding (value : β) : Cell β := ⟨value, [], []⟩

/-- Registers a listener. -/
def register (c : Cell β) (listener : String) : Cell β :=
  { c with listeners := c.listeners ++ [listener] }

/-- Removes the first registration of a listener, if there is one. -/
def unregister (c : Cell β) (listener : String) : Cell β :=
  { c with listeners := c.listeners.erase listener }

/-- How often a listener was told of a change. -/
def timesTold (c : Cell β) (listener : String) : Nat :=
  (c.events.filter fun e => e.listener == listener).length

/-- A change of a cell that may fail; what was changed before stays changed. -/
abbrev Change (β γ : Type) := ExceptT Failure (StateM (Cell β)) γ

/-- Carries out a command; values are stored by `store`. -/
def obey (store : β → Change β Unit) : Command β → Change β Unit
  | .register listener => modify (·.register listener)
  | .unregister listener => modify (·.unregister listener)
  | .store value => store value
  | .fail message => throw (.raised message)

/-- Tells a listener of a change, and carries out its commands. -/
def tell (b : Behaviour β) (store : β → Change β Unit) (previous current : β) (listener : String) :
    Change β Unit := do
  let times := (← get).timesTold listener
  modify fun c => { c with events := c.events ++ [⟨listener, previous, current⟩] }
  (b listener times previous current).forM (obey store)

/-- Stores a value and tells the listeners. Listeners may store values in turn, to a certain depth. -/
def setWithin (b : Behaviour β) : Nat → β → Change β Unit
  | 0, _ => throw .exhausted
  | depth + 1, value => do
    let c ← get
    set { c with value }
    c.listeners.forM (tell b (setWithin b depth) c.value value)

/-- How deep listeners can store values from within a delivery. -/
def greatestDepth : Nat := 900

/-- Stores a value and tells the listeners. -/
def set (b : Behaviour β) (value : β) : Change β Unit := setWithin b greatestDepth value

/-- A cell of configuration values on one line. -/
def render (c : Cell Value) : String := s!"Ref({c.value.render})"

end Cell

end Minimization
