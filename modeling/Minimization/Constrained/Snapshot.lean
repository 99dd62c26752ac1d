import Minimization.Problem.Basic
import Minimization.Descent.Run
import Minimization.Tensor.Reduction

/-!
# Runs of a constrained solver

A `Snapshot` shows a constrained solver between two inner descents. A `Course` is what such a solver
leaves behind besides the point it returns: its report, the snapshots and the inner histories if they
are kept, and its notices.

The solvers share how they go on: `Constrained.descend` makes an inner descent, `Constrained.settle` ends
a round, and `Constrained.rounds` is the loop around it.
-/

namespace Minimization

/-- The state of a constrained solver between two inner descents. -/
structure Snapshot (α : Type) where
  point : Tensor α
  objective : α
  constraints : Tensor α
  multipliers : Tensor α
  loss : α
  weight : α

/-- The largest constraint value of a snapshot where it is positive. -/
def Snapshot.violation {α : Type} [Scalar α] (s : Snapshot α) : α :=
  Problem.violationOf s.constraints.entries

/-- What a constrained solver reports about its last run. -/
structure ConstrainedReport (α : Type) where
  multipliers : List α
  weight : α
  iterations : Nat

/-- What a constrained solver leaves behind. -/
structure Course (α : Type) where
  report : ConstrainedReport α
  trace : Option (List (Snapshot α))
  histories : Option (List (History α))
  notices : List (Notice α)

/-- The run that an inner descent starts with. It has no report yet, and a history if histories are
kept. -/
def Course.innerRun {α : Type} [Scalar α] (c : Course α) : Run α :=
  ⟨⟨Scalar.zero / Scalar.zero, Scalar.zero / Scalar.zero, 0⟩,
    if c.histories.isSome then some .empty else none, []⟩

/-- A constrained run: it can fail, and what it did until then stays in its course. -/
abbrev Constrained (m : Type → Type) (α β : Type) := ExceptT Failure (StateT (Course α) m) β

/-- When the distance of two rounds ends a run: never, at a number, or it cannot be compared. -/
inductive Tolerance (α : Type) where
  | none
  | upTo (x : α)
  | incomparable

namespace Constrained

variable {m : Type → Type} [Monad m] {α β : Type}

/-- An evaluation as a part of a constrained run. -/
def evaluate (e : Evaluation m β) : Constrained m α β := ExceptT.mk (StateT.lift e.run)

/-- Adds a snapshot to the trace, if one is kept; only then is it taken. -/
def snapshot (take : Evaluation m (Snapshot α)) : Constrained m α Unit := do
  match (← getThe (Course α)).trace with
  | none => pure ()
  | some _ =>
    let s ← evaluate take
    modifyThe (Course α) fun c => { c with trace := c.trace.map (· ++ [s]) }

/-- Tells something. -/
def notify (n : Notice α) : Constrained m α Unit :=
  modifyThe (Course α) fun c => { c with notices := c.notices ++ [n] }

/-- What an inner descent leaves: its notices, and its history if it succeeds and histories are kept at
all. -/
def absorb (r : Except Failure β) (run : Run α) : Constrained m α β := do
  modifyThe (Course α) fun c => { c with notices := c.notices ++ run.notices }
  match r with
  | .error e => throw e
  | .ok b =>
    modifyThe (Course α) fun c =>
      { c with histories := c.histories.map fun hs => hs ++ run.history.toList }
    return b

/-- An inner descent. -/
def descend [Scalar α] (d : Descent m α β) : Constrained m α β := do
  let start := (← getThe (Course α)).innerRun
  let (r, run) ← (ExceptT.lift (StateT.lift (d.run.run start)) : Constrained m α _)
  absorb r run

/-- Sets the report at the end of a run. -/
def conclude (report : ConstrainedReport α) : Constrained m α Unit :=
  modifyThe (Course α) fun c => { c with report }

/-- Whether two numbers are within a tolerance; the second one is only looked at if the first one
is. -/
def within [Scalar α] (t : Tolerance α) (a b : α) : Except Failure (Option α) :=
  match t with
  | .none => .ok none
  | .incomparable => .error .wrongType
  | .upTo x => .ok (if Scalar.le a x && Scalar.le b x then some x else none)

/-- The end of a round that has moved from `x` to `y`, which decides whether it is the last one: how far
it has moved, and what else is asked, has to be within the tolerance. -/
def settle [Scalar α] {σ : Type} (tolerance : Tolerance α) (x y : Tensor α) (asked : α → α)
    (notice : α → α → Notice α) (next : σ) : Constrained m α (σ × Bool) := do
  match tolerance with
  | .none => return (next, false)
  | tolerance =>
    let moved ← y.dist x
    match ← within tolerance moved (asked moved) with
    | none => return (next, false)
    | some t =>
      notify (notice moved t)
      return (next, true)

/-- Rounds from a state until one of them is the last one, each with its number. The first number counts
the rounds that are left, the second those made. -/
def rounds {n : Type → Type} [Monad n] {σ : Type} (round : Nat → σ → ExceptT Failure n (σ × Bool)) :
    Nat → (made : Nat) → σ → ExceptT Failure n (Nat × σ)
  | 0, made, st => return (made, st)
  | left + 1, made, st => do
    let (st, done) ← round (made + 1) st
    if done then return (made + 1, st)
    rounds round left (made + 1) st

end Constrained

/-- An initial guess has to have as many entries as the problem has dimensions. -/
def checkStart {m : Type → Type} {α : Type} (p : Problem m α) (guess : Tensor α) :
    Except Failure Unit :=
  if (Value.int guess.size).agrees p.dimension then .ok ()
  else .error (.size (.start guess.size p.dimension.display))

end Minimization
