import Minimization.Descent.History
import Minimization.Function.Answer

/-!
# Runs of a descent

A `Run` is what a descent leaves behind besides the point it returns: its report, its history if one is
kept, and its notices. A run that fails keeps all of it as it was at that moment. A solver that runs
again keeps its report until the new run overwrites it.
-/

namespace Minimization

/-- Why a descent ended. -/
inductive StopReason where
  | maxIterations
  | smallStep
  deriving DecidableEq, Repr

/-- What a solver reports about its last run. -/
structure Report (α : Type) where
  loss : α
  stepSize : α
  iterations : Nat

/-- What solvers tell while they run. -/
inductive Notice (α : Type) where
  /-- Line searches that ended at the greatest number of shrinks. -/
  | exhaustedSearches (maxShrinks : Int) (searches iterations : Nat)
  /-- A gradient descent ended. -/
  | descentEnded (solver : String) (reason : StopReason) (iterations : Nat) (loss : α)
  /-- A moment descent ended. -/
  | momentsEnded (iterations : Nat) (stepSize loss : α)
  /-- A round of the method of multipliers. -/
  | multiplierRound (round : Nat) (loss violation weight : α)
  /-- The method of multipliers ended early. -/
  | multipliersSettled (rounds : Nat) (moved violation tolerance : α)
  /-- A round of the barrier method. -/
  | barrierRound (round : Nat) (loss weight : α)
  /-- The barrier method ended early. -/
  | barrierSettled (rounds : Nat) (moved tolerance : α)
  /-- A point of the barrier method, the start or that of a round, violates a constraint. -/
  | infeasible (round : Option Nat) (largest : α)

/-- What a descent leaves behind. -/
structure Run (α : Type) where
  report : Report α
  history : Option (History α)
  notices : List (Notice α)

/-- A descent: it can fail, and what it did until then stays in its run. -/
abbrev Descent (m : Type → Type) (α β : Type) := ExceptT Failure (StateT (Run α) m) β

namespace Descent

variable {m : Type → Type} [Monad m] {α β : Type}

/-- An evaluation as a part of a descent. -/
def evaluate (e : Evaluation m β) : Descent m α β := ExceptT.mk (StateT.lift e.run)

/-- Changes the history, if one is kept. -/
def record (f : History α → History α) : Descent m α Unit :=
  ExceptT.mk (do modify fun r => { r with history := r.history.map f }; return .ok ())

/-- Changes the report. -/
def reporting (f : Report α → Report α) : Descent m α Unit :=
  ExceptT.mk (do modify fun r => { r with report := f r.report }; return .ok ())

/-- Tells something. -/
def notify (n : Notice α) : Descent m α Unit :=
  ExceptT.mk (do modify fun r => { r with notices := r.notices ++ [n] }; return .ok ())

end Descent

/-- A gradient has to have as many entries as the point it belongs to. -/
def checkGradient {α : Type} (gradient x : Tensor α) : Except Failure Unit :=
  if gradient.size ≠ x.size then .error (.size (.gradient gradient.size x.size)) else .ok ()

end Minimization
