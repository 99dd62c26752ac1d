import Minimization.Descent.Run
import Minimization.Log.Registry

/-!
# Notices in words

Every notice of a solver goes to the logger of that solver, at a level, with these words.
-/

namespace Minimization.Log

/-- The loggers of the solvers and of the configuration. -/
def loggerNames : List String :=
  ["descent.optim.gradient_descent", "descent.optim.adam", "descent.optim.augmented_lagrangian",
   "descent.optim.log_barrier", "descent.experiments.config"]

end Minimization.Log

namespace Minimization

open Log

/-- The words for the reason of an ending. -/
def StopReason.words : StopReason → String
  | .maxIterations => "max iterations"
  | .smallStep => "step size below threshold"

namespace Notice

/-- The logger that a notice goes to. -/
def loggerName : Notice Float → String
  | exhaustedSearches .. => "descent.optim.gradient_descent"
  | descentEnded .. => "descent.optim.gradient_descent"
  | momentsEnded .. => "descent.optim.adam"
  | multiplierRound .. => "descent.optim.augmented_lagrangian"
  | multipliersSettled .. => "descent.optim.augmented_lagrangian"
  | barrierRound .. => "descent.optim.log_barrier"
  | barrierSettled .. => "descent.optim.log_barrier"
  | infeasible .. => "descent.optim.log_barrier"

/-- The level of a notice. -/
def level : Notice Float → Level
  | multipliersSettled .. => Level.info
  | barrierSettled .. => Level.info
  | infeasible .. => Level.warning
  | _ => Level.debug

/-- A float with three significant digits. -/
def short (x : Float) : String := Decimal.general 3 x

/-- A float with six significant digits. -/
def long (x : Float) : String := Decimal.general 6 x

/-- A weight, with four significant digits. -/
def weighed (x : Float) : String := Decimal.general 4 x

/-- The words of a notice. -/
def words : Notice Float → String
  | exhaustedSearches most searches steps =>
    s!"Line search hit the cap of {most} shrinks in {searches} of {steps} iterations"
  | descentEnded solver reason steps loss =>
    s!"{solver} terminated ({reason.words}) after {steps} iterations, loss={long loss}"
  | momentsEnded steps length loss =>
    s!"Adam terminated after {steps} iterations, last step={short length}, loss={long loss}"
  | multiplierRound number loss violation weight =>
    s!"outer iteration {number}: f={long loss}, max violation={short violation}, mu={weighed weight}"
  | multipliersSettled rounds moved violation tolerance =>
    s!"Stopping after {rounds} outer iterations: step {short moved} and violation "
      ++ s!"{short violation} within {short tolerance}"
  | barrierRound number loss weight =>
    s!"outer iteration {number}: f={long loss}, mu={weighed weight}"
  | barrierSettled rounds moved tolerance =>
    s!"Stopping after {rounds} outer iterations: step {short moved} within {short tolerance}"
  | infeasible round largest =>
    let what := match round with
      | none => "initial guess"
      | some number => s!"iterate {number}"
    s!"Log barrier {what} is not strictly feasible (max g={short largest}); "
      ++ "continuing with the push-back heuristic"

end Notice

/-- What the notices of a run write. -/
def Log.Registry.writeNotices (r : Registry) (notices : List (Notice Float)) : List Line :=
  notices.flatMap fun n => r.write n.loggerName ⟨n.level, n.words, []⟩

/-- A registry of the solvers' loggers, which write to a stream in a layout from a level on. -/
def Log.Registry.ofSolvers (level layout : Value) : Except Failure Registry :=
  let made := loggerNames.foldl (fun r name => (r.obtain name).2) Registry.empty
  made.configure level layout (.stream 0)

end Minimization
