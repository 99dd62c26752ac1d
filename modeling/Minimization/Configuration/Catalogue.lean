import Minimization.Parameters.Tables
import Minimization.Function.Difference
import Minimization.Log.Registry
import Minimization.Random.Generator

/-!
# The catalogue

Configurations name classes by paths such as `optim:LogBarrier` or `optim.LogBarrier`: a module and a
name in it. The catalogue lists the modules, the classes, functions and constants that each of them
declares, and the names that it takes over from other modules. `Catalogue.find` looks a path up.
-/

namespace Minimization.Catalogue

/-- A module: the classes, functions and constants that it declares, and the names that it takes
over. -/
structure Module where
  classes : List String
  functions : List String
  constants : Fields Value
  taken : Fields (List String)

/-- What a path stands for: a class with the module that declares it, a function, or a constant. -/
inductive Entry where
  | classOf (module name : String)
  | function (name : String)
  | constant (v : Value)

/-- A module that takes nothing over. -/
def declaring (classes functions : List String) (constants : Fields Value) : Module :=
  ⟨classes, functions, constants, []⟩

/-- The name that modules with loggers take over. -/
def logging : String × List String := ("core.logging", ["get_logger"])

/-- The names that modules which publish numbers take over. -/
def publishing : String × List String := ("core.rng", ["Ref", "make_rng", "publish_random_int"])

/-- Names of parameters that modules refer to. -/
def parameterNames : Fields Value :=
  [("INIT_STEPSIZE", .text Parameters.initialStep),
   ("TERMINATION_STEPSIZE", .text Parameters.terminationStep),
   ("MAX_ITERATIONS", .text Parameters.maxIterations),
   ("MAX_LINESEARCH_ITER", .text Parameters.maxShrinks),
   ("STEP_DECR", .text Parameters.shrinkFactor),
   ("STEP_INCR", .text Parameters.growthFactor),
   ("LINESEARCH_FACTOR", .text Parameters.sufficientShare),
   ("BETA1", .text Parameters.firstDecay),
   ("BETA2", .text Parameters.secondDecay),
   ("EPSILON", .text Parameters.guardTerm),
   ("MU_INIT", .text Parameters.initialWeight),
   ("MU_INCR", .text Parameters.weightGrowth),
   ("MU_DECR", .text Parameters.weightDecay),
   ("OUTER_TOLERANCE", .text Parameters.roundTolerance)]

/-- The modules of the solvers. -/
def solverModules : Fields Module :=
  [("optim", ⟨[], [], [],
     [("optim.adam", ["AdamGradientDescent"]),
      ("optim.augmented_lagrangian", ["AugmentedLagrangian", "augmented_lagrangian"]),
      ("optim.gradient_descent", ["GradientDescent", "StochasticGradientDescent"]),
      ("optim.hyperparams", ["ADAM_DEFAULTS", "AUGMENTED_LAGRANGIAN_DEFAULTS", "GD_DEFAULTS",
        "LOG_BARRIER_DEFAULTS", "Hyperparams"]),
      ("optim.log_barrier", ["LogBarrier", "log_barrier_function"])]⟩),
   ("optim.hyperparams", declaring ["Hyperparams"] []
     (parameterNames ++ Parameters.tables.map fun (name, ps) => (name, .object ps))),
   ("optim.gradient_descent", ⟨["GradientDescent", "StochasticGradientDescent"], [], [],
     [("core.errors", ["DimensionMismatch"]), ("core.protocols", ["DescentLog", "NumericBackend"]),
      publishing, logging,
      ("optim.hyperparams", ["GD_DEFAULTS", "INIT_STEPSIZE", "LINESEARCH_FACTOR", "MAX_ITERATIONS",
        "MAX_LINESEARCH_ITER", "STEP_DECR", "STEP_INCR", "TERMINATION_STEPSIZE", "Hyperparams"])]⟩),
   ("optim.adam", ⟨["AdamGradientDescent"], [], [],
     [("core.errors", ["DimensionMismatch"]), ("core.protocols", ["DescentLog", "NumericBackend"]),
      publishing, logging,
      ("optim.hyperparams", ["ADAM_DEFAULTS", "BETA1", "BETA2", "EPSILON", "INIT_STEPSIZE",
        "MAX_ITERATIONS", "TERMINATION_STEPSIZE", "Hyperparams"])]⟩),
   ("optim.augmented_lagrangian", ⟨["AugmentedLagrangian"], ["augmented_lagrangian"], [],
     [("core.errors", ["DimensionMismatch"]), ("core.protocols", ["NumericBackend"]), logging,
      ("core.types", ["DescentHistory", "TrajectoryInfo"]),
      ("optim.gradient_descent", ["GradientDescent"]),
      ("optim.hyperparams", ["AUGMENTED_LAGRANGIAN_DEFAULTS", "GD_DEFAULTS", "INIT_STEPSIZE",
        "MAX_ITERATIONS", "MU_INCR", "MU_INIT", "OUTER_TOLERANCE", "Hyperparams"]),
      ("problems.functions", ["ScalarFunctionWithGradient"]),
      ("problems.problem", ["OptimizationProblem"])]⟩),
   ("optim.log_barrier", ⟨["LogBarrier"], ["log_barrier_function"], [],
     [("core.errors", ["DimensionMismatch"]), ("core.protocols", ["NumericBackend"]), logging,
      ("core.types", ["DescentHistory", "TrajectoryInfo"]),
      ("optim.gradient_descent", ["GradientDescent"]),
      ("optim.hyperparams", ["GD_DEFAULTS", "LOG_BARRIER_DEFAULTS", "MAX_ITERATIONS", "MU_DECR",
        "MU_INIT", "OUTER_TOLERANCE", "Hyperparams"]),
      ("problems.functions", ["ScalarFunctionWithGradient"]),
      ("problems.problem", ["OptimizationProblem"])]⟩)]

/-- The modules of functions, problems and objectives. -/
def problemModules : Fields Module :=
  [("problems", ⟨[], [], [],
     [("problems.functions",
        ["ScalarFunction", "ScalarFunctionWithGradient", "VectorFunction", "as_scalar_function",
         "as_vector_function", "constant", "linear", "vector_constant", "vector_linear"]),
      ("problems.numeric_gradient", ["NumericCentralGradient", "NumericGradient"]),
      ("problems.problem", ["OptimizationProblem", "OptimizationProblemBuilder"])]⟩),
   ("problems.functions", ⟨["VectorFunction", "ScalarFunction", "ScalarFunctionWithGradient"],
     ["as_scalar_function", "as_vector_function", "constant", "linear", "vector_constant",
      "vector_linear"], [],
     [("core.protocols", ["NumericBackend"])]⟩),
   ("problems.numeric_gradient",
     ⟨["_FiniteDifference", "NumericGradient", "NumericCentralGradient"], [],
      [("DEFAULT_H", .real Estimator.defaultStep)],
      [("core.protocols", ["NumericBackend"]), ("problems.functions", ["VectorFunction"])]⟩),
   ("problems.problem", ⟨["OptimizationProblem", "OptimizationProblemBuilder"], [], [],
     [("core.errors", ["InvalidProblem"]), ("core.protocols", ["NumericBackend"]),
      ("problems.functions",
        ["ScalarFunction", "VectorFunction", "as_scalar_function", "as_vector_function"]),
      ("problems.numeric_gradient", ["NumericGradient"])]⟩),
   ("tasks", ⟨[], [], [],
     [("tasks.least_squares", ["MiniBatchLeastSquares", "make_least_squares_data"]),
      ("tasks.quadratic", ["ShiftedQuadratic", "make_spd_quadratic"])]⟩),
   ("tasks.least_squares", ⟨["MiniBatchLeastSquares"], ["make_least_squares_data"], [],
     [("core.rng", ["Ref"]), ("problems.functions", ["ScalarFunctionWithGradient"])]⟩),
   ("tasks.quadratic", ⟨["ShiftedQuadratic"], ["make_spd_quadratic"], [],
     [("problems.functions", ["ScalarFunctionWithGradient"])]⟩)]

/-- The remaining modules. -/
def coreModules : Fields Module :=
  [("core", declaring [] [] []),
   ("core.errors", declaring ["InvalidProblem", "DimensionMismatch"] [] []),
   ("core.logging", declaring []
     ["get_logger", "set_log_level", "configure_logging"]
     [("_ROOT", .text Log.rootName), ("_FORMAT", .text Log.defaultLayout),
      ("_default_level", .int Log.Level.warning)]),
   ("core.protocols", ⟨["NumericBackend", "DescentLog", "DescentAlgorithm", "ConstrainedSolver"], [],
     [("TYPE_CHECKING", .bool false)], [("core.types", ["TrajectoryInfo"])]⟩),
   ("core.rng", declaring ["Ref"] ["make_rng", "publish_random_int"]
     [("MAX_RANDOM_INT", .int Random.Generator.publishedBound)]),
   ("core.types", declaring ["DescentHistory", "TrajectoryInfo"] [] []),
   ("backends", ⟨[], [], [], [("backends.numpy_backend", ["NumpyBackend"])]⟩),
   ("backends.numpy_backend", ⟨["NumpyBackend"], [], [], [("core.errors", ["DimensionMismatch"])]⟩),
   ("experiments", declaring [] [] []),
   ("experiments.config", ⟨[],
     ["load_json", "import_class", "apply_overrides", "hyperparams_from_config",
      "build_solver", "load_solver"], [],
     [logging, ("core.protocols", ["NumericBackend"]), ("optim.hyperparams", ["Hyperparams"])]⟩),
   ("experiments.plotting",
     ⟨[], ["plot_descent_history", "plot_trajectory_2d", "plot_outer_trace"], [],
      [("core.types", ["DescentHistory", "TrajectoryInfo"])]⟩)]

/-- All modules. -/
def modules : Fields Module := solverModules ++ problemModules ++ coreModules

/-- What a name stands for in a module; names are taken over at most `depth` times. -/
def resolve : (depth : Nat) → (module name : String) → Option Entry
  | 0, _, _ => none
  | depth + 1, module, name =>
    match modules.get? module with
    | none => none
    | some m =>
      if m.classes.contains name then some (.classOf module name)
      else if m.functions.contains name then some (.function name)
      else match m.constants.get? name with
        | some v => some (.constant v)
        | none =>
          match m.taken.find? fun source => source.2.contains name with
          | some (source, _) => resolve depth source name
          | none => none

/-- So often is a name taken over at most. -/
def greatestDepth : Nat := 4

/-- A text in front of and behind the first place where it has a separator. -/
def splitFirst (separator : Char) (cs : List Char) : Option (String × String) :=
  match cs.dropWhile (· ≠ separator) with
  | [] => none
  | _ :: rest => some (String.ofList (cs.takeWhile (· ≠ separator)), String.ofList rest)

/-- The module and the name in a path: around the first colon, or else around the last dot. -/
def splitPath (path : String) : Except Failure (String × String) :=
  match splitFirst ':' path.toList with
  | some parts => .ok parts
  | none =>
    match splitFirst '.' path.toList.reverse with
    | some (name, module) => .ok (String.ofList module.toList.reverse, String.ofList name.toList.reverse)
    | none => .error .malformedName

/-- What a path stands for. A module has to be named in full. -/
def findPath (path : String) : Except Failure Entry := do
  let (module, name) ← splitPath path
  if module = "" then throw .malformedName
  if ".".isPrefixOf module then throw .wrongType
  if !modules.has module then throw .unknownModule
  match resolve greatestDepth module name with
  | some entry => return entry
  | none => throw .noMember

/-- What a value stands for as a path; only texts are paths. -/
def find (v : Value) : Except Failure Entry :=
  match v with
  | .text path => findPath path
  | .list _ => .error .noMember
  | .object _ => .error .noMember
  | _ => .error .wrongType

end Minimization.Catalogue
