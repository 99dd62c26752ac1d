import Minimization.Configuration.Catalogue

/-!
# Interfaces

An interface is a list of members that an object has to have, whatever else it has. Solvers are written
against the interface of arithmetic, and are themselves used through interfaces.
-/

namespace Minimization

/-- An interface: the members that an object has to have. -/
structure Interface where
  name : String
  members : List String

namespace Interface

/-- Arithmetic on vectors and matrices. -/
def arithmetic : Interface :=
  ⟨"NumericBackend",
    ["vec_of", "mat_of", "mat_of_rows", "zeros", "eye", "rand", "randn", "num_rows", "num_cols",
     "num_elem", "add", "sub", "add_inp", "sub_inp", "scale", "scale_inp", "elmmul", "matmul", "trp",
     "elemwise_inp", "inner", "dot", "sum", "norm2", "norm", "dist", "normalize", "normalize_inp", "get",
     "set_inp", "copy", "to_array", "to_array_2d"]⟩

/-- What a descent records its course in. -/
def recorder : Interface := ⟨"DescentLog", ["position", "loss", "direction", "step_size"]⟩

/-- Solvers for functions. -/
def descent : Interface := ⟨"DescentAlgorithm", ["hyperparams", "arg_min", "loss"]⟩

/-- Solvers for constrained problems. -/
def constrained : Interface := ⟨"ConstrainedSolver", ["hyperparams", "arg_min"]⟩

/-- All interfaces. -/
def all : List Interface := [arithmetic, recorder, descent, constrained]

/-- The interface of a name. -/
def named? (name : String) : Option Interface := all.find? fun i => i.name == name

/-- Whether an object with some members meets the interface. -/
def metBy (i : Interface) (members : List String) : Bool := i.members.all members.contains

/-- The members of the objects of a class that belong to an interface. -/
def membersOf (className : String) : List String :=
  match className with
  | "NumpyBackend" => arithmetic.members
  | "DescentHistory" => recorder.members
  | "GradientDescent" => descent.members
  | "StochasticGradientDescent" => descent.members
  | "AdamGradientDescent" => descent.members
  | "AugmentedLagrangian" => constrained.members
  | "LogBarrier" => constrained.members
  | _ => []

end Interface

end Minimization
