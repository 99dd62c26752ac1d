import Minimization.Configuration.Catalogue
import Minimization.Configuration.Overrides
import Minimization.Random.Generator
import Minimization.Solver.Basic

/-!
# Solvers from specifications

A specification is an object that names the class of a solver, and may have parameters, parameters of
inner descents, and arguments for making the solver. `Configured.ofSpecification` makes the solver: its
parameters are those of its kind with those of the specification set over them.
-/

namespace Minimization

/-- A solver made from a specification, with its generator. -/
structure Configured where
  solver : Solver
  generator : Random.Generator

namespace Specification

/-- The fields that a value stands for where named arguments are expected. -/
def dictionary (v : Value) : Except Failure (Fields Value) :=
  let (r, fields) := Parameters.setAll [] v
  r.map fun _ => fields

/-- Texts, or numbers, in increasing order; other values cannot be brought in order. -/
def sorted (vs : List Value) : Except Failure (List Value) :=
  if vs.length ≤ 1 then .ok vs
  else if vs.all fun v => v.kindName == "str" then
    .ok (vs.mergeSort fun a b => a.asText ≤ b.asText)
  else if vs.all fun v => (Value.numbersAgree? v v).isSome then do
    let keyed ← vs.mapM fun v => do return (← v.toReal, v)
    return (keyed.mergeSort fun a b => a.1 ≤ b.1).map Prod.snd
  else .error .wrongType

/-- The failure of a specification that names no class. -/
def unnamed (keys : List Value) : Failure :=
  match sorted keys with
  | .ok keys => .argument (.unnamedSolver (Value.list keys).render)
  | .error e => e

/-- Whether a text occurs in another one. -/
def occursIn (part : List Char) : List Char → Bool
  | [] => part.isEmpty
  | c :: cs => part.isPrefixOf (c :: cs) || occursIn part cs

/-- The fields of a specification; it has to name a class. -/
def named (spec : Value) : Except Failure (Fields Value) :=
  match spec with
  | .object fields =>
    if Fields.has fields "class" then .ok fields
    else .error (unnamed ((Fields.names fields).map .text))
  | .text s =>
    if occursIn "class".toList s.toList then .error .wrongType
    else .error (unnamed (s.toList.map fun c => .text (String.singleton c)))
  | .list items =>
    if items.any fun v => v.agrees (.text "class") then .error .wrongType else .error (unnamed items)
  | _ => .error .wrongType

/-- The arguments that a solver can be made with. -/
def argumentNames (kind : SolverKind) : List String :=
  "hyperparams" ::
    (if kind.isStochastic then ["seed", "rand_ref"] else [])
    ++ if kind.isConstrained then ["inner_hyperparams"] else []

/-- What a solver holds, with the parameters of a specification set over it. -/
def overlay (held : Holding) (given : Value) : Except Failure Holding := do
  if given.isPresent then return .store (← Parameters.ofConfiguration given (← held.read))
  else return held

/-- An argument, unless it is nothing. -/
def argument? (arguments : Fields Value) (name : String) : Option Value :=
  match arguments.get? name with
  | none => none
  | some .null => none
  | some v => some v

/-- The solver of a kind, made with arguments and the fields of a specification. -/
def solverOf (kind : SolverKind) (arguments fields : Fields Value) : Except Failure Configured := do
  if arguments.any fun a => !(argumentNames kind).contains a.1 then throw .wrongType
  let generator ← match argument? arguments "seed" with
    | some seed => Random.Generator.ofSeed seed
    | none => pure .unseeded
  let start := Solver.ofKind kind none none
  let held (name : String) (default : Holding) : Holding :=
    ((argument? arguments name).map .plain).getD default
  let given := (Value.object fields).field "hyperparams"
  let givenInner := (Value.object fields).field "inner_hyperparams"
  let parameters ← overlay (held "hyperparams" start.parameters) given
  if givenInner.isPresent && !kind.isConstrained then
    throw (.argument (.noInnerSolver kind.name))
  let inner ← overlay (held "inner_hyperparams" start.inner) givenInner
  return ⟨⟨kind, parameters, inner⟩, generator⟩

/-- The classes, other than solvers, that can be made from nothing but the arithmetic, and the functions
that have a value for it. -/
def plainMakers : List String :=
  ["Ref", "InvalidProblem", "DimensionMismatch", "VectorFunction", "ScalarFunction",
   "ScalarFunctionWithGradient", "NumpyBackend", "DescentHistory", "vector_constant"]

/-- The function that looks for members of its argument. -/
def inspecting : String := "get_logger"

/-- Something that makes no solver is refused, sooner or later. -/
def refusal (name : String) (arguments fields : Fields Value) : Failure :=
  if !arguments.isEmpty then .wrongType
  else if name = inspecting then .noMember
  else if !plainMakers.contains name then .wrongType
  else if ((Value.object fields).field "hyperparams").isPresent then .noMember
  else if ((Value.object fields).field "inner_hyperparams").isPresent then
    .argument (.noInnerSolver name)
  else .noMember

end Specification

namespace Configured

open Specification

/-- The solver that a specification describes. -/
def ofSpecification (spec : Value) : Except Failure Configured := do
  let fields ← named spec
  let entry ← Catalogue.find ((Value.object fields).field "class")
  let arguments ← dictionary ((fields.get? "params").getD (.object []))
  match entry with
  | .constant _ => throw .wrongType
  | .function name => throw (refusal name arguments fields)
  | .classOf _ name =>
    match SolverKind.named? name with
    | some kind => solverOf kind arguments fields
    | none => throw (refusal name arguments fields)

/-- The solver of a specification that is written in a file, with overrides applied. -/
def ofText (text : Option String) (overrides : Value) : Except Failure Configured := do
  match text with
  | none => throw .noFile
  | some text => ofSpecification (← Configuration.applyOverrides (← Value.read text) overrides)

/-- The words of the record that tells of a new solver. -/
def words (c : Configured) : String :=
  s!"Built {c.solver.kind.name} with {c.solver.parameters.render}"

/-- The logger of that record. -/
def loggerName : String := "descent.experiments.config"

end Configured

end Minimization
