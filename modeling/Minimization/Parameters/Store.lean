import Minimization.Value.Access
import Minimization.Value.Printer
import Minimization.Value.Writer

/-!
# Parameters of solvers

Parameters are named configuration values in the order in which the names were first set. Nothing
checks them until a solver reads them. A parameter that is set to nothing counts as set.
-/

namespace Minimization

/-- Named configuration values. -/
abbrev Parameters := Fields Value

namespace Parameters

/-- The value under a name that is a value: only texts name anything, and lists and objects cannot be
names. -/
def at? (ps : Parameters) (name : Value) : Except Failure (Option Value) :=
  match name with
  | .text s => .ok (Fields.get? ps s)
  | .list _ => .error .wrongType
  | .object _ => .error .wrongType
  | _ => .ok none

/-- The value of a parameter; one that is not set is a failure. -/
def get (ps : Parameters) (name : Value) : Except Failure Value := do
  match ← ps.at? name with
  | some v => return v
  | none => throw (.unsetParameter name.render)

/-- The value of a parameter, or a default if it is not set. -/
def getD (ps : Parameters) (name : String) (default : Value) : Value :=
  (Fields.get? ps name).getD default

/-- A parameter as a float. -/
def real (ps : Parameters) (name : String) (default : Float) : Except Failure Float :=
  (ps.getD name (.real default)).toReal

/-- A parameter as a whole number. -/
def whole (ps : Parameters) (name : String) (default : Int) : Except Failure Int :=
  (ps.getD name (.int default)).toInt

/-- Whether two stores hold the same values under the same names, in whatever order. -/
def agrees (ps qs : Parameters) : Bool := (Value.object ps).agrees (.object qs)

/-- Names that no parameter can be given under when a store is made. -/
def reservedNames : List String := ["self", "defaults"]

/-- Defaults, with more parameters set over them. -/
def overriding (defaults more : Parameters) : Except Failure Parameters :=
  if more.any fun field => reservedNames.contains field.1 then .error .wrongType
  else .ok (Fields.update defaults more)

/-- The store on one line. -/
def render (ps : Parameters) : String := s!"Hyperparams({(Value.object ps).render})"

/-- The name that a value is set under. -/
def nameOf : Value → Except Failure String
  | .text s => .ok s
  | .list _ => .error .wrongType
  | .object _ => .error .wrongType
  | v => .ok v.write

/-- The name and the value in a pair: a list or a text of two, or the two names of an object. -/
def pairOf : Value → Except Failure (String × Value)
  | .list [name, v] => do return (← nameOf name, v)
  | .object [(a, _), (b, _)] => .ok (a, .text b)
  | .text s =>
    match s.toList with
    | [a, b] => .ok (String.singleton a, .text (String.singleton b))
    | _ => .error .unreadable
  | .list _ => .error .unreadable
  | .object _ => .error .unreadable
  | _ => .error .wrongType

/-- Sets pairs of a name and a value, up to the first that is none. -/
def setPairs (ps : Parameters) : List Value → Except Failure Unit × Parameters
  | [] => (.ok (), ps)
  | v :: rest =>
    match pairOf v with
    | .ok (name, w) => setPairs (Fields.set ps name w) rest
    | .error e => (.error e, ps)

/-- Sets the fields of an object, or the pairs that a value consists of. What was set before a failure
stays set. -/
def setAll (ps : Parameters) (v : Value) : Except Failure Unit × Parameters :=
  match v with
  | .object fields => (.ok (), Fields.update ps fields)
  | v =>
    match v.parts with
    | .ok vs => setPairs ps vs
    | .error e => (.error e, ps)

/-- Defaults, with the values of a configuration set over them. A configuration that counts as absent
changes nothing. -/
def ofConfiguration (config : Value) (defaults : Parameters) : Except Failure Parameters :=
  if config.isPresent then
    let (r, ps) := defaults.setAll config
    r.map fun _ => ps
  else .ok defaults

end Parameters

end Minimization
