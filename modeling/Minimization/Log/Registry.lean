import Minimization.Log.Level
import Minimization.Text.Template

/-!
# Loggers

A `Registry` holds the loggers by their names. The library's own loggers live under one root name; each
is made with a handler of its own when it is first asked for. A record goes to a logger if its level is
reached, then to every handler whose level is reached: those of the logger, and those of its ancestors
as long as the loggers on the way propagate. Ancestors are the loggers whose name is a beginning of
the name up to a dot.
-/

namespace Minimization.Log

/-- Where the lines of a handler go: to the console, or to one of the streams that were handed over. -/
inductive Sink where
  | console
  | stream (number : Nat)
  | nowhere
  deriving DecidableEq, Repr

/-- Writes records from its level on, in its layout. -/
structure Handler where
  level : Level
  sink : Sink
  layout : String

/-- A named source of records. -/
structure Logger where
  level : Level
  handlers : List Handler
  propagates : Bool

/-- A logger nobody has set up. -/
def Logger.bare : Logger := ⟨Level.unset, [], true⟩

/-- Something to be logged: how important it is, what it says, and what else is known of it, such as when and
where it came up. -/
structure Record where
  level : Level
  message : String
  more : Fields Value

/-- A line that was written. -/
structure Line where
  sink : Sink
  text : String

/-- All loggers, the one above them, the names of the library's own ones in the order in which they were
made, and the level of those still to be made. -/
structure Registry where
  loggers : Fields Logger
  top : Logger
  known : List String
  level : Except Failure Level

/-- The name that the library's own loggers live under. -/
def rootName : String := "descent"

/-- The name of the logger above all others. -/
def topName : String := "root"

/-- The layout of handlers that are not given one. -/
def defaultLayout : String := "[%(levelname)s] %(name)s: %(message)s"

/-- The full name of one of the library's own loggers. -/
def fullName (name : Option String) : String :=
  match name with
  | none => rootName
  | some name =>
    if name = rootName || (rootName ++ ".").isPrefixOf name then name else rootName ++ "." ++ name

/-- The full name of one of the library's own loggers, for a name that is a value. -/
def fullNameOf : Value → Except Failure String
  | .null => .ok (fullName none)
  | .text name => .ok (fullName (some name))
  | _ => .error .noMember

/-- The name of any logger; without a name it is the one above all others. -/
def foreignName (v : Value) : Except Failure String :=
  if !v.isPresent then .ok topName
  else match v with
    | .text name => .ok name
    | _ => .error .wrongType

/-- The layout that a setting asks for: a text with at least one named directive. -/
def layoutOf (v : Value) : Except Failure String :=
  if !v.isPresent then .ok defaultLayout
  else match v with
    | .text s => if Text.Template.mentionsName s.toList then .ok s else .error .malformedFormat
    | _ => .error .wrongType

namespace Registry

/-- No loggers, and warnings from those still to be made. -/
def empty : Registry := ⟨[], ⟨Level.warning, [], true⟩, [], .ok Level.warning⟩

/-- The logger of a full name. -/
def logger (r : Registry) (name : String) : Logger := (r.loggers.get? name).getD .bare

/-- The registry with a logger changed. -/
def change (r : Registry) (name : String) (f : Logger → Logger) : Registry :=
  { r with loggers := r.loggers.set name (f (r.logger name)) }

/-- Makes one of the library's own loggers, unless it is known. A logger that has handlers is left as it
is. -/
def obtain (r : Registry) (name : String) : Except Failure Unit × Registry :=
  if r.known.contains name then (.ok (), r)
  else
    let added := r.change name id
    if !(r.logger name).handlers.isEmpty then (.ok (), { added with known := r.known ++ [name] })
    else match r.level with
      | .error e => (.error e, added)
      | .ok level =>
        let made := added.change name fun _ => ⟨level, [⟨level, .console, defaultLayout⟩], false⟩
        (.ok (), { made with known := r.known ++ [name] })

/-- Gives a logger another handler, which writes nothing. -/
def attachSilent (r : Registry) (name : String) : Registry :=
  let attach (l : Logger) : Logger := { l with handlers := l.handlers ++ [⟨Level.unset, .nowhere, ""⟩] }
  if name = topName then { r with top := attach r.top } else r.change name attach

/-- Changes every known logger for a level. A level that is refused changes nothing if there is a logger
to refuse it; otherwise it is kept for the loggers still to be made. -/
def setting (r : Registry) (level : Except Failure Level) (f : Level → Logger → Logger) :
    Except Failure Registry :=
  match level, r.known with
  | .error e, _ :: _ => .error e
  | .error e, [] => .ok { r with level := .error e }
  | .ok n, known => .ok { known.foldl (fun r name => r.change name (f n)) r with level := .ok n }

/-- Sets the level of every known logger and of those still to be made. -/
def setLevel (r : Registry) (v : Value) : Except Failure Registry :=
  r.setting (Level.ofValue v) fun n l =>
    { l with level := n, handlers := l.handlers.map ({ · with level := n }) }

/-- Replaces the handlers of every known logger. -/
def configure (r : Registry) (level layout : Value) (sink : Sink) : Except Failure Registry := do
  let layout ← layoutOf layout
  r.setting (Level.ofValue level) fun n l => { l with level := n, handlers := [⟨n, sink, layout⟩] }

/-- The proper beginnings of a name up to a dot, the longest first. -/
def beginnings (name : List Char) : List String :=
  ((List.range name.length).reverse.filter fun i => 0 < i && name[i]? = some '.').map fun i =>
    String.ofList (name.take i)

/-- A logger and its ancestors, nearest first. -/
def lineage (r : Registry) (name : String) : List Logger :=
  r.logger name :: (beginnings name.toList).filterMap r.loggers.get? ++ [r.top]

/-- The level of the first logger that has one. -/
def effectiveLevel : List Logger → Level
  | [] => Level.unset
  | l :: ls => if l.level = Level.unset then effectiveLevel ls else l.level

/-- The handlers that a record reaches. -/
def reached : List Logger → List Handler
  | [] => []
  | l :: ls => l.handlers ++ if l.propagates then reached ls else []

/-- The line of a record in a layout. -/
def lineOf (layout name : String) (record : Record) : Except Failure String :=
  (Text.Template.read layout).fill <| .byName <|
    [("name", .text name), ("levelname", .text record.level.name), ("levelno", .int record.level),
     ("message", .text record.message)] ++ record.more

/-- What a record writes. A handler whose layout cannot be filled writes nothing. -/
def write (r : Registry) (name : String) (record : Record) : List Line :=
  let lineage := r.lineage name
  if record.level ≤ 0 || record.level < effectiveLevel lineage then []
  else (reached lineage).filterMap fun h =>
    if record.level < h.level || h.sink = .nowhere then none
    else match lineOf h.layout name record with
      | .ok text => some ⟨h.sink, text ++ "\n"⟩
      | .error _ => none

/-- The message of a record: as it is without values, else filled with them. A single object that is not
empty gives its fields by name. -/
def message (text : Value) (values : List Value) : Except Failure String :=
  let template := Text.Template.read text.display
  match values with
  | [] => .ok text.display
  | [.object (field :: fields)] => template.fill (.byName (field :: fields))
  | values => template.fill (.inOrder values)

end Registry

end Minimization.Log
