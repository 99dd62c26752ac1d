import Minimization.Value.Access

/-!
# Levels

How important a record is. A level is a whole number; some levels have names. `Level.ofValue` is the
level that a setting asks for: a number is a level itself, a text is looked up among the names in
capitals, and an unknown name asks for warnings.
-/

namespace Minimization.Log

/-- How important a record is. -/
abbrev Level := Int

namespace Level

/-- Everything; a logger of this level follows its ancestors. -/
def unset : Level := 0
/-- Details for those who look for a fault. -/
def debug : Level := 10
/-- What goes as planned. -/
def info : Level := 20
/-- What somebody should look at. -/
def warning : Level := 30

/-- The names of levels. -/
def named : Fields Level :=
  [("CRITICAL", 50), ("FATAL", 50), ("ERROR", 40), ("WARNING", warning), ("WARN", warning),
   ("INFO", info), ("DEBUG", debug), ("NOTSET", unset)]

/-- Names that stand for something else than a level, and why it is refused. -/
def reserved : Fields Failure := [("BASIC_FORMAT", .unreadable), ("_STYLES", .wrongType)]

/-- The capitals of a letter or a ligature, if they are ASCII letters. -/
def capitals (c : Char) : List Char :=
  if c = 'ı' then ['I']
  else if c = 'ſ' then ['S']
  else if c = 'ﬅ' || c = 'ﬆ' then ['S', 'T']
  else [c.toUpper]

/-- A text in capitals. -/
def capitalized (s : String) : String := String.ofList (s.toList.flatMap capitals)

/-- The level that a setting asks for. -/
def ofValue (v : Value) : Except Failure Level :=
  match v with
  | .int n => .ok n
  | .bool b => .ok (Value.bit b)
  | .text s =>
    let name := capitalized s
    match named.get? name, reserved.get? name with
    | some level, _ => .ok level
    | none, some e => .error e
    | none, none => .ok warning
  | _ => .error .wrongType

/-- The name of a level, or its number if it has none. -/
def name (level : Level) : String :=
  match named.find? fun field => field.2 == level with
  | some (name, _) => name
  | none => s!"Level {level}"

end Level

end Minimization.Log
