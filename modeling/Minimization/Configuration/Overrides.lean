import Minimization.Value.Access
import Minimization.Value.Printer
import Minimization.Value.Reader
import Minimization.Value.Writer

/-!
# Overrides

An override is a text such as `a.b=1`: a path of names, and a value that is written as configurations
are, or else stands for itself. `setPath` stores a value under a path and puts objects where the path
leads through something else; `lookup` follows a path.

Overrides go into a copy of the configuration, which is made by writing it as a text and reading that
back. So a configuration that cannot be written is refused before any override is looked at (`copied`).
-/

namespace Minimization.Configuration

/-- The value that a path leads to. -/
def lookup (v : Value) : List String → Option Value
  | [] => some v
  | name :: path =>
    match v.field? name with
    | some w => lookup w path
    | none => none

/-- The fields with a value stored under a path. -/
def setPath (fields : Fields Value) (path : List String) (value : Value) : Fields Value :=
  match path with
  | [] => fields
  | [name] => fields.set name value
  | name :: path =>
    let inner := ((Value.object fields).field name).fields
    fields.set name (.object (setPath inner path value))

/-- A path of names and a value in the form of a text. -/
structure Override where
  path : List String
  value : String

/-- The parts of an override: what stands before and after the first equals sign. -/
def Override.read (item : String) : Except Failure Override :=
  let cs := item.toList
  match cs.dropWhile (· ≠ '=') with
  | [] => .error (.argument (.malformedOverride item))
  | _ :: value =>
    .ok ⟨((cs.takeWhile (· ≠ '=')).splitOn '.').map String.ofList, String.ofList value⟩

/-- The value of a text: what is written there, or the text itself. -/
def parsed (text : String) : Except Failure Value :=
  match Value.read text with
  | .ok v => .ok v
  | .error .malformedText => .ok (.text text)
  | .error e => .error e

/-- A configuration with an override applied. Only objects can be overridden. -/
def applyOverride (config : Value) (item : Value) : Except Failure Value :=
  match item with
  | .text s => do
    let o ← Override.read s
    let v ← parsed o.value
    match config with
    | .object fields => return .object (setPath fields o.path v)
    | _ => throw .wrongType
  | .list items => notText (items.any fun v => v.agrees (.text "=")) item
  | .object fields => notText (Fields.has fields "=") item
  | _ => .error .wrongType
where
  /-- What is no text but may hold an equals sign. -/
  notText (holds : Bool) (item : Value) : Except Failure Value :=
    .error (if holds then .noMember else .argument (.malformedOverride item.display))

/-- A copy of a configuration: it is written as a text, which reads back as the same value. -/
def copied (config : Value) : Except Failure Value :=
  if config.isWritable then .ok config else .error .unreadable

/-- A copy of a configuration with overrides applied in order. -/
def applyOverrides (config overrides : Value) : Except Failure Value := do
  let config ← copied config
  (← overrides.parts).foldlM applyOverride config

end Minimization.Configuration
