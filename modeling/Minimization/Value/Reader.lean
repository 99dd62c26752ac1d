import Minimization.Value.Token

/-!
# Values from tokens

`Value.read` reads one value from a text. The tokens are consumed from left to right: `Reader` holds
the lists and objects that are still open and what may come next, so reading is a fold over the tokens.
In an object the last of several fields of one name counts.
-/

namespace Minimization.Value

/-- A list or an object that is still open; an object with the name whose value is being read. -/
inductive Reader.Frame where
  | items (before : List Value)
  | fields (before : Fields Value) (name : String)

/-- What may come next. -/
inductive Reader.Mode where
  | value
  | firstItem
  | firstName
  | nextName (before : Fields Value)
  | colon (before : Fields Value) (name : String)
  | complete (v : Value)

/-- The open lists and objects, innermost first, and what may come next. -/
structure Reader where
  frames : List Reader.Frame
  mode : Reader.Mode

/-- A token where a value must come. -/
def Reader.takeValue (frames : List Reader.Frame) : Token → Except Failure Reader
  | .openList => .ok ⟨.items [] :: frames, .firstItem⟩
  | .openObject => .ok ⟨frames, .firstName⟩
  | .text s => .ok ⟨frames, .complete (.text s)⟩
  | .plain v => .ok ⟨frames, .complete v⟩
  | _ => .error .malformedText

/-- Consumes one token. -/
def Reader.step (r : Reader) (t : Token) : Except Failure Reader :=
  match r.mode, t, r.frames with
  | .value, t, frames => Reader.takeValue frames t
  | .firstItem, .closeList, .items _ :: frames => .ok ⟨frames, .complete (.list [])⟩
  | .firstItem, t, frames => Reader.takeValue frames t
  | .firstName, .closeObject, frames => .ok ⟨frames, .complete (.object [])⟩
  | .firstName, .text name, frames => .ok ⟨frames, .colon [] name⟩
  | .nextName before, .text name, frames => .ok ⟨frames, .colon before name⟩
  | .colon before name, .colon, frames => .ok ⟨.fields before name :: frames, .value⟩
  | .complete v, .comma, .items before :: frames => .ok ⟨.items (v :: before) :: frames, .value⟩
  | .complete v, .closeList, .items before :: frames =>
    .ok ⟨frames, .complete (.list (v :: before).reverse)⟩
  | .complete v, .comma, .fields before name :: frames =>
    .ok ⟨frames, .nextName (before.set name v)⟩
  | .complete v, .closeObject, .fields before name :: frames =>
    .ok ⟨frames, .complete (.object (before.set name v))⟩
  | _, _, _ => .error .malformedText

/-- The value of a text. -/
def read (text : String) : Except Failure Value := do
  let tokens ← Token.scan text
  let r ← tokens.foldlM Reader.step ⟨[], .value⟩
  match r.mode, r.frames with
  | .complete v, [] => .ok v
  | _, _ => .error .malformedText

end Minimization.Value
