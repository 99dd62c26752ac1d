import Minimization.Description.Call
import Minimization.Tensor.Step

/-!
# Programs over named arrays

A `Session` is a store with names for its arrays; several names may stand for one array. It also has the
functions of one number that its programs can name. An `Instruction` applies the operation of a name to
operands, and may give the array that is the result another name. A program is a list of instructions. An
instruction that fails is passed over.
-/

namespace Minimization

/-- The operation of a name with its operands, and the name for the array that is its result. -/
structure Instruction where
  operation : String
  operands : List Value
  result? : Option String

/-- Arrays and names for them, and functions with names. -/
structure Session where
  functions : Operand.Functions
  names : Fields Handle
  store : Store Float
  inside : ∀ {name h}, names.get? name = some h → h < store.arrays.length

namespace Session

/-- The session without arrays, with the functions that have a name. -/
def empty : Session := ⟨Operand.function?, [], .empty, nofun⟩

/-- What a name shows: the contents of the array that it stands for. -/
def array? (σ : Session) (name : String) : Option (Tensor Float) :=
  (σ.names.get? name).bind (σ.store.arrays[·]?)

/-- The call that an instruction stands for. -/
def call (σ : Session) (i : Instruction) : Except Failure (Call Float) := do
  Call.named i.operation (← i.operands.mapM (Operand.readBy σ.functions σ.names σ.store))

/-- Some names, with a name for an array that is a result. -/
def named (names : Fields Handle) (result? : Option String) :
    Except Failure (Outcome Float) → Fields Handle
  | .ok (.array h) =>
    match result? with
    | some name => names.set name h
    | none => names
  | _ => names

theorem get?_named {names : Fields Handle} {result? : Option String}
    {r : Except Failure (Outcome Float)} {name : String} {h : Handle}
    (hget : (named names result? r).get? name = some h) :
    names.get? name = some h ∨ r = .ok (.array h) := by
  unfold named at hget
  split at hget
  next made =>
    split at hget
    next result =>
      by_cases hname : name = result
      · rw [hname, Fields.get?_set_self] at hget
        exact .inr (by rw [Option.some.inj hget])
      · rw [Fields.get?_set_of_ne _ _ hname] at hget
        exact .inl hget
    next => exact .inl hget
  next => exact .inl hget

/-- Carries out a call and names its result. -/
def carryOut (p : Precision) (σ : Session) (c : Call Float) (result? : Option String) :
    Except Failure (Outcome Float) × Session :=
  let r := c.run p σ.store
  (r.1, {
    functions := σ.functions
    names := named σ.names result? r.1
    store := r.2
    inside := fun hget => by
      have hleads := c.leads p σ.store
      rcases get?_named hget with hold | hmade
      · exact Nat.lt_of_lt_of_le (σ.inside hold) hleads.length_le
      · rw [hmade] at hleads
        exact hleads.lt_length })

/-- Performs an instruction. -/
def perform (p : Precision) (σ : Session) (i : Instruction) :
    Except Failure (Outcome Float) × Session :=
  match σ.call i with
  | .error e => (.error e, σ)
  | .ok c => σ.carryOut p c i.result?

/-- The session after a program. -/
def after (p : Precision) (σ : Session) (program : List Instruction) : Session :=
  program.foldl (fun σ i => (σ.perform p i).2) σ

end Session

end Minimization
