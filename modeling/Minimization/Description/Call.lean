import Minimization.Description.Operand

/-!
# Operations by name

`Call.named` finds the operation of a name and gives it its operands. A name takes a certain number of
operands (`Call.operands?`); a trailing operand that is missing takes its default, and an operand of
the wrong kind is a failure.
-/

namespace Minimization.Call

/-- How many operands the operation of a name takes at least, and how many more at most, if there is a
limit. -/
def operands? : String → Option (Nat × Option Nat)
  | "vec_of" => some (0, none)
  | "mat_of" => some (1, none)
  | "mat_of_rows" | "num_rows" | "num_cols" | "num_elem" | "trp" | "sum" | "norm2" | "norm" | "copy"
  | "to_array" | "to_array_2d" => some (1, some 0)
  | "zeros" | "eye" | "normalize" | "normalize_inp" => some (1, some 1)
  | "rand" | "randn" => some (1, some 2)
  | "add" | "sub" | "add_inp" | "sub_inp" | "scale" | "scale_inp" | "elmmul" | "matmul"
  | "elemwise_inp" | "inner" | "dot" | "dist" | "get" => some (2, some 0)
  | "set_inp" => some (3, some 0)
  | _ => none

/-- Whether a number of operands is one that is taken. -/
def takes (limits : Nat × Option Nat) (count : Nat) : Bool :=
  limits.1 ≤ count &&
    match limits.2 with
    | none => true
    | some more => count ≤ limits.1 + more

/-- Arithmetic with two operands of which the second may be a number. -/
def withNumber (onArrays : Handle → Handle → Call Float) (onNumber : Handle → Float → Call Float)
    (onNumbers : Float → Float → Except Failure (Call Float)) (a b : Operand) :
    Except Failure (Call Float) := do
  match b.numeral?, a with
  | some v, .array h _ => return onNumber h (← v.toReal)
  | some v, a =>
    let y ← v.toReal
    match a.numeral? with
    | some u => onNumbers (← u.toReal) y
    | none => throw .wrongType
  | none, a =>
    let h ← a.stored
    return onArrays h (← b.stored)

/-- The product of two operands of which at least one is an array or both are numbers. -/
def scaling (a b : Operand) : Except Failure (Call Float) := do
  match a, b with
  | .array _ _, _ => return .scale a.arithmetic b.factor
  | _, .array _ _ => return .scale b.arithmetic a.factor
  | .value u, .value v => return .number (← (← u.mul v).toReal)
  | _, _ => throw .wrongType

/-- The matrix product of two operands. The left one is looked at first. -/
def matrixProduct (a b : Operand) : Except Failure (Call Float) := do
  let h ← a.stored
  match a with
  | .array _ t => if t.rank = 0 then throw .outOfRange
  | _ => pure ()
  return .product h (← b.stored)

/-- Another entry at the position that an operand is, or, if it is a list, at one position after the other. -/
def setting (h : Handle) (i x : Operand) : Except Failure (Call Float) :=
  match i with
  | .value (.list _) => do
    let v ← x.entry
    return .setEachInPlace h (← i.positions) v
  | _ => return .setInPlace h (← i.positions).head? x.entry

/-- The operation of a name with as many operands as it takes. -/
def applied (name : String) (as : List Operand) : Except Failure (Call Float) := do
  match name, as with
  | "vec_of", as => return .vector (as.map Operand.source)
  | "mat_of", a :: as => return .matrix (← a.rows as.length) (as.map Operand.source)
  | "mat_of_rows", [a] => return .ofRows a.source
  | "zeros", a :: more => return .zeros (← a.extent) (← Operand.extent? more.head?)
  | "eye", a :: more =>
    return .identity (← a.extent) ((more.head?.map Operand.factor).getD (.number (.ok 1.0)))
  | "rand", a :: more =>
    let g ← Operand.random more[1]?
    return .drawn (← a.extent) (← Operand.extent? more.head?) fun n => (g.units n).map Prod.fst
  | "randn", a :: more =>
    let g ← Operand.random more[1]?
    return .drawn (← a.extent) (← Operand.extent? more.head?) fun n => (g.normals n).map Prod.fst
  | "num_rows", [a] => return .rowCount (← a.stored)
  | "num_cols", [a] => return .columnCount (← a.stored)
  | "num_elem", [a] => return .size (← a.stored)
  | "add", [a, b] => withNumber .add .addNumber (fun x y => .ok (.number (x + y))) a b
  | "sub", [a, b] => withNumber .sub .subNumber (fun x y => .ok (.number (x - y))) a b
  | "add_inp", [a, b] => return .addInPlace (← a.stored) (← b.stored)
  | "sub_inp", [a, b] => return .subInPlace (← a.stored) (← b.stored)
  | "scale", [a, b] => scaling a b
  | "scale_inp", [a, b] =>
    match a with
    | .array h _ => return .scaleInPlace h b.factorInto
    | a => scaling a b
  | "elmmul", [a, b] => return .multiply (← a.stored) (← b.stored)
  | "matmul", [a, b] => matrixProduct a b
  | "trp", [a] => return .transpose (← a.stored)
  | "elemwise_inp", [a, f] => return .mapInPlace (← a.stored) f.asFunction
  | "inner", [a, b] | "dot", [a, b] => return .inner (← a.stored) (← b.stored)
  | "sum", [a] => return .sum a.arithmetic
  | "norm2", [a] => return .normSquared (← a.stored)
  | "norm", [a] => return .norm (← a.stored)
  | "dist", [a, b] => withNumber .dist .distNumber (fun _ _ => .error .noMember) a b
  | "normalize", a :: more => return .normalize a.source (Operand.bound more.head?)
  | "normalize_inp", a :: more => return .normalizeInPlace (← a.stored) (Operand.bound more.head?)
  | "get", [a, i] =>
    let h ← a.stored
    match a with
    | .array _ t => return .get h (← i.position t)
    | _ => throw .noMember
  | "set_inp", [a, i, x] => setting (← a.stored) i x
  | "copy", [a] => return .copy a.source
  | "to_array", [a] => return .toVector a.source
  | "to_array_2d", [a] => return .toPlane (← a.stored)
  | _, _ => throw .wrongType

/-- The shape of a drawn array, for the operands that it would be drawn with. -/
def drawnShape (as : List Operand) : Except Failure (List Nat) := do
  match as with
  | a :: more =>
    if 2 < more.length then throw .wrongType
    let shape ← Tensor.planarShape (← a.extent) (← Operand.extent? more.head?)
    Tensor.room shape
    return shape
  | [] => throw .wrongType

/-- The operation of a name with its operands. -/
def named (name : String) (as : List Operand) : Except Failure (Call Float) :=
  match operands? name with
  | none => .error .noMember
  | some limits => if takes limits as.length then applied name as else .error .wrongType

end Minimization.Call
