import Minimization.Description.Tensor
import Minimization.Function.Formula
import Minimization.Value.Printer

/-!
# Formulas described by values

A number describes itself; a list describes the operation that its first item names, applied to the
others. Nodes that can be made to fail are numbered in the order in which they are read.
-/

namespace Minimization

/-- The numbers that the next node and the next batch of data get. -/
structure Numbering where
  nodes : Nat
  batches : Nat

/-- Reading a description: it can fail, and it gives out numbers. -/
abbrev Reading := StateT Numbering (Except Failure)

namespace Reading

/-- A number for a node. -/
def node : Reading Nat := do
  let n ← get
  set { n with nodes := n.nodes + 1 }
  return n.nodes

/-- A number for a batch. -/
def batch : Reading Nat := do
  let n ← get
  set { n with batches := n.batches + 1 }
  return n.batches

end Reading

/-- The elementary function of a name. -/
def Elementary.named? : String → Option Elementary
  | "neg" => some .negative
  | "abs" => some .absolute
  | "sqrt" => some .squareRoot
  | "log" => some .logarithm
  | "exp" => some .exponential
  | "sin" => some .sine
  | "cos" => some .cosine
  | _ => none

namespace Formula

/-- The operation of a name, for its arguments as values and as readings of formulas. -/
def operation (name : String) (values : List Value) (formulas : List (Reading Formula)) :
    Reading Formula :=
  match name, values, formulas with
  | "x", [i], _ => return .coordinate i.toExtent.toOption
  | "const", [v], _ => return .value v
  | "refmod", [n], _ => return .published n
  | "raise_at", [turn, message, _], [_, _, e] => do
    let node ← Reading.node
    return .failingAt node turn message.display (← e)
  | "+", _, e :: es => do return .sum (← e) (← es.mapM id)
  | "*", _, e :: es => do return .product (← e) (← es.mapM id)
  | "-", _, [a, b] => do return .difference (← a) (← b)
  | "/", _, [a, b] => do return .quotient (← a) (← b)
  | "iflt", _, [a, b, c, d] => do return .ifBelow (← a) (← b) (← c) (← d)
  | name, _, [e] =>
    match Elementary.named? name with
    | some f => do return .elementary f (← e)
    | none => throw .wrongType
  | _, _, _ => throw .wrongType

mutual

/-- The formula that a value describes. -/
def ofValue : Value → Reading Formula
  | .list (.text name :: args) => operation name args (ofValues args)
  | v => do return .value (.real (← v.toReal))

/-- The readings of some values as formulas. -/
def ofValues : List Value → List (Reading Formula)
  | [] => []
  | v :: vs => ofValue v :: ofValues vs

end

end Formula

end Minimization
