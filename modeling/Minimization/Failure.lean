import Minimization.Decimal.Shortest
import Minimization.Text.Quoted

/-!
# Causes of failure

One inductive type for everything that can go wrong while a problem is stated, a function evaluated, a
solver run or a configuration read. A failure is its cause; `Failure.message` words those causes that
the library itself detects. The others (a wrong kind of value, a division by zero, an index out of
range, …) have no words.
-/

namespace Minimization

/-- A shape in words: the extents in parentheses, a single extent followed by a comma. -/
def shapeText (shape : List Nat) : String :=
  match shape with
  | [n] => s!"({n},)"
  | _ => "(" ++ ", ".intercalate (shape.map toString) ++ ")"

/-- Arrays, points or gradients that disagree in size. -/
inductive SizeFailure where
  | shapes (operation : String) (left right : List Nat)
  | product (left right : List Nat)
  | innerProduct (left right : Nat)
  | rows (count : Nat) (rows : String)
  | notRows (rank : Nat)
  | gradient (gradient iterate : Nat)
  | multipliers (constraints : Nat) (shape : List Nat)
  | start (size : Nat) (dimension : String)
  deriving DecidableEq, Repr

/-- The words of a size failure. -/
def SizeFailure.message : SizeFailure → String
  | .shapes operation left right =>
    s!"{operation}: shape mismatch {shapeText left} vs {shapeText right}"
  | .product left right => s!"matmul: shape mismatch {shapeText left} @ {shapeText right}"
  | .innerProduct left right => s!"inner: size mismatch {left} vs {right}"
  | .rows count wanted => s!"Cannot shape {count} values into {wanted} rows"
  | .notRows rank => s!"Rows must form a 2-D array, got ndim={rank}"
  | .gradient size iterate => s!"Gradient has {size} elements, iterate has {iterate}"
  | .multipliers constraints shape =>
    s!"Expected {constraints} multipliers, got shape {shapeText shape}"
  | .start size dimension =>
    s!"Initial guess has {size} elements, problem dimensionality is {dimension}"

/-- Problems that are incomplete or inconsistent. -/
inductive ProblemFailure where
  | noObjective
  | absentObjective
  | absentConstraint
  | dimension (dimension : String)
  | unpaired (constraints gradients : Nat)
  deriving DecidableEq, Repr

/-- The words of a problem failure. -/
def ProblemFailure.message : ProblemFailure → String
  | .noObjective => "Cannot build a problem without an objective; call set_objective() first"
  | .absentObjective => "objective must not be None"
  | .absentConstraint => "constraint must not be None"
  | .dimension n => s!"dimensionality must be >= 1, got {n}"
  | .unpaired constraints gradients =>
    s!"Got {constraints} constraints but {gradients} constraint gradients"

/-- Arguments outside what an operation accepts. -/
inductive ArgumentFailure where
  | differenceStep (step : Float)
  | sampleCount (count : String)
  | dataDimension (dimension : String)
  | noise (noise : Float)
  | designRank (rank : Nat)
  | targetShape (rows : Nat) (shape : List Nat)
  | batchSize (size : String)
  | notSquare (shape : List Nat)
  | centreRank (rank : Nat)
  | centreLength (size length : Nat)
  | quadraticDimension (dimension : String)
  | condition (condition : Float)
  | unnamedSolver (keys : String)
  | noInnerSolver (solver : String)
  | malformedOverride (item : String)
  | labelCount (labels histories : Nat)
  | notPlanar (dimension : Nat)

/-- The words of an argument failure. -/
def ArgumentFailure.message : ArgumentFailure → String
  | .differenceStep step => s!"h must be positive, got {Decimal.shortest step}"
  | .sampleCount count => s!"n must be >= 1, got {count}"
  | .dataDimension dimension => s!"dim must be >= 1, got {dimension}"
  | .noise level => s!"noise must be non-negative, got {Decimal.shortest level}"
  | .designRank rank => s!"A must be 2D, got ndim={rank}"
  | .targetShape rows shape => s!"b must have shape ({rows},), got {shapeText shape}"
  | .batchSize size => s!"batch_size must be >= 1, got {size}"
  | .notSquare shape => s!"B must be square, got shape {shapeText shape}"
  | .centreRank rank => s!"t must be 1D, got ndim={rank}"
  | .centreLength size length =>
    s!"Dimension mismatch: B is {size}x{size}, t has length {length}"
  | .quadraticDimension dimension => s!"dim must be >= 1, got {dimension}"
  | .condition number => s!"cond must be >= 1, got {Decimal.shortest number}"
  | .unnamedSolver keys => s!"Solver spec must name a class, got keys {keys}"
  | .noInnerSolver solver => s!"{solver} has no inner solver to configure"
  | .malformedOverride item => s!"Override must be key=value, got: {item}"
  | .labelCount labels histories => s!"Got {labels} labels for {histories} histories"
  | .notPlanar dimension => s!"Expected 2-D positions, got dimension {dimension}"

/-- What a function was expected to be when something else was handed over. -/
inductive FunctionRole where
  | scalar
  | vector
  deriving DecidableEq, Repr

/-- The word for a role. -/
def FunctionRole.name : FunctionRole → String
  | .scalar => "scalar"
  | .vector => "vector"

/-- Causes of failure. -/
inductive Failure where
  | size (cause : SizeFailure)
  | problem (cause : ProblemFailure)
  | argument (cause : ArgumentFailure)
  | noEvaluation (function : String)
  | noGradient (function : String)
  | notFunction (role : FunctionRole) (kind : String)
  | unsetParameter (quoted : String)
  | raised (message : String)
  | unknownName (name : String)
  | absent
  | wrongType
  | noMember
  | frozen
  | outOfRange
  | divisionByZero
  | overflow
  | outsideDomain
  | unreadable
  | incompatibleShapes
  | incompatibleKinds
  | noSingularValues
  | noMemory
  | impossibleExtent
  | raggedRows
  | negativeSeed
  | exhausted
  | malformedName
  | malformedText
  | malformedFormat
  | unknownModule
  | noFile

/-- The words of a failure, where it has any. -/
def Failure.message : Failure → Option String
  | .size cause => some cause.message
  | .problem cause => some cause.message
  | .argument cause => some cause.message
  | .noEvaluation function => some s!"{function} must override evaluate() or wrap a callable"
  | .noGradient function => some s!"{function} must override gradient() or be given one"
  | .notFunction role kind => some s!"Expected a callable {role.name} function, got {kind}"
  | .unsetParameter quoted => some s!"Hyperparameter {quoted} is not set"
  | .raised message => some message
  | .unknownName name => some name
  | _ => none

/-! ## Answers -/

section Yields

variable {β γ : Type} {P : β → Prop} {Q : γ → Prop}

/-- If there is an answer, the condition holds of it. -/
def Yields (P : β → Prop) : Except Failure β → Prop
  | .ok b => P b
  | .error _ => True

namespace Yields

theorem ok {b : β} (h : P b) : Yields P (.ok b) := h

theorem error (e : Failure) : Yields P (.error e) := trivial

theorem of_ok {x : Except Failure β} {b : β} (hx : Yields P x) (h : x = .ok b) : P b := by
  rwa [h] at hx

theorem mono {R : β → Prop} {x : Except Failure β} (hx : Yields P x) (h : ∀ b, P b → R b) :
    Yields R x := by
  rcases x with e | b
  · exact error e
  · exact h b hx

theorem bind {x : Except Failure β} {f : β → Except Failure γ} (hx : Yields P x)
    (hf : ∀ b, P b → Yields Q (f b)) : Yields Q (x >>= f) := by
  rcases x with e | b
  · exact error e
  · exact hf b hx

/-- An answer that does not matter for what is said. -/
theorem bind_any {x : Except Failure β} {f : β → Except Failure γ} (hf : ∀ b, Yields Q (f b)) :
    Yields Q (x >>= f) := by
  rcases x with e | b
  · exact error e
  · exact hf b

theorem ite {p : Prop} [Decidable p] {x y : Except Failure β} (hx : Yields P x) (hy : Yields P y) :
    Yields P (if p then x else y) := by
  split
  · exact hx
  · exact hy

/-- A fold keeps what its step keeps. -/
theorem foldlM {step : β → γ → Except Failure β} {cs : List γ} (hcs : ∀ c ∈ cs, Q c)
    (hstep : ∀ b c, P b → Q c → Yields P (step b c)) {b : β} (hb : P b) :
    Yields P (cs.foldlM step b) := by
  induction cs generalizing b with
  | nil => exact hb
  | cons c cs ih =>
    rw [List.foldlM_cons]
    exact bind (hstep b c hb (hcs c (List.mem_cons_self ..))) fun _ hb' =>
      ih (fun other hother => hcs other (List.mem_cons_of_mem c hother)) hb'

end Yields

end Yields

end Minimization
