import Minimization.Cell
import Minimization.Chart
import Minimization.Configuration.Catalogue
import Minimization.Configuration.Overrides
import Minimization.Configuration.Specification
import Minimization.Constrained.Barrier
import Minimization.Constrained.Multipliers
import Minimization.Constrained.Penalty
import Minimization.Constrained.Snapshot
import Minimization.Decimal.Binary
import Minimization.Decimal.Reader
import Minimization.Decimal.Rounded
import Minimization.Decimal.Shortest
import Minimization.Descent.History
import Minimization.Descent.LineSearch
import Minimization.Descent.Moments
import Minimization.Descent.Run
import Minimization.Description.Bench
import Minimization.Description.Call
import Minimization.Description.Operand
import Minimization.Description.Formula
import Minimization.Description.Function
import Minimization.Description.Problem
import Minimization.Description.Session
import Minimization.Description.Tensor
import Minimization.Failure
import Minimization.Fields
import Minimization.Function.Answer
import Minimization.Function.Basic
import Minimization.Function.Closed
import Minimization.Function.Difference
import Minimization.Function.Formula
import Minimization.Interface
import Minimization.Linear.Orthogonal
import Minimization.Linear.Singular
import Minimization.Log.Level
import Minimization.Log.Notice
import Minimization.Log.Registry
import Minimization.Objective.LeastSquares
import Minimization.Objective.Quadratic
import Minimization.Parameters.Settings
import Minimization.Parameters.Store
import Minimization.Parameters.Tables
import Minimization.Problem.Basic
import Minimization.Problem.Builder
import Minimization.Random.Generator
import Minimization.Random.Sample
import Minimization.Random.Seed
import Minimization.Random.Station
import Minimization.Scalar
import Minimization.Solver.Basic
import Minimization.Solver.Kind
import Minimization.Tensor.Access
import Minimization.Tensor.Arithmetic
import Minimization.Tensor.Basic
import Minimization.Tensor.Call
import Minimization.Tensor.Nested
import Minimization.Tensor.Product
import Minimization.Tensor.Reduction
import Minimization.Tensor.Step
import Minimization.Tensor.Store
import Minimization.Tensor.Stretch
import Minimization.Text.Blank
import Minimization.Text.Printable
import Minimization.Text.Quoted
import Minimization.Text.Directive
import Minimization.Text.Template
import Minimization.Value.Access
import Minimization.Value.Arithmetic
import Minimization.Value.Basic
import Minimization.Value.Printer
import Minimization.Value.Reader
import Minimization.Value.Token
import Minimization.Value.Writer
import Minimization.Proofs.Exact.Number
import Minimization.Proofs.Exact.Vector
import Minimization.Proofs.Perform
import Minimization.Proofs.Descent.Search
import Minimization.Proofs.Descent.Path
import Minimization.Proofs.Descent.Exact
import Minimization.Proofs.Descent.Decrease
import Minimization.Proofs.Constrained.Landscape
import Minimization.Proofs.Descent.Convex
import Minimization.Proofs.Constrained.Augmented
import Minimization.Proofs.Constrained.Stationary
import Minimization.Proofs.Constrained.Barrier
import Minimization.Proofs.Constrained.Interior
import Minimization.Proofs.Stateful
import Minimization.Proofs.Exact.Coordinate
import Minimization.Proofs.Problem.Pairing
import Minimization.Proofs.Random.Delivery
import Minimization.Proofs.Random.Publishing
import Minimization.Proofs.Descent.Moments
import Minimization.Proofs.Descent.StepBound
import Minimization.Proofs.Descent.Evaluations
import Minimization.Proofs.Descent.Projection
import Minimization.Proofs.Constrained.Rounds
import Minimization.Proofs.Solver.Stochastic
import Minimization.Proofs.Tensor.Rounding
import Minimization.Proofs.Descent.Entries
import Minimization.Proofs.Descent.Blocks
import Minimization.Proofs.Descent.Layout
import Minimization.Proofs.Solver.Recording
import Minimization.Proofs.Constrained.Scheme
import Minimization.Proofs.Constrained.Outer
import Minimization.Proofs.Constrained.Inner
import Minimization.Proofs.Constrained.Tolerance
import Minimization.Proofs.Constrained.Paired
import Minimization.Proofs.Constrained.Total
import Minimization.Proofs.Constrained.Shifted
import Minimization.Proofs.Outcome
import Minimization.Proofs.Tensor.Defined
import Minimization.Proofs.Problem.Evaluations
import Minimization.Proofs.Descent.Visits
import Minimization.Proofs.Solver.Unrecorded
import Minimization.Proofs.Places
import Minimization.Proofs.Descent.Desk
import Minimization.Proofs.Constrained.Desk
import Minimization.Proofs.Constrained.Records
import Minimization.Proofs.Descent.Failing
import Minimization.Proofs.Constrained.Failing
import Minimization.Proofs.Solver.Failing
import Minimization.Proofs.Tensor.Signs
import Minimization.Proofs.Descent.Succeeding
import Minimization.Proofs.Descent.Budget
import Minimization.Proofs.Constrained.Budget
import Minimization.Proofs.Float.Unpacked
import Minimization.Proofs.Float.Signs
import Minimization.Proofs.Exact.Signs
import Minimization.Proofs.Solver.Budget
import Minimization.Proofs.Constrained.Implied
import Minimization.Proofs.Configuration.Overrides
import Minimization.Proofs.Objective.Batches
import Minimization.Proofs.Configuration.Built
import Minimization.Proofs.Tensor.Entries
import Minimization.Proofs.Function.Survey
import Minimization.Proofs.Function.Probing
import Minimization.Proofs.Exact.Matrix
import Minimization.Proofs.Function.Quadratic
import Minimization.Proofs.Descent.Smooth
import Minimization.Proofs.Descent.Averages
import Minimization.Proofs.Float.Order
import Minimization.Proofs.Descent.Unordered
import Minimization.Proofs.Constrained.Violation
import Minimization.Proofs.Problem.Refused
import Minimization.Proofs.Objective.Expansion
import Minimization.Proofs.Objective.Spectrum
import Minimization.Proofs.Constrained.Push
import Minimization.Proofs.Descent.Rescaled
import Minimization.Proofs.Description.Session
import Minimization.Proofs.Tensor.Tables
import Minimization.Proofs.Tensor.Positions
import Minimization.Proofs.Tensor.Transposed
import Minimization.Proofs.Log.Meaning
import Minimization.Proofs.Log.Settings
import Minimization.Proofs.Tensor.Directions
import Minimization.Proofs.Chart.Figures
