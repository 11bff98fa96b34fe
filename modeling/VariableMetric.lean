import VariableMetric.Algebra.Definite
import VariableMetric.Algebra.Eigenvalue
import VariableMetric.Algebra.Factors
import VariableMetric.Algebra.LinearSystem
import VariableMetric.Algebra.NdArray
import VariableMetric.Algebra.Secant
import VariableMetric.Algebra.Shaped
import VariableMetric.Algebra.Stack
import VariableMetric.Algebra.Tridiagonal
import VariableMetric.Algebra.Vec
import VariableMetric.Backtracking
import VariableMetric.Backtracking.Probe
import VariableMetric.Binary.Double
import VariableMetric.Binary.Rounding
import VariableMetric.Datum.Basic
import VariableMetric.Datum.Number
import VariableMetric.Datum.Operand
import VariableMetric.Datum.Printer
import VariableMetric.Datum.Reader
import VariableMetric.Decimal.Printer
import VariableMetric.Decimal.Reader
import VariableMetric.Decimal.Rounded
import VariableMetric.Decimal.Shortest
import VariableMetric.Descent.Basic
import VariableMetric.Descent.Partners
import VariableMetric.Descent.Run
import VariableMetric.Dialogue
import VariableMetric.Expression.Basic
import VariableMetric.Expression.Graph
import VariableMetric.Expression.Precision
import VariableMetric.Fault
import VariableMetric.Logging.Command
import VariableMetric.Logging.Field
import VariableMetric.Logging.Handler
import VariableMetric.Logging.Level
import VariableMetric.Logging.Record
import VariableMetric.Logging.Registry
import VariableMetric.Logging.Template
import VariableMetric.Logging.Tree
import VariableMetric.Objective.Basic
import VariableMetric.Objective.Formula
import VariableMetric.Options
import VariableMetric.Options.Workshop
import VariableMetric.Report.Figures
import VariableMetric.Report.Observer
import VariableMetric.Report.Remarks
import VariableMetric.Scalar
import VariableMetric.Session
import VariableMetric.Text.Blank
import VariableMetric.Text.Digit
import VariableMetric.Text.Lines
import VariableMetric.Text.Printable
import VariableMetric.Text.Quoted
import VariableMetric.Text.Word
import VariableMetric.Proofs.Fallible
import VariableMetric.Proofs.Course
import VariableMetric.Proofs.Definite
import VariableMetric.Proofs.Secant
import VariableMetric.Proofs.Variables
import VariableMetric.Proofs.Search
import VariableMetric.Proofs.Heads
import VariableMetric.Proofs.Comparison
import VariableMetric.Proofs.Extended
import VariableMetric.Proofs.Records
import VariableMetric.Proofs.Direction
import VariableMetric.Proofs.Monotone
import VariableMetric.Proofs.Ending
import VariableMetric.Proofs.Functions
import VariableMetric.Proofs.Oracle
import VariableMetric.Proofs.Tally
import VariableMetric.Proofs.Trace
import VariableMetric.Proofs.Evaluations
import VariableMetric.Proofs.LockStep
import VariableMetric.Proofs.Stopping
import VariableMetric.Proofs.Motion
import VariableMetric.Proofs.Translation
import VariableMetric.Proofs.Equivariance
import VariableMetric.Proofs.Projection
import VariableMetric.Proofs.Adapters
import VariableMetric.Proofs.PlainSearch
import VariableMetric.Proofs.SplitSearch
import VariableMetric.Proofs.Pace
import VariableMetric.Proofs.Quadratic
import VariableMetric.Proofs.Overshoot
import VariableMetric.Proofs.Parabola
import VariableMetric.Proofs.Persistence
import VariableMetric.Proofs.Crossing
import VariableMetric.Proofs.Termination
import VariableMetric.Proofs.FirstDecrease
import VariableMetric.Proofs.Registry
import VariableMetric.Proofs.Validity
import VariableMetric.Proofs.Oversized
import VariableMetric.Proofs.Quantities
import VariableMetric.Proofs.Interruption
import VariableMetric.Proofs.Replies
import VariableMetric.Proofs.Failure
import VariableMetric.Proofs.Units
import VariableMetric.Proofs.Product
import VariableMetric.Proofs.Shortening
import VariableMetric.Proofs.Stall
import VariableMetric.Proofs.Nonfinite
import VariableMetric.Proofs.Slope
import VariableMetric.Proofs.Named
import VariableMetric.Proofs.Overrides
import VariableMetric.Proofs.Deeds
import VariableMetric.Proofs.Obedience
import VariableMetric.Proofs.Ridge
import VariableMetric.Proofs.Eigenvalues
import VariableMetric.Proofs.Sweep
import VariableMetric.Proofs.Derivative
import VariableMetric.Proofs.Tracked
import VariableMetric.Proofs.Significant
import VariableMetric.Proofs.Numerals
import VariableMetric.Proofs.Printed
import VariableMetric.Proofs.Columns
import VariableMetric.Proofs.Table
