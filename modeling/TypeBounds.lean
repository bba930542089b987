import TypeBounds.Command.FileTree
import TypeBounds.Command.Flag
import TypeBounds.Command.Invocation
import TypeBounds.Command.Run
import TypeBounds.Expr.Basic
import TypeBounds.Expr.Reader
import TypeBounds.Expr.Resolve
import TypeBounds.Expr.Token
import TypeBounds.Log.Line
import TypeBounds.Log.Logger
import TypeBounds.Main
import TypeBounds.Mistake
import TypeBounds.Mistake.Attributes
import TypeBounds.Mistake.Ledger
import TypeBounds.Order.Clash
import TypeBounds.Order.Extrema
import TypeBounds.Order.Lattice
import TypeBounds.Order.Subtype
import TypeBounds.Position
import TypeBounds.Problem
import TypeBounds.Problem.Constraints
import TypeBounds.Problem.Declare
import TypeBounds.Problem.Decode
import TypeBounds.Problem.Document
import TypeBounds.Report
import TypeBounds.Tally
import TypeBounds.Text.Base64
import TypeBounds.Text.Decimal
import TypeBounds.Text.Integer
import TypeBounds.Text.Printable
import TypeBounds.Text.Quoted
import TypeBounds.Ty
import TypeBounds.Ty.Printer
import TypeBounds.Ty.Same
import TypeBounds.Universe
import TypeBounds.Universe.Builtin
import TypeBounds.Variable.Buckets
import TypeBounds.Variable.Concurrent
import TypeBounds.Variable.Constraint
import TypeBounds.Variable.Pool
import TypeBounds.Variable.Result
import TypeBounds.Variable.Solve
import TypeBounds.Variable.Trace
import TypeBounds.Yaml.Cursor
import TypeBounds.Yaml.Decoding
import TypeBounds.Yaml.Name
import TypeBounds.Yaml.Node
import TypeBounds.Yaml.Node.Reader
import TypeBounds.Yaml.Scan
import TypeBounds.Yaml.Text
import TypeBounds.Yaml.Token
import TypeBounds.Yaml.Value
import TypeBounds.Proofs.Growth
import TypeBounds.Proofs.Ancestry
import TypeBounds.Proofs.Hierarchy
import TypeBounds.Proofs.Order
import TypeBounds.Proofs.PartialOrder
import TypeBounds.Proofs.Sketch
import TypeBounds.Proofs.Consistency
import TypeBounds.Proofs.Closure
import TypeBounds.Proofs.Extrema
import TypeBounds.Proofs.Bounds
import TypeBounds.Proofs.Solution
import TypeBounds.Proofs.Independence
import TypeBounds.Proofs.Failure
import TypeBounds.Proofs.NearestBase
import TypeBounds.Proofs.Meeting
import TypeBounds.Proofs.Associativity
import TypeBounds.Proofs.Bracketing
import TypeBounds.Proofs.Scanning
import TypeBounds.Proofs.Reading
import TypeBounds.Proofs.Spelling
import TypeBounds.Proofs.Grammar
import TypeBounds.Proofs.RoundTrip
import TypeBounds.Proofs.Declaring
import TypeBounds.Proofs.Rejection
import TypeBounds.Proofs.Loading
import TypeBounds.Proofs.Pool
import TypeBounds.Proofs.Concurrent
import TypeBounds.Proofs.Cancellation
import TypeBounds.Proofs.Commutativity
import TypeBounds.Proofs.Verdicts
import TypeBounds.Proofs.Faults
import TypeBounds.Proofs.Totality
import TypeBounds.Proofs.SharedLists
import TypeBounds.Proofs.Sections
import TypeBounds.Proofs.Counting
import TypeBounds.Proofs.Whereabouts
import TypeBounds.Proofs.Unquoted
