import Milp.Num.Shortest
import Milp.Num.Text
import Milp.Scalar
import Milp.Variable
import Milp.Expr.Basic
import Milp.Constraint
import Milp.Text.Quoted
import Milp.Sense
import Milp.Model.Error
import Milp.Vec
import Milp.Solver.Option
import Milp.Event
import Milp.Model.Basic
import Milp.Model.Call
import Milp.Solver.Dummy
import Milp.Solver.Problem
import Milp.Solver.Outcome
import Milp.Solver.Highs
import Milp.Num.Exact
import Milp.Num.Order
import Milp.Lp.Simplex
import Milp.Lp.Branch
import Milp.Lp.Dual
import Milp.Lp.Reduce
import Milp.Lp.Solve
import Milp.Lp.Library
import Milp.Solver.Backend
import Milp.Report.Json
import Milp.Script.Form
import Milp.Script.Request
import Milp.Script.Run
import Milp.Proofs.Calls
import Milp.Proofs.Rows
import Milp.Proofs.WellFormed
import Milp.Proofs.Refusals
import Milp.Proofs.Attributes
import Milp.Proofs.ExactObjective
import Milp.Proofs.Snapshot
import Milp.Proofs.Traversal
import Milp.Proofs.Handoff
import Milp.Proofs.Options
import Milp.Proofs.Evaluation
import Milp.Proofs.Bounds
import Milp.Proofs.Finiteness
import Milp.Proofs.Blocks
import Milp.Proofs.SignedZero
import Milp.Proofs.ObjectiveView
import Milp.Proofs.MergeAgreement
import Milp.Proofs.Growth
import Milp.Proofs.BuildRefusals
import Milp.Proofs.SolveOnce
