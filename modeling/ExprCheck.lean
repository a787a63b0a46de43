import ExprCheck.Proofs.Admissible
import ExprCheck.Proofs.Agreement
import ExprCheck.Proofs.Arithmetic
import ExprCheck.Proofs.Bits
import ExprCheck.Proofs.Comparisons
import ExprCheck.Proofs.Counted
import ExprCheck.Proofs.Erased
import ExprCheck.Proofs.Failures
import ExprCheck.Proofs.Functions
import ExprCheck.Proofs.Identity
import ExprCheck.Proofs.Inlined
import ExprCheck.Proofs.Instances
import ExprCheck.Proofs.Levels
import ExprCheck.Proofs.Lines
import ExprCheck.Proofs.Literals
import ExprCheck.Proofs.Negated
import ExprCheck.Proofs.Places
import ExprCheck.Proofs.Quoted
import ExprCheck.Proofs.Ranges
import ExprCheck.Proofs.Shortest
import ExprCheck.Proofs.Single
import ExprCheck.Proofs.Spaces
import ExprCheck.Proofs.Stops
import ExprCheck.Proofs.Swapped
import ExprCheck.Proofs.Symmetry
import ExprCheck.Proofs.Tupled
import ExprCheck.Proofs.Unfolded
import ExprCheck.Token.Scan
