import Lisplet.Expr.Distinct
import Lisplet.Main
import Lisplet.Reader.Pull
import Lisplet.Text.Utf8.RoundTrip
import Lisplet.Proofs.Grammar
import Lisplet.Proofs.Acceptance
import Lisplet.Proofs.Classification
import Lisplet.Proofs.EscapePairs
import Lisplet.Proofs.CanonicalText
import Lisplet.Proofs.Properness
import Lisplet.Proofs.Operands
import Lisplet.Proofs.Adequacy
import Lisplet.Proofs.Deeds
import Lisplet.Proofs.Traversal
import Lisplet.Proofs.Coupling
import Lisplet.Proofs.Blame
import Lisplet.Proofs.Language
import Lisplet.Proofs.Preservation
import Lisplet.Proofs.Effects
import Lisplet.Proofs.SessionInvariant
import Lisplet.Proofs.Balance
import Lisplet.Proofs.Stopping
import Lisplet.Proofs.Pulling
import Lisplet.Proofs.Delivery
import Lisplet.Proofs.CorrectPrefix
import Lisplet.Proofs.Cutting
import Lisplet.Proofs.Partition
import Lisplet.Proofs.Feeding
import Lisplet.Proofs.Inheritance
import Lisplet.Proofs.TextEvaluation
import Lisplet.Proofs.StackBounds
import Lisplet.Proofs.Reports
import Lisplet.Proofs.Answers
import Lisplet.Proofs.Agreement
import Lisplet.Proofs.Composition
import Lisplet.Proofs.LineEnds
import Lisplet.Proofs.Dependence
import Lisplet.Proofs.Debugging
import Lisplet.Proofs.Frame
import Lisplet.Proofs.Provenance
import Lisplet.Proofs.Failures
import Lisplet.Proofs.Totals
import Lisplet.Proofs.Division
import Lisplet.Proofs.Printing
import Lisplet.Proofs.SinglePass
import Lisplet.Proofs.Counting
