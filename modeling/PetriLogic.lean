import PetriLogic.CommandLine.Check
import PetriLogic.CommandLine.Folder
import PetriLogic.CommandLine.Options
import PetriLogic.Decimal.Shortest
import PetriLogic.Fault
import PetriLogic.Formula.Basic
import PetriLogic.Formula.Display
import PetriLogic.Formula.Evaluation
import PetriLogic.Formula.Extent
import PetriLogic.Formula.Json
import PetriLogic.Formula.Reading
import PetriLogic.Grammar.Problem
import PetriLogic.Grammar.Rule
import PetriLogic.Grammar.Unread
import PetriLogic.Json.Numeral
import PetriLogic.Json.Problem
import PetriLogic.Json.Reader
import PetriLogic.Json.Tree
import PetriLogic.Json.Value
import PetriLogic.Labels
import PetriLogic.Main
import PetriLogic.Net.Basic
import PetriLogic.Net.Description
import PetriLogic.Net.Dot
import PetriLogic.Net.Edit
import PetriLogic.Net.Json
import PetriLogic.Node
import PetriLogic.Node.Json
import PetriLogic.Path.Basic
import PetriLogic.Path.Enumeration
import PetriLogic.Path.Json
import PetriLogic.Predicate.Basic
import PetriLogic.Predicate.Display
import PetriLogic.Predicate.Evaluation
import PetriLogic.Predicate.Json
import PetriLogic.Predicate.Reading
import PetriLogic.Proofs.Formula.Agreement
import PetriLogic.Proofs.Formula.Bracketing
import PetriLogic.Proofs.Formula.Context
import PetriLogic.Proofs.Formula.Derived
import PetriLogic.Proofs.Formula.Expansion
import PetriLogic.Proofs.Formula.Locality
import PetriLogic.Proofs.Formula.Normal
import PetriLogic.Proofs.Formula.Polarity
import PetriLogic.Proofs.Formula.Reading
import PetriLogic.Proofs.Formula.Renumbering
import PetriLogic.Proofs.Formula.Spelling
import PetriLogic.Proofs.Grammar.Choice
import PetriLogic.Proofs.Grammar.Layout
import PetriLogic.Proofs.Grammar.Result
import PetriLogic.Proofs.Json.Codec
import PetriLogic.Proofs.Json.Scalar
import PetriLogic.Proofs.Json.Shape
import PetriLogic.Proofs.Net.Consistency
import PetriLogic.Proofs.Net.Construction
import PetriLogic.Proofs.Net.Operations
import PetriLogic.Proofs.Net.Rebuilding
import PetriLogic.Proofs.Net.SameGraph
import PetriLogic.Proofs.Net.Walks
import PetriLogic.Proofs.Path.Completions
import PetriLogic.Proofs.Path.DepthFirst
import PetriLogic.Proofs.Path.Enumeration
import PetriLogic.Proofs.Path.Limit
import PetriLogic.Proofs.Path.Loops
import PetriLogic.Proofs.Path.Region
import PetriLogic.Proofs.Path.Renumbering
import PetriLogic.Proofs.Predicate.Layout
import PetriLogic.Proofs.Predicate.Normal
import PetriLogic.Proofs.Predicate.Reading
import PetriLogic.Proofs.Temporal.Agreement
import PetriLogic.Proofs.Temporal.Alternation
import PetriLogic.Proofs.Temporal.Anchors
import PetriLogic.Proofs.Temporal.Eventually
import PetriLogic.Proofs.Temporal.ExistsUntil
import PetriLogic.Proofs.Temporal.ForallUntil
import PetriLogic.Proofs.Temporal.Removal
import PetriLogic.Proofs.Temporal.Renumbering
import PetriLogic.Proofs.Verification.SameGraph
import PetriLogic.Temporal.Next
import PetriLogic.Temporal.Until
import PetriLogic.Temporal.Walk
import PetriLogic.Text.Alphanumeric
import PetriLogic.Text.Basic
import PetriLogic.Text.Shown
import PetriLogic.Verification.Config
import PetriLogic.Verification.FormulaFile
import PetriLogic.Verification.Json
import PetriLogic.Verification.Report
import PetriLogic.Verification.Verifier
import PetriLogic.Proofs.Temporal.Next
import PetriLogic.Proofs.Grammar.Postcondition
import PetriLogic.Proofs.Predicate.Acceptance
import PetriLogic.Proofs.Formula.Canonical
import PetriLogic.Proofs.Formula.Leaf
import PetriLogic.Proofs.Predicate.Precedence
import PetriLogic.Proofs.Formula.Scope
import PetriLogic.Proofs.Temporal.Inspection
import PetriLogic.Proofs.Temporal.Closure
import PetriLogic.Proofs.Net.Updates
import PetriLogic.Proofs.Net.Reading
import PetriLogic.Proofs.Verification.Run
import PetriLogic.Proofs.Formula.Writing
import PetriLogic.Proofs.Text.Lines
import PetriLogic.Proofs.Verification.FormulaFile
import PetriLogic.Proofs.Net.Dot
import PetriLogic.Proofs.Path.Positions
import PetriLogic.Proofs.Path.Rounds
import PetriLogic.Proofs.Path.Parity
import PetriLogic.Proofs.Formula.Checked
