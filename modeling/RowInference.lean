import RowInference.Codec.Decoder
import RowInference.Codec.Info
import RowInference.Codec.Module
import RowInference.Codec.Tree
import RowInference.Codec.Types
import RowInference.CommandLine.Arguments
import RowInference.CommandLine.Run
import RowInference.Diagnostic.Basic
import RowInference.Diagnostic.Code
import RowInference.Diagnostic.Editor
import RowInference.Diagnostic.Text
import RowInference.Engine
import RowInference.Folder
import RowInference.Input
import RowInference.Json.Basic
import RowInference.Json.Number
import RowInference.Json.Reader
import RowInference.Json.Writer
import RowInference.Log.Event
import RowInference.Log.Level
import RowInference.Main
import RowInference.Number.Double
import RowInference.Number.Shortest
import RowInference.Proofs.Types.Reading
import RowInference.Proofs.Types.Row
import RowInference.Settings
import RowInference.Span
import RowInference.Substitution
import RowInference.Text.Blank
import RowInference.Text.Cased
import RowInference.Text.CodeRange
import RowInference.Text.Lines
import RowInference.Text.Lower
import RowInference.Text.Quoted
import RowInference.Text.Shown
import RowInference.Toml.Quoted
import RowInference.Toml.Reader
import RowInference.Toml.Scalar
import RowInference.Toml.Value
import RowInference.Tree.Expr
import RowInference.Tree.Module
import RowInference.Tree.Operator
import RowInference.Tree.Pattern
import RowInference.Types.Basic
import RowInference.Types.Letters
import RowInference.Types.Normal
import RowInference.Types.Outline
import RowInference.Types.Printer
import RowInference.Types.Scheme
import RowInference.Types.Variable
import RowInference.Typing.Checker
import RowInference.Typing.Declaration
import RowInference.Typing.Environment
import RowInference.Typing.Error
import RowInference.Typing.Expr
import RowInference.Typing.ModuleGraph
import RowInference.Typing.Pattern
import RowInference.Typing.Prelude
import RowInference.Typing.State
import RowInference.Unification
import RowInference.Proofs.Substitution.Application
import RowInference.Proofs.Substitution.Extension
import RowInference.Proofs.Substitution.Expansion
import RowInference.Proofs.Runs
import RowInference.Proofs.Unification.Derivation
import RowInference.Proofs.Unification.Rows
import RowInference.Proofs.Types.Signature
import RowInference.Proofs.Unification.Soundness
import RowInference.Proofs.Types.Kinding
import RowInference.Proofs.Types.Admissible
import RowInference.Proofs.Unification.Kinds
import RowInference.Proofs.Unification.Tails
import RowInference.Proofs.Unification.Principal
import RowInference.Proofs.Unification.Completeness
import RowInference.Proofs.Inference.Script
import RowInference.Proofs.Inference.Discipline
import RowInference.Proofs.Inference.Walk
import RowInference.Proofs.Types.Instantiation
import RowInference.Proofs.Inference.Knowledge
import RowInference.Proofs.Tree.Annotation
import RowInference.Proofs.Inference.Consistency
import RowInference.Proofs.Inference.Completion
import RowInference.Proofs.Inference.Scopes
import RowInference.Proofs.Modules.Marks
import RowInference.Proofs.Modules.Checking
import RowInference.Proofs.Modules.Soundness
import RowInference.Proofs.Modules.Results
import RowInference.Proofs.Inference.Layout
import RowInference.Proofs.Modules.Rows
import RowInference.Proofs.Unification.Applications
import RowInference.Proofs.Modules.Inferences
import RowInference.Proofs.Inference.Moments
import RowInference.Proofs.Codec.RoundTrip
import RowInference.Proofs.Types.Shift
import RowInference.Proofs.Types.Variants
import RowInference.Proofs.Unification.Shift
import RowInference.Proofs.Inference.Shift
import RowInference.Proofs.Modules.Locality
import RowInference.Proofs.Inference.Attainment
import RowInference.Proofs.Tree.Height
import RowInference.Proofs.Inference.Guidance.Patterns
import RowInference.Proofs.Inference.Guidance.Expressions
import RowInference.Proofs.Modules.Principality
import RowInference.Proofs.Unification.Unifier
import RowInference.Proofs.Unification.Confinement
import RowInference.Proofs.Unification.Balance
import RowInference.Proofs.Unification.Termination
import RowInference.Proofs.Types.Stacking
import RowInference.Proofs.Unification.Generality
import RowInference.Proofs.Unification.Symmetry
import RowInference.Proofs.Inference.Nesting
import RowInference.Proofs.Inference.Lockstep
import RowInference.Proofs.Tree.Style
import RowInference.Proofs.Inference.Recasting
import RowInference.Proofs.Modules.Presentation
import RowInference.Proofs.Modules.Queries
import RowInference.Proofs.Types.Relabelling
import RowInference.Proofs.Types.Letters
import RowInference.Proofs.Types.Numbering
import RowInference.Proofs.Types.Normal
import RowInference.Proofs.Types.Generalization
import RowInference.Proofs.Printing.Names
import RowInference.Proofs.Printing.Reader
import RowInference.Proofs.Printing.Faithfulness
import RowInference.Proofs.Substitution.Schemes
import RowInference.Proofs.Tree.Traversal
import RowInference.Proofs.Diagnostic.Snippet
