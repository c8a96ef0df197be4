import ClosureConversion.NameMap
import ClosureConversion.Ty.Basic
import ClosureConversion.Ty.Order
import ClosureConversion.Ty.Spelling
import ClosureConversion.Text.Lines
import ClosureConversion.Text.Words
import ClosureConversion.Text.Literal
import ClosureConversion.Decimal.Notation
import ClosureConversion.Json.Parser
import ClosureConversion.Json.Printer
import ClosureConversion.Json.Record
import ClosureConversion.Report.Printer
import ClosureConversion.Ty.Json
import ClosureConversion.Tree.Json
import ClosureConversion.Tree.Build
import ClosureConversion.Options
import ClosureConversion.ConvertError
import ClosureConversion.Usage.Basic
import ClosureConversion.Scope.Assignment
import ClosureConversion.Inference.Table
import ClosureConversion.Effects.Analysis
import ClosureConversion.Capture.Resolve
import ClosureConversion.BodyPlan
import ClosureConversion.Emit.Context
import ClosureConversion.Emit.Closure
import ClosureConversion.Emit.Render
import ClosureConversion.Emit.Stmt
import ClosureConversion.Conversion
import ClosureConversion.Text.Uppercase
import ClosureConversion.Toml.Basic
import ClosureConversion.Toml.Parser
import ClosureConversion.Configuration
import ClosureConversion.Conversion.Json
import ClosureConversion.Files
import ClosureConversion.CommandLine.Arguments
import ClosureConversion.CommandLine.Explanation
import ClosureConversion.CommandLine.Manual
import ClosureConversion.CommandLine.Run
import ClosureConversion.Main
import ClosureConversion.Proofs.Usage.Mentions
import ClosureConversion.Proofs.Usage.Specification
import ClosureConversion.Proofs.Conversion.Fallibility
import ClosureConversion.Proofs.Scope.Layers
import ClosureConversion.Proofs.Scope.Confinement
import ClosureConversion.Proofs.Emit.Entry
import ClosureConversion.Proofs.Emit.Heredity
import ClosureConversion.Proofs.Emit.Opening
import ClosureConversion.Proofs.Emit.Run
import ClosureConversion.Proofs.Emit.Confinement
import ClosureConversion.Proofs.Emit.Steps
import ClosureConversion.Proofs.Emit.Nested
import ClosureConversion.Proofs.Emit.Expressions
import ClosureConversion.Proofs.Emit.Statements
import ClosureConversion.Proofs.Capture.Threading
import ClosureConversion.Proofs.Emit.Stores
import ClosureConversion.Proofs.Capture.Enclosing
import ClosureConversion.Proofs.Conversion.Settling
import ClosureConversion.Proofs.Scope.Stacks
import ClosureConversion.Proofs.Scope.Operations
import ClosureConversion.Proofs.Scope.Declarations
import ClosureConversion.Proofs.Scope.Spellings
import ClosureConversion.Proofs.Emit.Exits
import ClosureConversion.Proofs.Emit.Balanced
import ClosureConversion.Proofs.Emit.Edits
import ClosureConversion.Proofs.Emit.Composed
import ClosureConversion.Proofs.Emit.Tidy
import ClosureConversion.Proofs.Conversion.StackDiscipline
import ClosureConversion.Proofs.Conversion.ContainerNames
import ClosureConversion.Proofs.Conversion.Accounting
import ClosureConversion.Proofs.Conversion.ReturnTypes
import ClosureConversion.Proofs.Capture.Partition
import ClosureConversion.Proofs.Json.Reordering
import ClosureConversion.Proofs.Tree.RoundTrip
import ClosureConversion.Proofs.Conversion.SelfCalls
import ClosureConversion.Proofs.Ty.Wildcards
import ClosureConversion.Proofs.Ty.Joins
import ClosureConversion.Proofs.Conversion.FailedSynthesis
import ClosureConversion.Proofs.Emit.Finally
import ClosureConversion.Proofs.Inference.WellFormed
import ClosureConversion.Proofs.Scope.Blocks
import ClosureConversion.Proofs.Usage.Recursion
import ClosureConversion.Proofs.Scope.Aliases
import ClosureConversion.Proofs.Closure.Fields
import ClosureConversion.Proofs.Emit.Calls
import ClosureConversion.Proofs.Scope.Retention
import ClosureConversion.Proofs.Capture.Recapture
import ClosureConversion.Proofs.Effects.Sites
import ClosureConversion.Proofs.Effects.Faults
import ClosureConversion.Proofs.Effects.Backing
import ClosureConversion.Proofs.Effects.Verdicts
import ClosureConversion.Proofs.Effects.Agreement
import ClosureConversion.Proofs.Emit.Formats
import ClosureConversion.Proofs.Code.Reindentation
import ClosureConversion.Proofs.Conversion.Refinement
import ClosureConversion.Proofs.Effects.Traversal
import ClosureConversion.Proofs.Text.Words
import ClosureConversion.Proofs.Scope.Claims
import ClosureConversion.Proofs.Scope.Links
