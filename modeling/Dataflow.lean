import Dataflow.Settings.Discovery
import Dataflow.Shell.Host
import Dataflow.Tracer.Script
import Dataflow.Workflow.Compile
import Dataflow.Workflow.Document
import Dataflow.Yaml.Writer
import Dataflow.Proofs.Named
import Dataflow.Proofs.ValueType
import Dataflow.Proofs.Reconstruct
import Dataflow.Proofs.Expr.Reading
import Dataflow.Proofs.Expr.Soundness
import Dataflow.Proofs.Pipeline.Tree
import Dataflow.Proofs.Run.Machine
import Dataflow.Proofs.Run.Adequacy
import Dataflow.Proofs.Run.Stack
import Dataflow.Proofs.Tracer.Frames
import Dataflow.Proofs.Run.Reference
import Dataflow.Proofs.Run.Observed
import Dataflow.Proofs.Tracer.Recorded
import Dataflow.Proofs.Condition
import Dataflow.Proofs.Run.Soundness
import Dataflow.Proofs.Workflow.Argument
import Dataflow.Proofs.Workflow.Tasks
import Dataflow.Proofs.Workflow.Visibility
import Dataflow.Proofs.Run.Evaluation
import Dataflow.Proofs.Workflow.Dependencies
import Dataflow.Proofs.Workflow.Schedule
import Dataflow.Proofs.FieldPath
import Dataflow.Proofs.Workflow.Places
import Dataflow.Proofs.Workflow.Conformance
import Dataflow.Proofs.Workflow.Delivery
import Dataflow.Proofs.Workflow.Direct
import Dataflow.Proofs.Workflow.Acceptance
import Dataflow.Proofs.Naming
import Dataflow.Proofs.Tracer.Names
import Dataflow.Proofs.Pipeline.Paths
import Dataflow.Proofs.Run.Course
import Dataflow.Proofs.Run.Order
import Dataflow.Proofs.Run.Branches
import Dataflow.Proofs.Tracer.Operations
import Dataflow.Proofs.Tracer.Moments
import Dataflow.Proofs.Run.Guards
import Dataflow.Proofs.Run.Nested
import Dataflow.Proofs.Run.Scopes
import Dataflow.Proofs.Run.Outputs
import Dataflow.Proofs.Tracer.Dependencies
import Dataflow.Proofs.Run.Awaited
import Dataflow.Proofs.Document.Reading
import Dataflow.Proofs.Document.Fields
import Dataflow.Proofs.Document.Members
import Dataflow.Proofs.Document.Values
import Dataflow.Proofs.Document.Arguments
import Dataflow.Proofs.Workflow.ReadBack
import Dataflow.Proofs.Workflow.Nesting
import Dataflow.Proofs.Workflow.Mentions
import Dataflow.Proofs.Tracer.Images
import Dataflow.Proofs.Expr.Selections
import Dataflow.Proofs.Reconstruct.Fitting
import Dataflow.Proofs.Reconstruct.Lossless
import Dataflow.Proofs.Tracer.Inputs
import Dataflow.Proofs.Workflow.Refusal
import Dataflow.Proofs.Workflow.Outline
import Dataflow.Proofs.Reconstruct.Coherence
import Dataflow.Proofs.Integer64
import Dataflow.Proofs.Operator.Integers
import Dataflow.Proofs.Operator.Overloads
import Dataflow.Proofs.Run.Operators
import Dataflow.Proofs.Binary64
import Dataflow.Proofs.Operator.Truncation
import Dataflow.Proofs.Binary64.Rounding
import Dataflow.Proofs.Value.Equality
import Dataflow.Proofs.Value.Order
import Dataflow.Proofs.Value.FieldOrder
import Dataflow.Proofs.Value.Json
import Dataflow.Proofs.Tracer.Binding
import Dataflow.Proofs.Tracer.Drawing
import Dataflow.Proofs.Tracer.Operands
import Dataflow.Proofs.Json.Writer
import Dataflow.Proofs.Run.Command
import Dataflow.Proofs.Json.Lexer
import Dataflow.Proofs.Json.Reader
import Dataflow.Proofs.Json.Number
import Dataflow.Proofs.Value.Text
import Dataflow.Proofs.Decimal.Reader
import Dataflow.Proofs.Operator.Registration
import Dataflow.Proofs.Operator.Numerals
import Dataflow.Proofs.Naming.Normalization
import Dataflow.Proofs.Expr.Tuples
