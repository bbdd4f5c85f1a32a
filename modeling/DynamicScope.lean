import DynamicScope.Ast.Equality
import DynamicScope.Main
import DynamicScope.Proofs.Ast.Defect
import DynamicScope.Proofs.Ast.Equivalence
import DynamicScope.Proofs.Ast.Normal
import DynamicScope.Proofs.Ast.Parts
import DynamicScope.Proofs.Ast.RoundTrip
import DynamicScope.Proofs.Block.Flattened
import DynamicScope.Proofs.CommandLine.AllOrNothing
import DynamicScope.Proofs.CommandLine.Dump
import DynamicScope.Proofs.Double.Rounding
import DynamicScope.Proofs.Environment.History
import DynamicScope.Proofs.Genuine.Run
import DynamicScope.Proofs.Heap.Basic
import DynamicScope.Proofs.Heap.Preserved
import DynamicScope.Proofs.Json.Every
import DynamicScope.Proofs.Json.Lexer
import DynamicScope.Proofs.Json.Literal
import DynamicScope.Proofs.Json.Number
import DynamicScope.Proofs.Json.ReadBack
import DynamicScope.Proofs.Library.Arguments
import DynamicScope.Proofs.Library.Exponential
import DynamicScope.Proofs.Loop.Ordinary
import DynamicScope.Proofs.Number.Order
import DynamicScope.Proofs.Origin.Run
import DynamicScope.Proofs.Output.Appended
import DynamicScope.Proofs.Relabeling.Run
import DynamicScope.Proofs.Run.Effects
import DynamicScope.Proofs.Run.Frame
import DynamicScope.Proofs.Run.Termination
import DynamicScope.Proofs.Scoping.Absence
import DynamicScope.Proofs.Scoping.Relevance
import DynamicScope.Proofs.Scoping.Stack
import DynamicScope.Proofs.Session.Sequence
import DynamicScope.Proofs.Soundness.Run
import DynamicScope.Proofs.Spelling.Run
import DynamicScope.Proofs.Tracing.Fidelity
import DynamicScope.Proofs.Tracing.Refinement
import DynamicScope.Proofs.Tracking.Course
import DynamicScope.Proofs.Value.Displayed
import DynamicScope.Proofs.Value.Subscript
import DynamicScope.Proofs.Value.Truth
