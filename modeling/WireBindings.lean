import WireBindings.Main
import WireBindings.Proofs.Binding.DeclareBeforeUse
import WireBindings.Proofs.TypeExpr.Grammar
import WireBindings.Wire.Bounds
import WireBindings.Wire.Encode
import WireBindings.Proofs.Binding.Shape
import WireBindings.Proofs.Binding.Stages
import WireBindings.Proofs.Text.Utf8
import WireBindings.Proofs.Schema.Tables
import WireBindings.Proofs.Wire.Exact
import WireBindings.Proofs.Binding.Reordered
import WireBindings.Proofs.Binding.Lossless
import WireBindings.Proofs.Binding.SelfContained
import WireBindings.Proofs.Binding.KeptTypes
import WireBindings.Proofs.Dependency.DemandOrder
import WireBindings.Proofs.Dependency.Closure
import WireBindings.Proofs.Binding.Mentions
import WireBindings.Proofs.TypeExpr.FaultLocation
import WireBindings.Proofs.TypeExpr.MentionedNames
import WireBindings.Proofs.Wire.Finality
import WireBindings.Proofs.Text.Quoted
import WireBindings.Proofs.Json.Unambiguous
import WireBindings.Proofs.Json.Lossless
import WireBindings.Proofs.Dependency.Restriction
import WireBindings.Proofs.Dependency.Undefined
import WireBindings.Proofs.Binding.Alike
import WireBindings.Proofs.Binding.Synthetic
import WireBindings.Proofs.Binding.Exports
import WireBindings.Proofs.Binding.Constants
import WireBindings.Proofs.TypeExpr.TopLevel
import WireBindings.Dependency.Marking
import WireBindings.Proofs.Dependency.Marks
import WireBindings.CommandLine.Help
import WireBindings.CommandLine.Spelling
import WireBindings.Proofs.Files.Tree
import WireBindings.Proofs.CommandLine.AllOrNothing
