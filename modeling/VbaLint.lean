import VbaLint.Editor.Session
import VbaLint.Json.Annotations
import VbaLint.Main
import VbaLint.Proofs.Inspection.Scopes
import VbaLint.Proofs.Module.HeaderReading
import VbaLint.Proofs.Module.AssignmentNodes
import VbaLint.Proofs.Module.Directives
import VbaLint.Proofs.Module.TreeGrammar
import VbaLint.Proofs.Pass.AnnotationFilter
import VbaLint.Proofs.Pass.Cancellation
import VbaLint.Proofs.Pass.CaseBlindness
import VbaLint.Proofs.Pass.Configuration
import VbaLint.Proofs.Pass.FaultIsolation
import VbaLint.Proofs.Pass.Navigation
import VbaLint.Proofs.Pass.Publication
import VbaLint.Proofs.Pass.Recycling
import VbaLint.Proofs.Pass.Severities
import VbaLint.Proofs.Project.Binding
import VbaLint.Proofs.Project.Caching
import VbaLint.Proofs.Project.Assembling
import VbaLint.Proofs.Rules.Locating
import VbaLint.Proofs.Editor.Growth
import VbaLint.Proofs.Editor.Plans
import VbaLint.Proofs.Editor.Sendings
import VbaLint.Proofs.Editor.Passes
import VbaLint.Proofs.Editor.Closing
import VbaLint.Proofs.Editor.Placement
import VbaLint.Proofs.Editor.Serving
import VbaLint.Proofs.Module.Holders
import VbaLint.Proofs.Module.Parts
import VbaLint.Proofs.Module.Expressions
import VbaLint.Proofs.Tree.Visits
import VbaLint.Proofs.Rules.OptionExplicit
import VbaLint.Proofs.Rules.ObjectVariableNotSet
import VbaLint.Proofs.Project.References
import VbaLint.Proofs.Project.Order
import VbaLint.Proofs.Project.ReturnValues
import VbaLint.Proofs.Project.NameUses
import VbaLint.Proofs.Source.Ranges
import VbaLint.Proofs.Module.Coverage
import VbaLint.Proofs.Module.IdentifierRanges
import VbaLint.Proofs.Statement.Names
import VbaLint.Proofs.Pass.Supersession
import VbaLint.Proofs.Pass.Asides
import VbaLint.Proofs.Module.FileHeaders
import VbaLint.Proofs.Editor.SelectedText
import VbaLint.Proofs.Pass.WholePasses
import VbaLint.Proofs.Pass.LastModules
import VbaLint.Proofs.Project.Discovering
import VbaLint.Proofs.Source.Partition
import VbaLint.Proofs.Tree.Traversals
import VbaLint.Proofs.Statement.ItemLists
