import GoBuildRules.Logging
import GoBuildRules.Package.Directory
import GoBuildRules.Rule.Generate
import GoBuildRules.Proofs.Package.Confluence
import GoBuildRules.Proofs.Package.Partition
import GoBuildRules.Proofs.Rule.Denotation
import GoBuildRules.Proofs.Cgo.Printing
import GoBuildRules.Proofs.FileTree.Join
import GoBuildRules.Proofs.FileTree.Removal
import GoBuildRules.Proofs.Header.Declarations
import GoBuildRules.Proofs.Header.DocBlock
import GoBuildRules.Proofs.Header.Grammar
import GoBuildRules.Proofs.Package.Isolation
import GoBuildRules.Proofs.Package.Routing
import GoBuildRules.Proofs.Rule.Coverage
import GoBuildRules.Proofs.SourceFile.HeaderOnly
import GoBuildRules.Proofs.PlatformStrings.Canonical
import GoBuildRules.Proofs.Constraint.BuildLine
import GoBuildRules.Proofs.Cgo.Safety
import GoBuildRules.Proofs.Label.Directory
import GoBuildRules.Proofs.Cgo.Quoting
import GoBuildRules.Proofs.Constraint.Reading
import GoBuildRules.Proofs.Cgo.BareDirective
import GoBuildRules.Proofs.Header.Documentation
import GoBuildRules.Proofs.Rule.Flags
import GoBuildRules.Proofs.Rule.Distinct
import GoBuildRules.Proofs.SourceFile.Coherence
import GoBuildRules.Proofs.Package.Selection
import GoBuildRules.Proofs.Label.Distinct
import GoBuildRules.Proofs.Rule.Keys
import GoBuildRules.Proofs.Header.ImportLiteral
import GoBuildRules.Proofs.Header.ErrorLines
import GoBuildRules.Proofs.FileTree.Parents
import GoBuildRules.Proofs.Rule.Decoding
