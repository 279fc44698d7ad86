import FirmwareWorkspace.Artifact
import FirmwareWorkspace.Expression.Printer
import FirmwareWorkspace.Load
import FirmwareWorkspace.Navigation
import FirmwareWorkspace.Proofs.Conditional.Bracket
import FirmwareWorkspace.Proofs.Conditional.Nesting
import FirmwareWorkspace.Proofs.Definition.Expansion
import FirmwareWorkspace.Proofs.Document.Balance
import FirmwareWorkspace.Proofs.Document.Bindings
import FirmwareWorkspace.Proofs.Document.Blocks
import FirmwareWorkspace.Proofs.Document.DeadCode
import FirmwareWorkspace.Proofs.Document.DeadOpeners
import FirmwareWorkspace.Proofs.Document.Merging
import FirmwareWorkspace.Proofs.Document.Order
import FirmwareWorkspace.Proofs.Document.Progress
import FirmwareWorkspace.Proofs.Document.Splice
import FirmwareWorkspace.Proofs.Document.Truncation
import FirmwareWorkspace.Proofs.Expression.Shift
import FirmwareWorkspace.Proofs.Expression.Typing
import FirmwareWorkspace.Proofs.Library.Instances
import FirmwareWorkspace.Proofs.Library.Override
import FirmwareWorkspace.Proofs.Library.Reachable
import FirmwareWorkspace.Proofs.Library.Specificity
import FirmwareWorkspace.Proofs.Library.Written
import FirmwareWorkspace.Proofs.Line.Definition
import FirmwareWorkspace.Proofs.Load.Artifacts
import FirmwareWorkspace.Proofs.Load.Cancellation
import FirmwareWorkspace.Proofs.Load.Components
import FirmwareWorkspace.Proofs.Load.Contribution
import FirmwareWorkspace.Proofs.Load.Fixpoint
import FirmwareWorkspace.Proofs.Load.Metadata
import FirmwareWorkspace.Proofs.Load.Reporting
import FirmwareWorkspace.Proofs.Navigation
import FirmwareWorkspace.Proofs.Pcd
import FirmwareWorkspace.Proofs.Resolver.Named
import FirmwareWorkspace.Proofs.Resolver.Stability
import FirmwareWorkspace.Proofs.SymbolIndex.Lookup
