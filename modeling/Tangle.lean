import Tangle.Main
import Tangle.Proofs.Text.Parts
import Tangle.Proofs.Document.Name
import Tangle.Proofs.Expansion.Lookup
import Tangle.Proofs.Expansion.Dialogue
import Tangle.Proofs.Expansion.Settled
import Tangle.Proofs.Expansion.Memo
import Tangle.Proofs.Expansion.Stack
import Tangle.Proofs.Expansion.Cycle
import Tangle.Proofs.Expansion.Token
import Tangle.Proofs.Expansion.Remainder
import Tangle.Proofs.Expansion.Policy
import Tangle.Proofs.Expansion.Limit
import Tangle.Proofs.Expansion.Indentation
import Tangle.Proofs.Expansion.Linewise
import Tangle.Proofs.Expansion.OnePass
import Tangle.Proofs.Document.Outline
import Tangle.Proofs.Document.Append
import Tangle.Proofs.Document.Partition
import Tangle.Proofs.Files.Tree
import Tangle.Proofs.Write.Import
import Tangle.Proofs.Document.Edit
import Tangle.Proofs.Write.Splice
import Tangle.Proofs.Document.Marker
import Tangle.Proofs.Document.Request
import Tangle.Proofs.Write.Pull
import Tangle.Proofs.Expansion.Embedding
import Tangle.Proofs.Files.Growth
import Tangle.Proofs.Run.Output
import Tangle.Proofs.Files.Rewrite
import Tangle.Proofs.Run.Again
import Tangle.Proofs.Run.Plan
import Tangle.Proofs.Run.Repeat
import Tangle.Proofs.Run.Step
import Tangle.Proofs.Run.Balance
import Tangle.Proofs.Run.Rehearsal
import Tangle.Proofs.Run.Listing
import Tangle.Proofs.Config.Override
import Tangle.Proofs.Write.Frame
import Tangle.Proofs.Write.FirstMarker
import Tangle.Proofs.Write.Guard
import Tangle.Proofs.Block.Index
import Tangle.Proofs.Document.Account
import Tangle.Proofs.Expansion.Meaning
import Tangle.Proofs.Expansion.Warning
import Tangle.Proofs.Write.Inject
import Tangle.Proofs.Document.LineEnd
import Tangle.Proofs.Document.Attribute
import Tangle.Proofs.Document.Plain
import Tangle.Proofs.Write.Canonical
import Tangle.Proofs.Extract.Tag
import Tangle.Proofs.Extract.Range
import Tangle.Proofs.Selection
import Tangle.Proofs.Path.Below
import Tangle.Proofs.Text.Trim
import Tangle.Proofs.Number.Decimal
import Tangle.Proofs.Block.Directive
import Tangle.Proofs.Config.Fault
import Tangle.Proofs.Scan.Walk
import Tangle.Proofs.Scan.Documents
import Tangle.Proofs.Write.Target
