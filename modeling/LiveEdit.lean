import LiveEdit.Log.Sink
import LiveEdit.Proofs.Accessors
import LiveEdit.Proofs.Balance
import LiveEdit.Proofs.ClosureBodies
import LiveEdit.Proofs.Contract
import LiveEdit.Proofs.Decoding
import LiveEdit.Proofs.Detachment
import LiveEdit.Proofs.Divergence
import LiveEdit.Proofs.Identity
import LiveEdit.Proofs.Innermost
import LiveEdit.Proofs.Isolation
import LiveEdit.Proofs.LayoutViews
import LiveEdit.Proofs.Lookups
import LiveEdit.Proofs.Respelling
import LiveEdit.Proofs.Scan
import LiveEdit.Proofs.Sources
import LiveEdit.Proofs.Traversal
import LiveEdit.Session
import LiveEdit.Settings.File
import LiveEdit.Syntax.Layout
import LiveEdit.View
