import BlockTemplates.Main
import BlockTemplates.Number.Reading
import BlockTemplates.Proofs.Number.Rounding
import BlockTemplates.Proofs.Number.Text
import BlockTemplates.Proofs.Number.Spacing
import BlockTemplates.Proofs.Number.Nearest
import BlockTemplates.Proofs.Number.Size
import BlockTemplates.Proofs.Json.Decodable
import BlockTemplates.Proofs.Json.Numeral
import BlockTemplates.Proofs.Json.Scaling
import BlockTemplates.Proofs.Json.Reread
import BlockTemplates.Proofs.Value.Zeros
import BlockTemplates.Proofs.Engine.Fingerprint
import BlockTemplates.Proofs.Value.Numbers
import BlockTemplates.Proofs.Json.RoundTrip
import BlockTemplates.Proofs.Engine.Rendering
import BlockTemplates.Proofs.Engine.Run
import BlockTemplates.Proofs.Engine.Uncached
import BlockTemplates.Proofs.Engine.Transparency
import BlockTemplates.Proofs.Engine.Sharing
import BlockTemplates.Proofs.Markup.Marker
import BlockTemplates.Proofs.Markup.Blocks
import BlockTemplates.Proofs.Markup.Scan
import BlockTemplates.Proofs.Engine.Success
import BlockTemplates.Proofs.Markup.RoundTrip
import BlockTemplates.Proofs.Engine.Machine
import BlockTemplates.Proofs.Engine.Nesting
import BlockTemplates.Proofs.Engine.Persistence
import BlockTemplates.Proofs.Template.Tags
import BlockTemplates.Proofs.Template.Shown
import BlockTemplates.Proofs.Engine.Rebuilt
import BlockTemplates.Proofs.Library.Merging
import BlockTemplates.Proofs.Library.Effect
import BlockTemplates.Proofs.Markup.Stored
import BlockTemplates.Proofs.Markup.Spans
import BlockTemplates.Proofs.Library.Policies
import BlockTemplates.Proofs.Library.Catalogue
import BlockTemplates.Proofs.Project.Sequence
import BlockTemplates.Proofs.Engine.Mentions
import BlockTemplates.Proofs.Engine.Settled
import BlockTemplates.Proofs.Engine.Order
import BlockTemplates.Proofs.Markup.Concatenation
import BlockTemplates.Proofs.Markup.Failure
import BlockTemplates.Proofs.Template.Stray
import BlockTemplates.Proofs.Value.Finite
import BlockTemplates.Proofs.Json.Finite
import BlockTemplates.Proofs.Engine.Finite
import BlockTemplates.Proofs.CommandLine.Layers
import BlockTemplates.Proofs.Engine.Cycle
import BlockTemplates.Proofs.Engine.Calls
import BlockTemplates.Proofs.Engine.Accounts
import BlockTemplates.Proofs.Template.Pieces
import BlockTemplates.Proofs.Template.Replaced
import BlockTemplates.Proofs.Engine.Scope
import BlockTemplates.Proofs.Library.Union
import BlockTemplates.Proofs.Library.Reload
import BlockTemplates.Proofs.CommandLine.Precedence
import BlockTemplates.Proofs.Project.Enumeration
import BlockTemplates.Proofs.Project.Selection
import BlockTemplates.Proofs.Markup.Closing
