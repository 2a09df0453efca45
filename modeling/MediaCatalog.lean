import MediaCatalog.Catalog.Chance
import MediaCatalog.Catalog.Change
import MediaCatalog.Catalog.Evaluate
import MediaCatalog.Catalog.Library
import MediaCatalog.Catalog.Store
import MediaCatalog.Client.Outbox
import MediaCatalog.Client.Reply
import MediaCatalog.Client.Request
import MediaCatalog.Client.Session
import MediaCatalog.Client.Settings
import MediaCatalog.Collection.Attribute
import MediaCatalog.Collection.Build
import MediaCatalog.Collection.Namespace
import MediaCatalog.Collection.Reading
import MediaCatalog.Decimal.Numeral
import MediaCatalog.Decimal.Shortest
import MediaCatalog.Double
import MediaCatalog.Error
import MediaCatalog.Fetch.Grouping
import MediaCatalog.Fetch.Plan
import MediaCatalog.Fetch.Run
import MediaCatalog.Fetch.Spec
import MediaCatalog.Network.Basic
import MediaCatalog.Network.Link
import MediaCatalog.Network.Serving
import MediaCatalog.Object.Arguments
import MediaCatalog.Object.Program
import MediaCatalog.Object.Registry
import MediaCatalog.Object.Run
import MediaCatalog.Object.Space
import MediaCatalog.Playlist.Entries
import MediaCatalog.Playlist.FileTree
import MediaCatalog.Playlist.Url
import MediaCatalog.Proofs.Catalog.Arrangement
import MediaCatalog.Proofs.Catalog.Comparisons
import MediaCatalog.Proofs.Catalog.CompositeOrder
import MediaCatalog.Proofs.Catalog.Drawing
import MediaCatalog.Proofs.Catalog.FilterLaws
import MediaCatalog.Proofs.Catalog.Filtering
import MediaCatalog.Proofs.Catalog.Growth
import MediaCatalog.Proofs.Catalog.Identity
import MediaCatalog.Proofs.Catalog.Layer
import MediaCatalog.Proofs.Catalog.Lookup
import MediaCatalog.Proofs.Catalog.Mirror
import MediaCatalog.Proofs.Catalog.NameView
import MediaCatalog.Proofs.Catalog.Paging
import MediaCatalog.Proofs.Catalog.Provenance
import MediaCatalog.Proofs.Catalog.Reachable
import MediaCatalog.Proofs.Catalog.Referring
import MediaCatalog.Proofs.Catalog.Resolving
import MediaCatalog.Proofs.Catalog.Saved
import MediaCatalog.Proofs.Catalog.StableSort
import MediaCatalog.Proofs.Catalog.Success
import MediaCatalog.Proofs.Catalog.Unfolding
import MediaCatalog.Proofs.Client.Knowledge
import MediaCatalog.Proofs.Client.Numbers
import MediaCatalog.Proofs.Client.Once
import MediaCatalog.Proofs.Client.Pending
import MediaCatalog.Proofs.Client.Replies
import MediaCatalog.Proofs.Client.Sending
import MediaCatalog.Proofs.Client.Steps
import MediaCatalog.Proofs.Decimal.DoubleOrder
import MediaCatalog.Proofs.Decimal.Doubles
import MediaCatalog.Proofs.Decimal.NotANumber
import MediaCatalog.Proofs.Decimal.Widening
import MediaCatalog.Proofs.Double
import MediaCatalog.Proofs.Fetch.Acceptance
import MediaCatalog.Proofs.Fetch.Choosing
import MediaCatalog.Proofs.Fetch.Clustering
import MediaCatalog.Proofs.Fetch.Extremes
import MediaCatalog.Proofs.Fetch.GroupedRows
import MediaCatalog.Proofs.Fetch.Grouping
import MediaCatalog.Proofs.Fetch.Integers
import MediaCatalog.Proofs.Fetch.Leniency
import MediaCatalog.Proofs.Fetch.Material
import MediaCatalog.Proofs.Fetch.Rows
import MediaCatalog.Proofs.Fetch.Summing
import MediaCatalog.Proofs.Fetch.Typed
import MediaCatalog.Proofs.Network.Bookkeeping
import MediaCatalog.Proofs.Network.Closing
import MediaCatalog.Proofs.Network.Conversation
import MediaCatalog.Proofs.Network.Direct
import MediaCatalog.Proofs.Network.Ledger
import MediaCatalog.Proofs.Network.Orderly
import MediaCatalog.Proofs.Network.Refusal
import MediaCatalog.Proofs.Network.Requesting
import MediaCatalog.Proofs.Network.Settling
import MediaCatalog.Proofs.Network.Steps
import MediaCatalog.Proofs.Network.Turn
import MediaCatalog.Proofs.Object.Calm
import MediaCatalog.Proofs.Object.Chronicle
import MediaCatalog.Proofs.Object.Lifetime
import MediaCatalog.Proofs.Object.Log
import MediaCatalog.Proofs.Object.Quiet
import MediaCatalog.Proofs.Object.References
import MediaCatalog.Proofs.Object.Snapshot
import MediaCatalog.Proofs.Object.Tokens
import MediaCatalog.Proofs.Object.Watch
import MediaCatalog.Proofs.Playlist.Url
import MediaCatalog.Proofs.Server.Announcements
import MediaCatalog.Proofs.Server.Atomic
import MediaCatalog.Proofs.Server.Finding
import MediaCatalog.Proofs.Server.Importing
import MediaCatalog.Proofs.Server.Mirror
import MediaCatalog.Proofs.Server.Pages
import MediaCatalog.Proofs.Server.Queries
import MediaCatalog.Proofs.Server.Served
import MediaCatalog.Proofs.Server.Sound
import MediaCatalog.Proofs.Text.Glob
import MediaCatalog.Proofs.Text.Utf8
import MediaCatalog.Proofs.Text.Walk
import MediaCatalog.Proofs.Value.Copy
import MediaCatalog.Proofs.Value.Equality
import MediaCatalog.Proofs.Value.Order
import MediaCatalog.Proofs.Value.Renaming
import MediaCatalog.Proofs.Wire.Acceptance
import MediaCatalog.Proofs.Wire.Calls
import MediaCatalog.Proofs.Wire.Canonical
import MediaCatalog.Proofs.Wire.Counting
import MediaCatalog.Proofs.Wire.Depth
import MediaCatalog.Proofs.Wire.Faithful
import MediaCatalog.Proofs.Wire.Frames
import MediaCatalog.Proofs.Wire.Messages
import MediaCatalog.Proofs.Wire.Nesting
import MediaCatalog.Proofs.Wire.Passage
import MediaCatalog.Proofs.Wire.Recording
import MediaCatalog.Proofs.Wire.Retrace
import MediaCatalog.Proofs.Wire.RoundTrip
import MediaCatalog.Proofs.Wire.Safety
import MediaCatalog.Proofs.Wire.Scalar
import MediaCatalog.Proofs.Wire.Spelling
import MediaCatalog.Proofs.Wire.Supply
import MediaCatalog.Proofs.Wire.Truncation
import MediaCatalog.Proofs.Wire.Written
import MediaCatalog.Server.Call
import MediaCatalog.Server.Command
import MediaCatalog.Server.Service
import MediaCatalog.Server.Settings
import MediaCatalog.Text.Blank
import MediaCatalog.Text.CaseTable
import MediaCatalog.Text.CharSet
import MediaCatalog.Text.Glob
import MediaCatalog.Text.Lowercase
import MediaCatalog.Text.Percent
import MediaCatalog.Text.PlainTable
import MediaCatalog.Text.Quoted
import MediaCatalog.Text.Split
import MediaCatalog.Value.Basic
import MediaCatalog.Value.Dict
import MediaCatalog.Value.Equality
import MediaCatalog.Value.Order
import MediaCatalog.Wire.Address
import MediaCatalog.Wire.Format
import MediaCatalog.Wire.Message
import MediaCatalog.Wire.Reader
import MediaCatalog.Wire.Writer
