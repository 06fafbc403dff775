import Telefile.Attr
import Telefile.Client
import Telefile.CommandLine
import Telefile.Config
import Telefile.Config.Reading
import Telefile.Connection
import Telefile.DescriptorTable
import Telefile.Dictionary
import Telefile.Errno
import Telefile.FileError
import Telefile.Frame
import Telefile.Host.Arrange
import Telefile.Host.Basic
import Telefile.Host.Calls
import Telefile.Host.Canonical
import Telefile.Host.Content
import Telefile.Host.Error
import Telefile.Host.Lookup
import Telefile.Host.Place
import Telefile.Hub
import Telefile.LogLine
import Telefile.Main
import Telefile.Net.Address
import Telefile.OpenMode
import Telefile.Path
import Telefile.Proofs.Commuting.Calls
import Telefile.Proofs.Commuting.Changes
import Telefile.Proofs.Commuting.Deeds
import Telefile.Proofs.Confinement.Ancestors
import Telefile.Proofs.Confinement.Detours
import Telefile.Proofs.Confinement.Firm
import Telefile.Proofs.Confinement.Folding
import Telefile.Proofs.Confinement.Histories
import Telefile.Proofs.Confinement.Operations
import Telefile.Proofs.Confinement.Resolve
import Telefile.Proofs.Confinement.Roots
import Telefile.Proofs.Confinement.Showing
import Telefile.Proofs.Confinement.Unusable
import Telefile.Proofs.Confinement.Verdicts
import Telefile.Proofs.Descriptors
import Telefile.Proofs.Directories.Framing
import Telefile.Proofs.Directories.Hierarchy
import Telefile.Proofs.Directories.Identity
import Telefile.Proofs.Directories.Listings
import Telefile.Proofs.Directories.Paging
import Telefile.Proofs.Directories.Unreadable
import Telefile.Proofs.Events
import Telefile.Proofs.Failures
import Telefile.Proofs.Files.Cursors
import Telefile.Proofs.Files.Exclusive
import Telefile.Proofs.Files.Integrity
import Telefile.Proofs.Files.Opening
import Telefile.Proofs.Files.Reading
import Telefile.Proofs.Files.Seeking
import Telefile.Proofs.Files.ToTheEnd
import Telefile.Proofs.Files.Unlinking
import Telefile.Proofs.Files.Writing
import Telefile.Proofs.Frames
import Telefile.Proofs.Histories
import Telefile.Proofs.Lifetime.Accounts
import Telefile.Proofs.Lifetime.Connections
import Telefile.Proofs.Lifetime.Descriptors
import Telefile.Proofs.Lifetime.Exhaustion
import Telefile.Proofs.Lifetime.Holdings
import Telefile.Proofs.Lifetime.Issuing
import Telefile.Proofs.Lifetime.Records
import Telefile.Proofs.Lifetime.Sessions
import Telefile.Proofs.Lookup.Below
import Telefile.Proofs.Lookup.Compare
import Telefile.Proofs.Lookup.Ends
import Telefile.Proofs.Lookup.Failures
import Telefile.Proofs.Lookup.Walks
import Telefile.Proofs.Lookup.Ways
import Telefile.Proofs.Paths
import Telefile.Proofs.Remote.Calls
import Telefile.Proofs.Remote.Conversations
import Telefile.Proofs.Remote.Histories
import Telefile.Proofs.Remote.Methods
import Telefile.Proofs.Reply.Every
import Telefile.Proofs.Reply.Fitting
import Telefile.Proofs.Reply.Oversized
import Telefile.Proofs.Reply.Reads
import Telefile.Proofs.Reply.Shapes
import Telefile.Proofs.Room
import Telefile.Proofs.Samples
import Telefile.Proofs.SessionSteps
import Telefile.Proofs.Standing
import Telefile.Proofs.Steps
import Telefile.Proofs.Streams.Cutting
import Telefile.Proofs.Streams.Serving
import Telefile.Proofs.Text.ByteOrder
import Telefile.Proofs.Tree
import Telefile.Proofs.Wire.Fields
import Telefile.Proofs.Wire.Prefixes
import Telefile.Proofs.Wire.RoundTrip
import Telefile.Proofs.Wire.Shortest
import Telefile.Proofs.Wire.Spellings
import Telefile.Proofs.Wire.Widths
import Telefile.Remote
import Telefile.Request
import Telefile.Room
import Telefile.Scope
import Telefile.Server
import Telefile.Service.Basic
import Telefile.Service.Listing
import Telefile.Service.Naming
import Telefile.Service.Transfer
import Telefile.Session
import Telefile.Settings
import Telefile.Text.Columns
import Telefile.Text.Quoted
import Telefile.Text.Scan
import Telefile.Text.Terminal
import Telefile.Text.Unprintable
import Telefile.Text.Utf8
import Telefile.Toml.Document
import Telefile.Toml.Moment
import Telefile.Toml.Number
import Telefile.Toml.Text
import Telefile.Toml.Value
import Telefile.Wire.Message
import Telefile.Wire.Reader
import Telefile.Wire.Varint
