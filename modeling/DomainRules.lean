import DomainRules.Archive
import DomainRules.Bytes
import DomainRules.Catalog
import DomainRules.Deflate.Code
import DomainRules.Deflate.Inflate
import DomainRules.Expansion
import DomainRules.Extras
import DomainRules.Failure
import DomainRules.FileSlot
import DomainRules.Fingerprint
import DomainRules.Holding
import DomainRules.Http.Accept
import DomainRules.Http.Incoming
import DomainRules.Http.Outgoing
import DomainRules.Http.Pattern
import DomainRules.Http.Route
import DomainRules.Http.Target
import DomainRules.Index
import DomainRules.Item
import DomainRules.Journal
import DomainRules.Line
import DomainRules.Memo
import DomainRules.Memo.Store
import DomainRules.MessagePack
import DomainRules.MessagePack.Reader
import DomainRules.Metrics
import DomainRules.Notice
import DomainRules.Number.Basic
import DomainRules.Number.Decimal
import DomainRules.Number.Reading
import DomainRules.Proofs.Expansion.Basic
import DomainRules.Proofs.Expansion.Composition
import DomainRules.Proofs.Expansion.Selection
import DomainRules.Proofs.Memo.Basic
import DomainRules.Proofs.Regex.Rounds
import DomainRules.Proofs.Rulesets.Desk
import DomainRules.Proofs.Rulesets.Key
import DomainRules.Proofs.Rulesets.Transparency
import DomainRules.Proofs.Supply.Announcement
import DomainRules.Proofs.Supply.Basic
import DomainRules.Proofs.Supply.Watch
import DomainRules.Proofs.Wildcard.Coverage
import DomainRules.Publisher
import DomainRules.Reading
import DomainRules.Regex.Basic
import DomainRules.Regex.Flaw
import DomainRules.Regex.Loose
import DomainRules.Regex.Match
import DomainRules.Regex.Reader
import DomainRules.Rendering
import DomainRules.Rendering.Lines
import DomainRules.Repeater
import DomainRules.Report
import DomainRules.Request
import DomainRules.Rulesets
import DomainRules.Server
import DomainRules.Settings
import DomainRules.Sha256
import DomainRules.Site
import DomainRules.Supply
import DomainRules.Text.Blank
import DomainRules.Text.Identifier
import DomainRules.Text.LowerCase
import DomainRules.Text.Percent
import DomainRules.Text.Punycode
import DomainRules.Text.Units
import DomainRules.Text.Utf8
import DomainRules.Value
import DomainRules.Value.Reader
import DomainRules.Wildcard
import DomainRules.Yaml.Quoted
import DomainRules.Zip
import DomainRules.Zip.Directory
import DomainRules.Zip.Member
import DomainRules.Proofs.Expansion.Inclusion
import DomainRules.Proofs.Expansion.Resolution
import DomainRules.Proofs.Expansion.Items
import DomainRules.Proofs.Rendering.LineOriented
import DomainRules.Proofs.Memo.Recomputation
import DomainRules.Proofs.Supply.SingleFlight
import DomainRules.Proofs.Supply.Provenance
import DomainRules.Proofs.History
import DomainRules.Proofs.Metrics.Series
import DomainRules.Proofs.FileSlot
import DomainRules.Proofs.Holding.Basic
import DomainRules.Proofs.Holding.Shelf
import DomainRules.Proofs.Archive.Members
import DomainRules.Proofs.Zip.Damage
import DomainRules.Proofs.Number.Exact
import DomainRules.Proofs.Text.Utf8
import DomainRules.Proofs.MessagePack.Spelling
import DomainRules.Proofs.Holding.Restart
import DomainRules.Proofs.Memo.Sharing
import DomainRules.Proofs.Site.Entries
import DomainRules.Proofs.Catalog.Publication
import DomainRules.Proofs.Catalog.Leftover
import DomainRules.Proofs.Item.Attributes
import DomainRules.Proofs.Wildcard.Danger
import DomainRules.Proofs.Wildcard.Exactness
import DomainRules.Proofs.Rendering.Blocks
import DomainRules.Proofs.Rendering.ReadBack
import DomainRules.Proofs.Rendering.Sets
import DomainRules.Proofs.Memo.Clock
import DomainRules.Proofs.Number.Order
import DomainRules.Proofs.Memo.LastWrite
import DomainRules.Proofs.Text.UnitOrder
import DomainRules.Proofs.Archive.Order
import DomainRules.Proofs.Value.Quoted
import DomainRules.Proofs.Value.Members
import DomainRules.Proofs.Index.Contents
import DomainRules.Proofs.Holding.Restored
import DomainRules.Proofs.Holding.Persistence
import DomainRules.Proofs.Expansion.Culprit
import DomainRules.Proofs.Expansion.Written
import DomainRules.Proofs.Regex.Literal
import DomainRules.Proofs.Wildcard.Literal
import DomainRules.Proofs.Supply.EntityTag
import DomainRules.Proofs.Archive.Listing
import DomainRules.Proofs.Regex.Anchored
import DomainRules.Proofs.Text.Ascii
import DomainRules.Proofs.Extras.Address
import DomainRules.Proofs.Memo.Waiters
import DomainRules.Proofs.Metrics.Totals
import DomainRules.Proofs.Rulesets.Ledger
import DomainRules.Proofs.Rulesets.Accounting
import DomainRules.Proofs.Rulesets.Alone
import DomainRules.Proofs.Server.Refresh
import DomainRules.Proofs.Server.Run
