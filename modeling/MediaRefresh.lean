import MediaRefresh.Event.Bus
import MediaRefresh.Json.Reader
import MediaRefresh.Json.Writer
import MediaRefresh.Rehearsal.Stage
import MediaRefresh.Rehearsal.Work
import MediaRefresh.Session
import MediaRefresh.Settings.File
import MediaRefresh.Proofs.Queue.Step
import MediaRefresh.Proofs.Queue.SingleDrain
import MediaRefresh.Proofs.Queue.Acceptance
import MediaRefresh.Proofs.Queue.Conservation
import MediaRefresh.Proofs.Queue.ServiceOrder
import MediaRefresh.Proofs.Queue.Lookup
import MediaRefresh.Proofs.Queue.Pacing
import MediaRefresh.Proofs.Refresh.Journal
import MediaRefresh.Proofs.Refresh.Gather
import MediaRefresh.Proofs.Refresh.Sequence
import MediaRefresh.Proofs.Refresh.Commit
import MediaRefresh.Proofs.Item.ExternalIds
import MediaRefresh.Proofs.Item.FoldedMap
import MediaRefresh.Proofs.Numeric.Equality
import MediaRefresh.Proofs.Provider.Selection
import MediaRefresh.Proofs.Metadata.Merge
import MediaRefresh.Proofs.Metadata.Round
import MediaRefresh.Proofs.Metadata.CallOrder
import MediaRefresh.Proofs.Provider.Settings
import MediaRefresh.Proofs.Metadata.Precedence
import MediaRefresh.Proofs.Metadata.Settling
import MediaRefresh.Proofs.Refresh.Protection
import MediaRefresh.Proofs.Metadata.LookupIds
import MediaRefresh.Proofs.Image.Report
import MediaRefresh.Proofs.Image.FirstSupplier
import MediaRefresh.Proofs.Image.Kept
import MediaRefresh.Proofs.Image.Choice
import MediaRefresh.Proofs.Refresh.Parallel
import MediaRefresh.Proofs.Refresh.Absence
import MediaRefresh.Proofs.Search.SharedIds
import MediaRefresh.Proofs.Refresh.Composition
import MediaRefresh.Proofs.Refresh.Bracket
import MediaRefresh.Proofs.Refresh.Marks
import MediaRefresh.Proofs.Refresh.Validation
import MediaRefresh.Proofs.Numeric.Value
import MediaRefresh.Proofs.Refresh.Progress
import MediaRefresh.Proofs.Refresh.FanOut
import MediaRefresh.Proofs.Refresh.Artist
import MediaRefresh.Proofs.Refresh.Tidiness
import MediaRefresh.Proofs.Refresh.Leftovers
import MediaRefresh.Proofs.Session.Run
import MediaRefresh.Proofs.Session.Announced
import MediaRefresh.Proofs.Session.LiveItem
import MediaRefresh.Proofs.Session.Direct
import MediaRefresh.Proofs.Session.Dispatch
import MediaRefresh.Proofs.Provider.Summary
import MediaRefresh.Proofs.Provider.Order
import MediaRefresh.Proofs.Metadata.Locale
import MediaRefresh.Proofs.Value.Records
import MediaRefresh.Proofs.Metadata.Change
import MediaRefresh.Proofs.Metadata.Filled
import MediaRefresh.Proofs.Metadata.Hollow
import MediaRefresh.Proofs.Session.Savers
import MediaRefresh.Proofs.Image.Validation
import MediaRefresh.Proofs.Item.Merging
import MediaRefresh.Proofs.Item.Sharing
import MediaRefresh.Proofs.Settings.Blocks
import MediaRefresh.Proofs.Event.History
