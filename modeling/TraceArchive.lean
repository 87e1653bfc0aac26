import TraceArchive.Calendar
import TraceArchive.Calendar.Instant
import TraceArchive.Call.Body
import TraceArchive.Call.Calls
import TraceArchive.Call.Failure
import TraceArchive.Call.Mappers
import TraceArchive.Call.Plan
import TraceArchive.Call.Run
import TraceArchive.Call.Session
import TraceArchive.Call.State
import TraceArchive.Call.Value
import TraceArchive.Client.Cache
import TraceArchive.Client.Connection
import TraceArchive.Client.Run
import TraceArchive.Criteria
import TraceArchive.Criteria.Document
import TraceArchive.Criteria.Match
import TraceArchive.Decimal.Double
import TraceArchive.Decimal.Shortest
import TraceArchive.Document.Argument
import TraceArchive.Document.Checked
import TraceArchive.Document.Issue
import TraceArchive.Document.Member
import TraceArchive.Entries
import TraceArchive.Json
import TraceArchive.Json.Text
import TraceArchive.Logging
import TraceArchive.Partition.Cover
import TraceArchive.Partition.Name
import TraceArchive.Proofs.Calendar
import TraceArchive.Proofs.Calls
import TraceArchive.Proofs.Entries
import TraceArchive.Proofs.Matching
import TraceArchive.Proofs.Numeral
import TraceArchive.Proofs.Partition
import TraceArchive.Proofs.Session.Bodies
import TraceArchive.Proofs.Session.Moves
import TraceArchive.Proofs.Validation
import TraceArchive.Response
import TraceArchive.Search.Aggregation
import TraceArchive.Search.Criteria
import TraceArchive.Search.Fields
import TraceArchive.Search.Query
import TraceArchive.Search.Request
import TraceArchive.Settings
import TraceArchive.Settings.Options
import TraceArchive.Span
import TraceArchive.Span.Document
import TraceArchive.Store.Config
import TraceArchive.Store.Lookup
import TraceArchive.Store.SpanStore
import TraceArchive.Task.Gates
import TraceArchive.Text.Blank
import TraceArchive.Text.Integer
import TraceArchive.Text.Lower
import TraceArchive.Text.Lower.Table
import TraceArchive.Text.Numeral
import TraceArchive.Text.Printable.Table
import TraceArchive.Text.Quoted
import TraceArchive.Text.Split
import TraceArchive.Trace.Group
import TraceArchive.TraceId
import TraceArchive.Proofs.Session.Soundness
import TraceArchive.Proofs.Session.Steps
import TraceArchive.Proofs.Session.Canceling
import TraceArchive.Proofs.Session.Causes
import TraceArchive.Proofs.Session.Quiet
import TraceArchive.Proofs.Session.History
import TraceArchive.Proofs.Session.Extension
import TraceArchive.Proofs.Session.Lifecycle
import TraceArchive.Proofs.Archive.Answers
import TraceArchive.Proofs.Archive.Refinement
import TraceArchive.Proofs.Session.Searching
import TraceArchive.Proofs.Assembly
import TraceArchive.Proofs.Session.Arrangement
import TraceArchive.Proofs.Session.Stopping
import TraceArchive.Proofs.Client.Closing
import TraceArchive.Proofs.Client.Handing
import TraceArchive.Proofs.Session.Sending
import TraceArchive.Proofs.Session.TwoPhases
import TraceArchive.Proofs.Session.Stacks
import TraceArchive.Proofs.Session.Outcomes
import TraceArchive.Proofs.Client.Deeds
import TraceArchive.Proofs.Client.Keeping
import TraceArchive.Proofs.Client.Sharing
import TraceArchive.Proofs.Session.Notices
import TraceArchive.Proofs.Session.Callbacks
import TraceArchive.Proofs.Lowering
import TraceArchive.Proofs.Archive.Indexing
import TraceArchive.Proofs.Archive.PointLookup
import TraceArchive.Proofs.Computations
import TraceArchive.Proofs.Session.Alterations
import TraceArchive.Proofs.Session.Performing
import TraceArchive.Proofs.Session.Remaining
import TraceArchive.Proofs.Session.Evaluation
import TraceArchive.Proofs.Session.Territories
import TraceArchive.Proofs.Session.Clones
import TraceArchive.Proofs.TraceId
import TraceArchive.Proofs.Containment
import TraceArchive.Proofs.Decoding
import TraceArchive.Proofs.Session.Reordering
import TraceArchive.Proofs.Ranking
import TraceArchive.Proofs.ArrivalOrder
import TraceArchive.Proofs.Archive.Dependencies
import TraceArchive.Proofs.ShortestCover
import TraceArchive.Proofs.Descents
import TraceArchive.Proofs.Changes
import TraceArchive.Proofs.Session.Phases
import TraceArchive.Proofs.Session.KeepingStep
import TraceArchive.Proofs.Session.Coherence
import TraceArchive.Proofs.Instants
import TraceArchive.Proofs.Lookups
import TraceArchive.Proofs.Faults
import TraceArchive.Proofs.Archive.Names
import TraceArchive.Proofs.Session.Limits
import TraceArchive.Proofs.Session.Reaching
import TraceArchive.Proofs.CalendarEnd
import TraceArchive.Proofs.NameOrder
import TraceArchive.Proofs.QueryText
import TraceArchive.Proofs.Enforcement
import TraceArchive.Proofs.NormalForm
import TraceArchive.Proofs.OwnNames
import TraceArchive.Proofs.StrictIdentity
import TraceArchive.Proofs.Aggregations
import TraceArchive.Proofs.Client.Bystanders
import TraceArchive.Proofs.Client.Stores
