import MncsCommons.Data.Sorting
import MncsCommons.Data.Json
import MncsCommons.Data.JsonText
import MncsCommons.Data.Sha256
import MncsCommons.Data.QuickText
import MncsCommons.Data.Python
import MncsCommons.Data.DateTime
import MncsCommons.Data.Search
import MncsCommons.Protocol.Models
import MncsCommons.Protocol.Canonical
import MncsCommons.Protocol.NormalForm
import MncsCommons.Protocol.Size
import MncsCommons.Protocol.Family
import MncsCommons.Protocol.Lanes
import MncsCommons.Protocol.Work
import MncsCommons.Protocol.Validation
import MncsCommons.Protocol.Stability
import MncsCommons.Protocol.Lifecycle
import MncsCommons.Protocol.Events
import MncsCommons.Protocol.Domains
import MncsCommons.Protocol.Semantic
import MncsCommons.Protocol.Revisions
import MncsCommons.Protocol.Bindings
import MncsCommons.Protocol.Relations
import MncsCommons.Protocol.WorkHistory
import MncsCommons.Exec.Program
import MncsCommons.Store.Disk
import MncsCommons.Store.Ledger
import MncsCommons.Store.Commit
import MncsCommons.Store.Verify
import MncsCommons.Store.Invariant
import MncsCommons.Store.Append
import MncsCommons.Store.Trace
import MncsCommons.Store.Calls
import MncsCommons.Store.Limits
import MncsCommons.Store.Recovery
import MncsCommons.Store.Reachable
import MncsCommons.Store.Tail
import MncsCommons.Store.Sync
import MncsCommons.Store.Revisions
import MncsCommons.Store.Room
import MncsCommons.Store.Bindings
import MncsCommons.Store.Relations
import MncsCommons.Store.Works
import MncsCommons.Store.Transitions
import MncsCommons.Protocol.Projection
import MncsCommons.Protocol.Requests
import MncsCommons.Protocol.Proposals
import MncsCommons.Protocol.Queue
import MncsCommons.Protocol.Classification
import MncsCommons.Store.Records
import MncsCommons.Store.Services
import MncsCommons.Store.Acknowledgements
import MncsCommons.Protocol.RequestRecords
import MncsCommons.Protocol.Scope
import MncsCommons.Store.ServiceRuns
import MncsCommons.Store.Hygiene
import MncsCommons.Data.LinkedHistory
import MncsCommons.Data.OneMore
import MncsCommons.Pressure.Kernel
import MncsCommons.Pressure.Repositories
import MncsCommons.Pressure.Projection
import MncsCommons.Pressure.Replay
import MncsCommons.Pressure.Agreement
import MncsCommons.Pressure.Resolution
import MncsCommons.Pressure.Documents
import MncsCommons.Pressure.Validation
import MncsCommons.Pressure.Registry
import MncsCommons.Pressure.Effects
import MncsCommons.Pressure.Failures
import MncsCommons.Pressure.Directions
import MncsCommons.Pressure.Observed
import MncsCommons.Pressure.Queries
import MncsCommons.Pressure.Relations
import MncsCommons.Data.BoundedMemory
import MncsCommons.Service.Requests
import MncsCommons.Service.Replays
import MncsCommons.Data.Checks
import MncsCommons.Family.Obligations
import MncsCommons.Family.Plans
import MncsCommons.Family.Stops
import MncsCommons.Family.Retries
import MncsCommons.Data.Walks
import MncsCommons.Family.Deltas
import MncsCommons.Data.Glob
import MncsCommons.Data.Paths
import MncsCommons.Protocol.LaneScope
import MncsCommons.Bundle.Archive
import MncsCommons.Bundle.Written
import MncsCommons.Data.Breadth
import MncsCommons.Bundle.Names
import MncsCommons.Bundle.Exports
import MncsCommons.Query.Graphs
import MncsCommons.Data.SlidingWindow
import MncsCommons.PublicNode.RateLimits
import MncsCommons.Data.KeyOrder
import MncsCommons.Family.Graphs
import MncsCommons.Family.StableGraphs
import MncsCommons.Data.AsciiText
import MncsCommons.Family.Changes
import MncsCommons.Family.StableChanges
import MncsCommons.Data.Updates
import MncsCommons.Retention.Archives
import MncsCommons.Retention.Bundles
import MncsCommons.Retention.Restored
import MncsCommons.Protocol.ValidWork
import MncsCommons.Protocol.NextRevisions
import MncsCommons.Protocol.Continuations
import MncsCommons.Protocol.Offers
import MncsCommons.Store.NextRevisions
import MncsCommons.Store.Rejections
import MncsCommons.Protocol.Attachments
import MncsCommons.Store.Attachments
import MncsCommons.Data.Regex
import MncsCommons.Data.Lines
import MncsCommons.Data.Matching
import MncsCommons.Pressure.Markdown
import MncsCommons.Pressure.Headings
import MncsCommons.Pressure.Markers
import MncsCommons.Pressure.Migration
import MncsCommons.Pressure.Imports
import MncsCommons.Pressure.DryRuns
import MncsCommons.Pressure.Reimports
import MncsCommons.Data.Saturation
import MncsCommons.Retention.Policy
import MncsCommons.Retention.Compaction
import MncsCommons.Mesh.Interest
import MncsCommons.Mesh.Membership
import MncsCommons.Mesh.Node
import MncsCommons.Mesh.Possession
import MncsCommons.Mesh.Delivery
import MncsCommons.Mesh.NodeRuns
