import Dinkster.Lib.Transition
import Dinkster.Lib.Json
import Dinkster.Lib.PrefixCode
import Dinkster.Lib.Digraph
import Dinkster.Lib.JsonObject
import Dinkster.Schema.TypeExpr
import Dinkster.Schema.TypeExprWire
import Dinkster.Graph.Model
import Dinkster.Graph.Wire
import Dinkster.Graph.WireRoundTrip
import Dinkster.Values.Model
import Dinkster.Protocol.Attention
import Dinkster.Engine.CacheKey
import Dinkster.Engine.CacheKeyReading
import Dinkster.Lib.Canonical
import Dinkster.Lib.Dict
import Dinkster.Lib.Fallible
import Dinkster.Protocol.Workgroup
import Dinkster.Protocol.Lifecycle
import Dinkster.Protocol.LifecycleCoherence
import Dinkster.Protocol.LifecycleSafety
import Dinkster.Server.JobQueue
import Dinkster.Server.JobQueueAccounting
import Dinkster.Server.JobQueueWakeups
import Dinkster.Server.JobDurability
import Dinkster.Server.JobDurabilityTables
import Dinkster.Server.JobDurabilityQueue
import Dinkster.Server.JobDurabilitySafety
import Dinkster.Server.Journal
import Dinkster.Server.JournalHistory
import Dinkster.Server.TrainingSessions
import Dinkster.Server.TrainingMoves
import Dinkster.Server.TrainingLineage
import Dinkster.Server.TrainingOutcomes
import Dinkster.Server.TrainingSafety
import Dinkster.Server.TrainingReplay
import Dinkster.Collab.Sessions
import Dinkster.Collab.SessionRows
import Dinkster.Collab.SessionLog
import Dinkster.Collab.Persistence
import Dinkster.Memory.Governor
import Dinkster.Memory.Ledger
import Dinkster.Memory.Waiting
import Dinkster.Values.Pins
import Dinkster.Memory.ResidentPool
import Dinkster.Memory.ResidentRelease
import Dinkster.Memory.ResidentPaths
import Dinkster.Memory.ResidentLinks
import Dinkster.Memory.ResidentFailures
import Dinkster.Memory.ResidentRuns
import Dinkster.Workers.Relay
import Dinkster.Workers.Gate
import Dinkster.Workers.Settlement
import Dinkster.Workers.Release
import Dinkster.Workers.ReleaseExchanges
import Dinkster.Workers.ReleaseSafety
import Dinkster.Workers.ReleaseInUse
import Dinkster.Workers.Resume
import Dinkster.Workers.ResumeDelivery
import Dinkster.Workers.ResumeLedger
import Dinkster.Workers.Rebind
import Dinkster.Workers.RebindReplay
import Dinkster.Workers.RebindSafety
import Dinkster.Workers.ServiceStreams
import Dinkster.Workers.Service
import Dinkster.Workers.ServiceLease
import Dinkster.Lib.Faults
import Dinkster.Supervisor.Project
import Dinkster.Supervisor.Transactions
import Dinkster.Lib.Semaphore
import Dinkster.Engine.Admission
import Dinkster.Engine.AdmissionDesk
import Dinkster.Engine.AdmissionLeases
import Dinkster.Engine.AdmissionSafety
import Dinkster.Workers.Blobs
import Dinkster.Workers.BlobsFlow
import Dinkster.Workers.BlobsSafety
import Dinkster.Graph.Lowering
import Dinkster.Graph.LoweringStatic
import Dinkster.Graph.LoweringCourse
import Dinkster.Graph.LoweringSettled
import Dinkster.Graph.Inputs
import Dinkster.Graph.Loops
import Dinkster.Graph.LoopsPaths
import Dinkster.Graph.LoopsNesting
import Dinkster.Graph.LoopsValidation
import Dinkster.Lib.Peaks
import Dinkster.Caches.Values
import Dinkster.Caches.Memory
import Dinkster.Caches.MemoryAccounting
import Dinkster.Caches.MemorySafety
import Dinkster.Caches.MemoryRuns
import Dinkster.Lib.Base64
import Dinkster.Lib.TopologicalOrder
import Dinkster.Graph.Plan
import Dinkster.Engine.StrongPlan
import Dinkster.Engine.StaticDag
import Dinkster.Engine.ProducedReferences
import Dinkster.Engine.NodeInputs
import Dinkster.Engine.LazyDemand
import Dinkster.Memory.Leases
import Dinkster.Schema.TypeIds
import Dinkster.Schema.Solve
import Dinkster.Schema.Dynamic
import Dinkster.Schema.Elaborate
import Dinkster.Schema.Effective
import Dinkster.Schema.Expansion
import Dinkster.Schema.Projection
import Dinkster.Schema.EffectiveSchema
import Dinkster.Graph.Paths
import Dinkster.Engine.Compile
import Dinkster.Engine.CompileAdmission
import Dinkster.Lib.Passes
import Dinkster.Graph.LinkedTypes
import Dinkster.Graph.LinkedTyping
import Dinkster.Graph.LinkedAgreement
import Dinkster.Server.Events
import Dinkster.Lib.JsonRead
import Dinkster.Lib.JsonSortKeys
import Dinkster.Lib.Collect
import Dinkster.Lib.Base64Url
import Dinkster.Server.AssetFacts
import Dinkster.Server.Candidates
import Dinkster.Server.FederatedCatalog
import Dinkster.Server.CatalogIsolation
import Dinkster.Server.CatalogGeneration
import Dinkster.Server.CatalogPaging
import Dinkster.Server.CatalogPagingSafety
import Dinkster.Server.ExecutionJournal
import Dinkster.Server.RunRetention
import Dinkster.Server.RunRetentionSafety
import Dinkster.Server.RunRetentionRuns
import Dinkster.Workers.Dispatch
import Dinkster.Workers.DispatchSafety
import Dinkster.Video.Placement
import Dinkster.Video.Audio
import Dinkster.Video.Timeline
import Dinkster.Video.TimelineMeaning
import Dinkster.Video.TimelineAvailability
import Dinkster.Video.AudioWindows
import Dinkster.Server.HistoryPaging
import Dinkster.Server.HistoryPagingSafety
import Dinkster.Supervisor.HistoryIngress
import Dinkster.Supervisor.HistoryIngressSafety
import Dinkster.Lib.Checked
import Dinkster.Lib.DepthFirst
import Dinkster.Schema.Replacement
import Dinkster.Schema.ReplacementWire
import Dinkster.Schema.ReplacementRoundTrip
import Dinkster.Supervisor.Collection
import Dinkster.Supervisor.JournalSafety
import Dinkster.Supervisor.JournalRuns
import Dinkster.Lib.Publication
import Dinkster.Assets.Writer
import Dinkster.Assets.WriterNames
import Dinkster.Assets.WriterSafety
import Dinkster.Assets.WriterRuns
import Dinkster.Lib.Separated
import Dinkster.Registry.Names
import Dinkster.Registry.Grants
import Dinkster.Registry.Model
import Dinkster.Registry.Lockfile
import Dinkster.Registry.Ledger
import Dinkster.Caches.Cas
import Dinkster.Registry.Principals
import Dinkster.Registry.PrincipalsSafety
import Dinkster.Registry.PrincipalsRuns
import Dinkster.Registry.Releases
import Dinkster.Registry.Admission
import Dinkster.Registry.AdmissionSafety
import Dinkster.Registry.AdmissionRuns
import Dinkster.Registry.Records
import Dinkster.Registry.RecordsRoundTrip
import Dinkster.Registry.Plan
import Dinkster.Lib.StableSort
import Dinkster.Lib.Forest
import Dinkster.Image.Record
import Dinkster.Image.PaintOrder
import Dinkster.Image.RecordEdits
import Dinkster.Image.Siblings
import Dinkster.Image.Reordering
import Dinkster.Image.Grouping
import Dinkster.Image.PaintOrderCommands
import Dinkster.Image.FormatFields
import Dinkster.Image.Format
import Dinkster.Image.LayerTree
import Dinkster.Image.FormatSafety
import Dinkster.Image.Allocations
