import VariantOne.Lib.Txn
import VariantOne.Lib.Machine
import VariantOne.Lib.Dict
import VariantOne.Lib.Json
import VariantOne.Lib.Table
import VariantOne.Lib.Fence
import VariantOne.Core.Value
import VariantOne.Core.Text
import VariantOne.WorkFabric.Models
import VariantOne.WorkFabric.Tables
import VariantOne.WorkFabric.Events
import VariantOne.WorkFabric.Jobs
import VariantOne.WorkFabric.Outbox
import VariantOne.WorkFabric.OutboxSpecs
import VariantOne.WorkFabric.Projections
import VariantOne.WorkFabric.Repository
import VariantOne.WorkFabric.JobControl
import VariantOne.WorkFabric.JobSpecs
import VariantOne.WorkFabric.JobRefinement
import VariantOne.WorkFabric.Effects
import VariantOne.WorkFabric.EventLog
import VariantOne.WorkFabric.EventSourcing
import VariantOne.WorkFabric.Fencing
import VariantOne.WorkFabric.Cancellation
import VariantOne.WorkFabric.Attempts
import VariantOne.KernelRuntime.Bridge
import VariantOne.KernelRuntime.BridgeCancellation
import VariantOne.Core.Dynamic
import VariantOne.ModelRuntime.MessageGraph
import VariantOne.ModelRuntime.Render
import VariantOne.Lib.Fallback
import VariantOne.ModelRuntime.Links
import VariantOne.ModelRuntime.WireIds
import VariantOne.Transcript.ContextLineage
import VariantOne.Transcript.Economy
import VariantOne.Lib.Turns
import VariantOne.Transcript.Compaction
import VariantOne.SessionRuntime.TicketDelivery
import VariantOne.SessionRuntime.Registry
import VariantOne.SessionRuntime.RunAdmission
import VariantOne.SessionRuntime.Budgets
import VariantOne.Lib.CodePoints
import VariantOne.Core.Tree
import VariantOne.KernelRuntime.Capsule
import VariantOne.KernelRuntime.CapsuleJson
import VariantOne.SessionRuntime.OuterCalls
import VariantOne.Core.Fingerprint
import VariantOne.SessionRuntime.OuterCalls
import VariantOne.SessionRuntime.OuterCallReplay
import VariantOne.Lib.Rollup
import VariantOne.ModelRuntime.UsageLedger
import VariantOne.ModelRuntime.UsageTotals
import VariantOne.Lib.Ancestry
import VariantOne.Lib.Binary64
import VariantOne.ChatSessions.Conversation
import VariantOne.ChatSessions.ConversationOrder
import VariantOne.AgentEngine.RunState
import VariantOne.AgentEngine.SnapshotStore
import VariantOne.Lib.Linked
import VariantOne.AgentEngine.SnapshotEffects
import VariantOne.AgentEngine.SnapshotChain
import VariantOne.Lib.Keyset
import VariantOne.AgentEngine.SnapshotIndex
import VariantOne.AgentEngine.SnapshotScrub
import VariantOne.AgentEngine.SnapshotLoad
import VariantOne.Capability.Receipts
import VariantOne.Capability.Broker
import VariantOne.Automation.Scheduler
import VariantOne.KernelRuntime.ReplProtocol
import VariantOne.WorkFabric.Interactions
import VariantOne.WorkFabric.InteractionHistory
import VariantOne.Automation.Triggers
import VariantOne.Automation.Store
import VariantOne.Automation.Consumption
import VariantOne.Capability.ToolRunner
import VariantOne.Capability.ToolBatch
import VariantOne.Lib.Utf8
import VariantOne.Core.SplitLines
import VariantOne.Coding.Patch
import VariantOne.Coding.Review
import VariantOne.Coding.ReviewPanel
import VariantOne.Coding.ReviewEvidence
import VariantOne.Coding.ReviewFaithful
import VariantOne.Lib.Interleave
import VariantOne.SessionCatalog.Records
import VariantOne.SessionCatalog.Transactions
import VariantOne.SessionCatalog.Mutation
import VariantOne.Lib.Redelivery
import VariantOne.SessionCatalog.Children
import VariantOne.SessionCatalog.ChildThreads
import VariantOne.SessionCatalog.ChildMessages
import VariantOne.Lib.Trail
import VariantOne.SessionCatalog.ChildUsage
import VariantOne.Artifacts.Store
import VariantOne.Artifacts.Grants
import VariantOne.Goals.Effects
import VariantOne.Goals.Dispatch
import VariantOne.Automation.Occurrences
import VariantOne.Lib.Binding
import VariantOne.ModelRuntime.ToolResults
import VariantOne.Lib.Attach
import VariantOne.ModelRuntime.ToolImages
import VariantOne.Lib.Ranges
import VariantOne.Transcript.LineRanges
import VariantOne.Core.KeysetPages
import VariantOne.Lib.Utf8Strict
import VariantOne.Core.TextLimits
import VariantOne.SessionCatalog.CatalogFollow
import VariantOne.Lib.Layers
import VariantOne.SessionCatalog.Coherence
import VariantOne.SessionCatalog.MethodSurface
import VariantOne.WorkFabric.ScopeVisibility
import VariantOne.Lib.Surrogates
import VariantOne.Lib.Fields
import VariantOne.Git.Streams
import VariantOne.Git.Records
import VariantOne.Git.Formats
import VariantOne.Git.Status
import VariantOne.Git.Freshness
import VariantOne.ExecutionHosts.InputQueue
import VariantOne.ExecutionHosts.InputDelivery
import VariantOne.WorkFabric.Growth
import VariantOne.WorkFabric.ProjectionFold
import VariantOne.WorkFabric.OutboxDelivery
import VariantOne.Lib.Framing
import VariantOne.Lib.Utf8Stream
import VariantOne.ModelRuntime.OpenaiSse
import VariantOne.Lib.Base64
import VariantOne.KernelRuntime.WireValues
import VariantOne.Lib.Retention
import VariantOne.Lib.OnceSlot
import VariantOne.Capability.BrokerSteps
import VariantOne.Capability.BrokerRuns
import VariantOne.Capability.BatchRuns
import VariantOne.Lib.JsonSize
import VariantOne.Lib.Pieces
import VariantOne.KernelRuntime.BridgeFrames
import VariantOne.Lib.Raising
import VariantOne.WorkFabric.Scheduler
import VariantOne.WorkFabric.SchedulerLeases
