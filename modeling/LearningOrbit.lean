import LearningOrbit.Digest
import LearningOrbit.Dict
import LearningOrbit.Text
import LearningOrbit.Rows
import LearningOrbit.Raise
import LearningOrbit.TwoRuns
import LearningOrbit.Totals
import LearningOrbit.Delta
import LearningOrbit.Uuid
import LearningOrbit.Utf16
import LearningOrbit.Canonical.Json
import LearningOrbit.Canonical.Encode
import LearningOrbit.Canonical.Worker
import LearningOrbit.Reference.Events
import LearningOrbit.Reference.Extractor
import LearningOrbit.Reference.ConceptMap
import LearningOrbit.Reference.InteractionNetwork
import LearningOrbit.Reference.Validity
import LearningOrbit.Reference.LedgerView
import LearningOrbit.Reference.EchoRun
import LearningOrbit.Reference.Statements
import LearningOrbit.Reference.Replay
import LearningOrbit.Reference.Outcomes
import LearningOrbit.Reference.FailedReplay
import LearningOrbit.Reference.Retraction
import LearningOrbit.Reference.NetworkViews
import LearningOrbit.Reference.Budget
import LearningOrbit.Reference.ViewBounds
import LearningOrbit.Worker.WindowTrace
import LearningOrbit.Worker.RoomEvent
import LearningOrbit.Worker.CompositeText
import LearningOrbit.Worker.Extractors
import LearningOrbit.Worker.Projector
import LearningOrbit.Worker.Delivery
import LearningOrbit.Worker.Lockstep
import LearningOrbit.Worker.Watermarks
import LearningOrbit.Worker.Adapted
import LearningOrbit.Worker.Cursor
import LearningOrbit.Worker.ReplayJobs
import LearningOrbit.Worker.Materialize
import LearningOrbit.Worker.Rebuild
import LearningOrbit.Worker.ReplayRuns
import LearningOrbit.Worker.ReplayKept
import LearningOrbit.Worker.Suppression
import LearningOrbit.Projection.EchoSnapshot
import LearningOrbit.Worker.Hysteresis
import LearningOrbit.Projection.Store
import LearningOrbit.Projection.StoreRuns
import LearningOrbit.Projection.Reads
import LearningOrbit.Projection.TwinWriters
import LearningOrbit.Projection.EchoMap
import LearningOrbit.Projection.ConceptReducer
import LearningOrbit.Projection.EchoStore
import LearningOrbit.Projection.EchoChain
import LearningOrbit.Jobs.Queue
import LearningOrbit.Jobs.Fencing
import LearningOrbit.Jobs.Growth
import LearningOrbit.Jobs.QueueRuns
import LearningOrbit.Deletion.Saga
import LearningOrbit.Deletion.MediaSurface
import LearningOrbit.Deletion.SagaInvariant
import LearningOrbit.Agent.Context
import LearningOrbit.Deletion.Ordering
import LearningOrbit.Deletion.OrderingRuns
import LearningOrbit.Rooms.Ledger
import LearningOrbit.Rooms.Payloads
import LearningOrbit.Rooms.LedgerInvariant
import LearningOrbit.Rooms.Lifecycle
import LearningOrbit.Rooms.Messages
import LearningOrbit.Rooms.Effects
import LearningOrbit.Rooms.LifecycleRuns
import LearningOrbit.Rooms.MessageRuns
import LearningOrbit.Passes
import LearningOrbit.Journal
import LearningOrbit.Jobs.Attempts
import LearningOrbit.Projection.Reviews
import LearningOrbit.Projection.Corrections
import LearningOrbit.Projection.EdgeStatus
import LearningOrbit.Projection.StudentMap
import LearningOrbit.Projection.MergeTypes
import LearningOrbit.Projection.CanonicalNames
import LearningOrbit.Projection.Coherence
import LearningOrbit.Projection.TraceBundle
import LearningOrbit.Projection.TracePseudonyms
import LearningOrbit.Media.Assets
import LearningOrbit.Media.Outcome
import LearningOrbit.Media.Uploads
import LearningOrbit.Media.Reconcile
import LearningOrbit.Media.Janitor
import LearningOrbit.Media.UploadRuns
import LearningOrbit.Media.UploadSteps
import LearningOrbit.Media.UploadLedger
import LearningOrbit.Media.StateMachine
import LearningOrbit.Media.SurfaceErase
import LearningOrbit.Media.Expiry
import LearningOrbit.Batches
import LearningOrbit.Spans
import LearningOrbit.Media.SweepProgress
import LearningOrbit.Realtime.Client
import LearningOrbit.Realtime.RoomSocket
import LearningOrbit.Realtime.Connection
import LearningOrbit.Realtime.Resume
import LearningOrbit.Realtime.Snapshot
import LearningOrbit.Realtime.Recovery
import LearningOrbit.Realtime.Transcript
import LearningOrbit.Realtime.Panels
import LearningOrbit.Realtime.AgentStatus
import LearningOrbit.Agent.Conversation
import LearningOrbit.Agent.Runs
import LearningOrbit.Agent.Audit
import LearningOrbit.Shadow.Trigger
import LearningOrbit.Shadow.TriggerRuns
import LearningOrbit.Shadow.Runner
import LearningOrbit.Shadow.Candidates
import LearningOrbit.Agent.StateMachine
import LearningOrbit.Canonical.Parser
import LearningOrbit.Canonical.Reading
import LearningOrbit.Canonical.RoundTrip
import LearningOrbit.Frames
import LearningOrbit.Media.Sanitize
import LearningOrbit.Threads
import LearningOrbit.Media.Scan
import LearningOrbit.Media.Processor
import LearningOrbit.Media.ProcessorRuns
import LearningOrbit.Media.Download
import LearningOrbit.Since
import LearningOrbit.Access.Authorize
import LearningOrbit.Access.Effects
import LearningOrbit.Access.History
import LearningOrbit.Access.Links
import LearningOrbit.Access.Admission
import LearningOrbit.Access.Invitations
