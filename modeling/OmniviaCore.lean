import OmniviaCore.Ownership.SingleWriter
import OmniviaCore.Dispatch.Reconciliation
import OmniviaCore.Jobs.EventLog
import OmniviaCore.Framing.Frames
import OmniviaCore.Jobs.Cancellation
import OmniviaCore.Mutation.ExactlyOnce
import OmniviaCore.Runtime.Histories
import OmniviaCore.Runtime.StopIntegrity
import OmniviaCore.Execution.LeaseSafety
import OmniviaCore.Execution.PlaneSafety
import OmniviaCore.Execution.LoopFinality
import OmniviaCore.Execution.LoopResume
import OmniviaCore.Jobs.EventPages
import OmniviaCore.Jobs.Idempotency
import OmniviaCore.Connector.CursorChains
import OmniviaCore.Engineering.InvalidationSafety
import OmniviaCore.Connector.FilesystemMirror
import OmniviaCore.SemanticRegistry.ImpactSoundness
import OmniviaCore.Execution.SessionReconciliation
import OmniviaCore.Execution.RunOracle
import OmniviaCore.Knowledge.Selection
import OmniviaCore.Execution.AutonomyNarrowing
import OmniviaCore.Execution.InteractionSettlement
import OmniviaCore.Gates.CompletionExactness
import OmniviaCore.Client.Cancellation
import OmniviaCore.Gates.DispatchFailsClosed
import OmniviaCore.Connector.Exposure
import OmniviaCore.Client.UpdateHonesty
import OmniviaCore.Client.UpdateAdmission
import OmniviaCore.Connector.ResumeCursor
import OmniviaCore.SemanticRegistry.ConceptCycles
import OmniviaCore.Governed.GraphSnapshot
import OmniviaCore.Effects.Heads
import OmniviaCore.SemanticRegistry.LiteralDigests
import OmniviaCore.Runtime.AttemptBudget
import OmniviaCore.Runtime.StopHonoured
import OmniviaCore.Runtime.RecoveryPasses
import OmniviaCore.Runtime.WaitResolutions
import OmniviaCore.SemanticRegistry.CandidateBands
import OmniviaCore.SemanticRegistry.ApplySoundness
import OmniviaCore.SemanticRegistry.StoredVersions
import OmniviaCore.SemanticRegistry.Supersessions
import OmniviaCore.Engineering.StreamSweep
import OmniviaCore.SemanticRegistry.Suppressions
import OmniviaCore.Service.ResourceRelease
import OmniviaCore.Ownership.Takeover
import OmniviaCore.Service.JobAttempts
import OmniviaCore.Service.ContinuationTokens
import OmniviaCore.SemanticRegistry.SourceTimezones
import OmniviaCore.Imports.Accounting
