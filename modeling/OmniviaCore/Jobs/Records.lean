import OmniviaCore.Jobs.Vocabulary
import OmniviaCore.Lib.Rows

/-!
# The relations of one durable job

The rows that migrations 0001, 0010 and 0015 keep for one application job, each relation in the order of
insertion. Times are microseconds. The audit rows, the digests and byte lengths of stored documents and the
identifiers of user controls are read by nothing below and left out, as is `control_kind`, which a `CHECK`
makes a function of the operation.
-/

namespace OmniviaCore.Jobs

open Lib

/-- `JOB_STATES`. -/
inductive JobState where
  | queued
  | running
  | succeeded
  | failed
  | cancelled
  deriving DecidableEq

/-- `JobState` of the scheduler row, where a running job is `claimed`. -/
inductive SchedulerState where
  | queued
  | claimed
  | succeeded
  | failed
  | cancelled
  deriving DecidableEq

/-- `_public_state`. -/
def SchedulerState.publicState : SchedulerState → JobState
  | .queued => .queued
  | .claimed => .running
  | .succeeded => .succeeded
  | .failed => .failed
  | .cancelled => .cancelled

/-- `CASE state WHEN 'running' THEN 'claimed' ELSE state END`. -/
def JobState.scheduled : JobState → SchedulerState
  | .queued => .queued
  | .running => .claimed
  | .succeeded => .succeeded
  | .failed => .failed
  | .cancelled => .cancelled

/-- Membership in `JOB_TERMINAL_STATES`. -/
def JobState.terminal : JobState → Bool
  | .succeeded | .failed | .cancelled => true
  | .queued | .running => false

/-- The mutation authority a call is made under: what its fenced transaction proved. -/
structure Authority where
  serviceInstanceId : String
  fencingGeneration : Nat
  deriving DecidableEq

/-- The row of `omnivia_job_application_metadata`. -/
structure JobMetadata where
  workspaceId : WorkspaceId
  jobId : JobId
  jobKind : String
  originatingOperation : String
  auditRef : AuditRef
  createdAtUs : Nat
  terminalResultKind : Option String
  supportsCheckpointResume : Bool
  maxAttempts : Nat

/-- A row of `omnivia_job_attempts`. -/
structure AttemptRow where
  attemptNumber : Nat
  startedAtUs : Nat
  finishedAtUs : Option Nat
  state : JobState
  error : Option ApiError

def AttemptRow.finish (a : AttemptRow) (state : JobState) (finishedAtUs : Nat)
    (error : Option ApiError) : AttemptRow :=
  { a with state := state, finishedAtUs := some finishedAtUs, error := error }

/-- A row of `omnivia_job_checkpoints`. -/
structure CheckpointRow where
  checkpointSequence : Nat
  attemptNumber : Nat
  createdAtUs : Nat

/-- A row of `omnivia_job_progress_events`. -/
structure ProgressRow where
  progressSequence : Nat
  unit : String
  completedUnits : Nat
  totalUnits : Option Nat
  message : Option String

/-- A row of `omnivia_job_events`. -/
structure EventRow where
  sequence : Nat
  occurredAtUs : Nat
  state : JobState
  message : String

/-- `ImportCompletionResult`. -/
structure ImportCompletionResult where
  importRunId : String
  source : ImportSourceDescriptor
  discoveredItems : Nat
  evidenceRecordsCreated : Nat
  skippedItems : Nat
  failedItems : Nat
  isPartial : Bool

/-- What a terminal observation states beside its state: the `CHECK` ties each branch to one. -/
inductive TerminalDocument where
  | success (resultKind : String) (result : ImportCompletionResult)
  | failure (error : ApiError)
  | cancellation (reason : String)

/-- `terminal_state`. -/
def TerminalDocument.state : TerminalDocument → JobState
  | .success .. => .succeeded
  | .failure _ => .failed
  | .cancellation _ => .cancelled

/-- `error_json`. -/
def TerminalDocument.error : TerminalDocument → Option ApiError
  | .failure error => some error
  | _ => none

/-- A row of `omnivia_job_terminal_observations`. -/
structure ObservationRow where
  number : Nat
  attemptNumber : Option Nat
  document : TerminalDocument
  finishedAtUs : Nat
  fencingGeneration : Nat

/-- `operation` of a job control; `system.recovery` is the one of kind `system`. -/
inductive ControlOperation where
  | jobCancel
  | jobRetry
  | systemRecovery
  deriving DecidableEq

/-- `JOB_CANCELLATION_DISPOSITIONS`, `JOB_RECOVERY_DISPOSITIONS` and `recovery_requeued`. -/
inductive Disposition where
  | cancellationRequested
  | cancelled
  | notCancellable
  | retryScheduled
  | resumeScheduled
  | notRetryable
  | recoveryRequeued
  deriving DecidableEq

/-- A row of `omnivia_application_job_controls`. -/
structure ControlRow where
  operation : ControlOperation
  disposition : Disposition
  sourceState : JobState
  resultingState : JobState
  sourceObservation : Option Nat
  fencingGeneration : Nat
  settledAtUs : Nat

/-- `disposition IN ('retry_scheduled', 'resume_scheduled')`. -/
def Disposition.recovers : Disposition → Bool
  | .retryScheduled | .resumeScheduled => true
  | _ => false

namespace ControlRow

/-- An accepted `job.cancel`. -/
def requestsCancellation (c : ControlRow) : Bool :=
  c.operation = .jobCancel && c.disposition = .cancellationRequested

/-- An accepted `job.retry`. -/
def schedulesRecovery (c : ControlRow) : Bool :=
  c.operation = .jobRetry && c.disposition.recovers

/-- A `system.recovery`. -/
def requeues (c : ControlRow) : Bool :=
  c.operation = .systemRecovery && c.disposition = .recoveryRequeued

def recovers (c : ControlRow) : Bool := c.schedulesRecovery || c.requeues

/-- `resulting_state = 'queued' AND (operation = 'job.retry' OR control_kind = 'system')`. -/
def requeueing (c : ControlRow) : Bool :=
  c.resultingState = .queued && (c.operation = .jobRetry || c.operation = .systemRecovery)

end ControlRow

/-- One job. -/
structure Job where
  metadata : JobMetadata
  source : ImportSourceDescriptor
  state : SchedulerState
  updatedAtUs : Nat
  claimedBy : Option String
  fencingGeneration : Nat
  attempts : List AttemptRow
  checkpoints : List CheckpointRow
  progressEvents : List ProgressRow
  events : List EventRow
  observations : List ObservationRow
  controls : List ControlRow

namespace Job

variable (j : Job)

def publicState : JobState := j.state.publicState

def latestAttempt : Option AttemptRow := latest AttemptRow.attemptNumber j.attempts

def latestObservation : Option ObservationRow := latest ObservationRow.number j.observations

def latestEvent : Option EventRow := latest EventRow.sequence j.events

/-- `SELECT MAX(finished_at_us)` over the terminal observations. -/
def lastFinishedAtUs : Option Nat := maxOf ObservationRow.finishedAtUs j.observations

/-- `SELECT MAX(occurred_at_us)` over the events. -/
def lastEventAtUs : Option Nat := maxOf EventRow.occurredAtUs j.events

/-- A `queued` event stands at the instant. -/
def queuedAt (instant : Nat) : Bool :=
  j.events.any fun e => e.state = .queued && e.occurredAtUs = instant

end Job

/-- The refusals of the job store: a trigger's or a constraint's abort, and the errors its functions
raise. -/
inductive JobError where
  /-- the caller does not hold the workspace -/
  | staleAuthority
  /-- `the staged import source is not available with the declared immutable facts` -/
  | sourceUnavailable
  /-- `the requested job was not found` -/
  | notFound
  /-- `UNIQUE constraint failed: omnivia_durable_jobs.job_id` -/
  | duplicateJob
  /-- the `CHECK` on the scheduler state -/
  | unknownState
  /-- a `CHECK (… > 0)` on a time column -/
  | timeNotPositive
  /-- `application job … is not running` -/
  | notRunning
  /-- `application job … is not claimed by …` -/
  | notClaimedBy
  /-- `application job … was claimed under fencing generation …` -/
  | claimedUnderOtherGeneration
  /-- `application job … has no pending cancellation` -/
  | noPendingCancellation
  /-- no queued job to claim -/
  | nothingQueued
  /-- the job is not a stale claim -/
  | notStale
  /-- `attempt requires a claimed durable job` -/
  | attemptNeedsClaim
  /-- `attempt number must be contiguous and within job budget` -/
  | attemptNumber
  /-- `only a failed or cancelled attempt may be retried` -/
  | attemptNotRetriable
  /-- `a retry cannot start before its predecessor finished` -/
  | attemptStartsEarly
  /-- `later attempt requires exact immutable recovery lineage` -/
  | attemptLineage
  /-- `attempt terminal state does not match durable job`, or the `CHECK` on an attempt's state -/
  | attemptState
  /-- `CHECK (finished_at_us >= started_at_us)` -/
  | attemptFinishesEarly
  /-- `job event sequence must be contiguous` -/
  | eventSequence
  /-- `job event time must not regress` -/
  | eventTimeRegresses
  /-- `job event state does not match scheduler state` -/
  | eventState
  /-- `post-terminal event lacks recovery/control lineage` -/
  | eventLineage
  /-- `terminal observation number must be contiguous` -/
  | observationNumber
  /-- `terminal observation time must not regress` -/
  | observationTimeRegresses
  /-- `terminal observation does not match scheduler and final event` -/
  | observationState
  /-- `terminal observation attempt history is inconsistent` -/
  | observationAttempt
  /-- `terminal observation does not follow accepted recovery` -/
  | observationLineage
  /-- `cancelled observation has no accepted cancellation control` -/
  | observationNotCancelled
  /-- `terminal success result kind does not match job metadata` -/
  | observationResultKind
  /-- `terminal failure must repeat the final attempt error` -/
  | observationError
  /-- the `CHECK` on `cancellation_reason` -/
  | observationReason
  /-- the unique index on the observed attempt -/
  | observationNotUnique
  /-- `job control resulting state disagrees with scheduler` -/
  | controlState
  /-- `accepted recovery does not bind the latest terminal observation` -/
  | controlBinding
  /-- `system recovery lacks the exact interrupted attempt` -/
  | controlInterrupted
  /-- a unique index on the controls -/
  | controlNotUnique
  /-- `checkpoint requires a resumable running attempt` -/
  | checkpointNeedsRunning
  /-- `checkpoint time must not regress` -/
  | checkpointTimeRegresses
  deriving DecidableEq

end OmniviaCore.Jobs
