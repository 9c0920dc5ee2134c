import OmniviaCore.Jobs.Records
import OmniviaCore.Lib.Check

/-!
# The contract of a job reading

The wire values of the job operations and the validators of `contracts/v1/semantics_jobs.py`. A
timestamp on the wire has milliseconds, so an instant here is the number of milliseconds. The states
and availabilities are the known ones: no writer of this repository produces another, and the
validators judge an unknown one for its shape only. A validator returns the error it raises; the
message of an error is the docstring of its constructor, less the values quoted in it.
-/

namespace OmniviaCore.Jobs

open Lib

/-! ## Values -/

/-- `JobIdentity`. -/
structure JobIdentity where
  jobId : String
  jobKind : String
  originatingOperation : String
  auditReference : String
  workspaceId : Option String
  deriving DecidableEq

/-- `JobProgress`. -/
structure JobProgress where
  unit : String
  completedUnits : Nat
  totalUnits : Option Nat
  message : Option String
  deriving DecidableEq

/-- `JobAttempt`. -/
structure JobAttempt where
  attemptNumber : Nat
  startedAt : Nat
  finishedAt : Option Nat
  state : JobState
  error : Option ApiError
  deriving DecidableEq

/-- `JOB_CANCELLATION_AVAILABILITIES`. -/
inductive CancellationAvailability where
  | cancellable
  | cancellationPending
  | cancelled
  | notCancellable
  deriving DecidableEq

/-- `JOB_RECOVERY_AVAILABILITIES`. -/
inductive RecoveryAvailability where
  | retryable
  | resumable
  | notRetryable
  deriving DecidableEq

/-- `JobControl`. -/
structure JobControl where
  cancellation : CancellationAvailability
  recovery : RecoveryAvailability
  deriving DecidableEq

/-- `JobHandle`. -/
structure JobHandle where
  identity : JobIdentity
  state : JobState
  createdAt : Nat
  updatedAt : Nat
  control : JobControl
  progress : Option JobProgress
  latestAttempt : Option JobAttempt
  deriving DecidableEq

/-- `JobTerminalSuccess`, `JobTerminalFailure` and `JobTerminalCancellation`: the branch is the
document's. -/
structure JobTerminalResult where
  identity : JobIdentity
  state : JobState
  finishedAt : Nat
  attempts : List JobAttempt
  document : TerminalDocument

/-- `JobGetResult`. -/
structure JobGetResult where
  job : JobHandle
  terminalResult : Option JobTerminalResult

/-- `JobGetInput`, `JobCancelInput` and `JobRetryInput`, decoded: the second alone states a
reason. -/
structure JobInput where
  jobId : String
  reason : Option String
  jobId_valid : isOpaqueToken jobId = true
  reason_valid : reason.all isOpenCode = true

/-- `JobCancelResult` and `JobRetryResult`: a handle and the disposition. -/
structure JobControlResult where
  job : JobHandle
  disposition : Disposition

/-- What a validator raises. -/
inductive ContractSemanticError where
  /-- `is not a valid OpaqueToken` -/
  | opaqueToken
  /-- `is not a valid OpenCode` -/
  | openCode
  /-- `is not a valid OperationName` -/
  | operationName
  /-- `is not a valid Identifier` -/
  | identifier
  /-- `is not a valid WorkspaceId` -/
  | workspaceId
  /-- `is not a valid ContentChecksum` -/
  | contentChecksum
  /-- `is not a valid MediaType` -/
  | mediaType
  /-- `exceeds the maximum length of 2048` -/
  | message
  /-- `completed_units … exceeds total_units …` -/
  | progressExceedsTotal
  /-- `a succeeded job stating a total must have completed it` -/
  | progressIncomplete
  /-- `attempts are 1-based` -/
  | attemptNumberPositive
  /-- `'queued' is a state of the job, not of one of its executions` -/
  | attemptQueued
  /-- `finished_at … precedes started_at …` -/
  | attemptFinishesEarly
  /-- `only a failed attempt carries a terminal error` -/
  | attemptErrorUnlessFailed
  /-- `a failed attempt must carry its terminal error` -/
  | attemptFailedWithoutError
  /-- `a running attempt has not finished` -/
  | attemptRunningFinished
  /-- `a … attempt must carry finished_at` -/
  | attemptEndedUnfinished
  /-- `precedes the job's created_at` -/
  | attemptBeforeCreation
  /-- `follows the job's updated_at` -/
  | attemptAfterUpdate
  /-- `… attempts exceeds the maximum of 256` -/
  | tooManyAttempts
  /-- `attempts are numbered 1..N contiguously` -/
  | attemptNumbering
  /-- `attempts never overlap or move backward in time` -/
  | attemptOverlap
  /-- `only the final attempt may be unfinished` -/
  | unfinishedNotFinal
  /-- `an unfinished attempt belongs only to an actively executing job` -/
  | unfinishedNotExecuting
  /-- `only a failed or cancelled attempt is ever followed by another one` -/
  | attemptIsFinal
  /-- `control.cancellation: a … job may only report …` -/
  | cancellationAvailability
  /-- `control.recovery: a … job may only report …` -/
  | recoveryAvailability
  /-- `updated_at … precedes created_at …` -/
  | updatedBeforeCreated
  /-- `a running job must report the attempt it is running under` -/
  | runningWithoutAttempt
  /-- `a … job must report the attempt that produced that outcome` -/
  | outcomeWithoutAttempt
  /-- `a running job's latest attempt must itself be running` -/
  | runningAttemptState
  /-- `a … job's latest attempt must be …` -/
  | outcomeAttemptState
  /-- `a job that is not running carries no unfinished attempt` -/
  | unfinishedAttempt
  /-- `a queued job's latest attempt is the finished failed or cancelled attempt …` -/
  | queuedAttemptState
  /-- `attempt … was already reported and a later observation never drops it` -/
  | attemptDropped
  /-- `attempt_number moved backwards` -/
  | attemptNumberRegresses
  /-- `attempt … restated its started_at` -/
  | attemptRestarted
  /-- `attempt … had already finished …; a later observation may not rewrite it` -/
  | attemptRewritten
  /-- `progress.unit changed` -/
  | progressUnit
  /-- `progress.completed_units fell` -/
  | progressFell
  /-- `progress.total_units was stated as … and is now absent` -/
  | progressTotalWithdrawn
  /-- `progress.total_units changed` -/
  | progressTotalChanged
  /-- `identity changed between observations` -/
  | identityChanged
  /-- `created_at changed between observations` -/
  | createdAtChanged
  /-- `updated_at moved backwards between observations` -/
  | updatedAtRegresses
  /-- `a job may not move from … to …` -/
  | stateProgression
  /-- `discovered_items … does not equal …` -/
  | importItems
  /-- `partial must be exactly failed_items > 0` -/
  | importPartial
  /-- `import_run_id … does not equal the job id …` -/
  | importRunId
  /-- `source is not the immutable descriptor import.start accepted` -/
  | importSource
  /-- `a successful ingestion.import job started by import.start must report 'import_completion'` -/
  | importResultKind
  /-- `'import_completion' appears only on a ingestion.import job started by import.start` -/
  | notAnImport
  /-- `accepted_import_source: … is required here` -/
  | importSourceRequired
  /-- `a … states … exactly` -/
  | terminalState
  /-- `a … job must have executed at least once` -/
  | terminalWithoutAttempt
  /-- `the final attempt must be … to match the terminal branch` -/
  | terminalAttemptState
  /-- `finished_at must equal the final attempt's finished_at` -/
  | terminalFinishedAt
  /-- `error is not the error the final attempt ended with` -/
  | terminalError
  /-- `job.identity.job_id … does not answer the requested job …` -/
  | answersOtherJob
  /-- `a job in the known terminal state … must report its terminal_result` -/
  | terminalResultMissing
  /-- `terminal_result is present for a job in state …` -/
  | terminalResultUnexpected
  /-- `terminal_result identifies a different job` -/
  | terminalIdentity
  /-- `terminal_result.state … disagrees with job.state …` -/
  | terminalDisagrees
  /-- `job.latest_attempt is not the final attempt of terminal_result.attempts` -/
  | latestAttemptNotFinal
  /-- `a control call never changes a job's identity` -/
  | controlIdentity
  /-- `a control call that changed nothing returns the current handle unchanged` -/
  | handleChanged
  /-- `disposition 'cancelled' reports a job that was already cancelled` -/
  | dispositionCancelled
  /-- `only 'cancellable' accepts a cancellation` -/
  | cancellationNotOffered
  /-- `disposition … cannot be reported for a job that has already finished` -/
  | cancellationFinished
  /-- `an accepted cancellation leaves a job pending or cancelled, never freshly cancellable again` -/
  | stillCancellable
  /-- `recovery_disposition: … recovers a … job, and this one was …` -/
  | recoveryState
  /-- `recovery_disposition: … recovers a job whose handle offered …` -/
  | recoveryNotOffered
  /-- `an accepted recovery returns the job to 'queued'` -/
  | recoveryNotQueued
  /-- `an accepted recovery creates no attempt` -/
  | recoveryCreatesAttempt
  /-- `is not a canonical RFC 3339 UTC timestamp`, or `is not a valid RFC 3339 timestamp` -/
  | timestamp
  /-- `must be zero or greater` -/
  | negative
  /-- `JOB_EVENTS_PAGE_BINDING_REJECTION_MESSAGE` -/
  | pageBinding
  /-- `page limit … is outside the bounded range` -/
  | pageLimit
  /-- `is present but names no continuation_token` -/
  | pageWithoutToken
  /-- `request_binding was supplied for a request that carries no page` -/
  | bindingWithoutPage
  /-- `exceeds the page ceiling` -/
  | pageCeiling
  /-- `a page is contiguous from the position it continued from` -/
  | pageContiguous
  /-- `falls outside the captured snapshot` -/
  | outsideSnapshot
  /-- `a job's event timestamps are non-decreasing` -/
  | eventInstant
  /-- `a page that returns nothing can never exhaust the session` -/
  | pageEmpty
  /-- `must carry a continuation_token` -/
  | continuationMissing
  /-- `offers a continuation while the captured snapshot is exhausted` -/
  | continuationOffered
  /-- `result_binding was supplied for a result that offers no continuation` -/
  | bindingWithoutToken
  /-- `is not a valid Scope` -/
  | scope
  /-- `scopes exceeds the maximum` -/
  | tooManyScopes
  /-- `requirements exceeds the maximum` -/
  | tooManyCapabilities
  /-- `is not a valid Purpose` -/
  | purpose
  /-- `an equivalence key cannot be built for a request that carries no idempotency key` -/
  | idempotencyKeyMissing
  /-- `cannot be canonicalized for idempotency equivalence` -/
  | notCanonical
  deriving DecidableEq

abbrev Validation := Except ContractSemanticError Unit

/-! ## State rules -/

/-- `JOB_STATE_TRANSITIONS`. -/
def JOB_STATE_TRANSITIONS : JobState → List JobState
  | .queued => [.queued, .running, .failed, .cancelled]
  | .running => [.running, .succeeded, .failed, .cancelled]
  | .succeeded => [.succeeded]
  | .failed => [.failed]
  | .cancelled => [.cancelled]

/-- `JOB_STATE_RECOVERY_TRANSITIONS`. -/
def JOB_STATE_RECOVERY_TRANSITIONS : JobState → List JobState
  | .failed => [.queued]
  | .cancelled => [.queued]
  | _ => []

/-- `JOB_STATE_OBSERVABLE_PROGRESSIONS`. -/
def JOB_STATE_OBSERVABLE_PROGRESSIONS : JobState → List JobState
  | .queued => [.queued, .running, .succeeded, .failed, .cancelled]
  | .running => [.running, .succeeded, .failed, .cancelled]
  | .succeeded => [.succeeded]
  | .failed => [.failed]
  | .cancelled => [.cancelled]

/-- `allowed` of `_validate_state_progression`. -/
def allowedProgressions (table : JobState → List JobState) (recoveryAccepted : Bool)
    (before : JobState) : List JobState :=
  table before ++
    if recoveryAccepted then
      (JOB_STATE_RECOVERY_TRANSITIONS before).flatMap fun recovered => recovered :: table recovered
    else []

/-- `_validate_state_progression`. -/
def validateStateProgression (before after : JobState) (table : JobState → List JobState)
    (recoveryAccepted : Bool) : Validation :=
  require (after ∈ allowedProgressions table recoveryAccepted before) .stateProgression

/-- `validate_job_state_transition`. -/
def validateJobStateTransition (before after : JobState) (recoveryAccepted : Bool) : Validation :=
  validateStateProgression before after JOB_STATE_TRANSITIONS recoveryAccepted

/-! ## Identity, progress, attempts -/

/-- `_validate_job_identity`. -/
def validateJobIdentity (identity : JobIdentity) : Validation := do
  require (isOpaqueToken identity.jobId = true) .opaqueToken
  require (isOpenCode identity.jobKind = true) .openCode
  require (isOperationName identity.originatingOperation = true) .operationName
  require (isIdentifier identity.auditReference = true) .identifier
  require (identity.workspaceId.all isIdentifier = true) .workspaceId

/-- `_validate_job_progress`. -/
def validateJobProgress (progress : JobProgress) (state : JobState) : Validation := do
  require (isOpenCode progress.unit = true) .openCode
  require (progress.message.all isMessage = true) .message
  require (progress.totalUnits.all (progress.completedUnits ≤ ·) = true) .progressExceedsTotal
  require (state = .succeeded → progress.totalUnits.all (progress.completedUnits = ·) = true)
    .progressIncomplete

def validateApiError (error : ApiError) : Validation := do
  require (isOpenCode error.code = true) .openCode
  require (isMessage error.message = true) .message
  require (isOpenCode error.retryClass = true) .openCode

/-- The error of `validate_job_attempt`. -/
def validateAttemptError (attempt : JobAttempt) : Validation :=
  match attempt.error with
  | some error => do
    validateApiError error
    require (attempt.state = .failed) .attemptErrorUnlessFailed
  | none => require (attempt.state ≠ .failed) .attemptFailedWithoutError

/-- `validate_job_attempt`. -/
def validateJobAttempt (attempt : JobAttempt) : Validation := do
  require (1 ≤ attempt.attemptNumber) .attemptNumberPositive
  require (attempt.state ≠ .queued) .attemptQueued
  require (attempt.finishedAt.all (attempt.startedAt ≤ ·) = true) .attemptFinishesEarly
  validateAttemptError attempt
  require (attempt.state = .running → attempt.finishedAt = none) .attemptRunningFinished
  require (attempt.state.terminal = true → attempt.finishedAt.isSome = true) .attemptEndedUnfinished

/-- `_validate_attempt_instants`. -/
def validateAttemptInstants (attempt : JobAttempt) (created updated : Nat) : Validation := do
  require (created ≤ attempt.startedAt) .attemptBeforeCreation
  require (attempt.startedAt ≤ updated) .attemptAfterUpdate
  require (attempt.finishedAt.all (created ≤ ·) = true) .attemptBeforeCreation
  require (attempt.finishedAt.all (· ≤ updated) = true) .attemptAfterUpdate

/-- The loop of `validate_job_attempt_history`, from an index on. -/
def validateAttemptsFrom (executing : Bool) (created updated : Nat) :
    Nat → Option Nat → List JobAttempt → Validation
  | _, _, [] => pure ()
  | index, previousFinish, item :: rest => do
    validateJobAttempt item
    require (item.attemptNumber = index + 1) .attemptNumbering
    require (previousFinish.all (· ≤ item.startedAt) = true) .attemptOverlap
    require (item.finishedAt = none → rest = []) .unfinishedNotFinal
    require (item.finishedAt = none → executing = true) .unfinishedNotExecuting
    require (rest ≠ [] → item.state = .failed ∨ item.state = .cancelled) .attemptIsFinal
    validateAttemptInstants item created updated
    validateAttemptsFrom executing created updated (index + 1) item.finishedAt rest

/-- `_ATTEMPTS_MAX_ITEMS`. -/
def ATTEMPTS_MAX_ITEMS : Nat := 256

/-- `validate_job_attempt_history`, with the lifetime of the enclosing handle. -/
def validateJobAttemptHistory (attempts : List JobAttempt) (executing : Bool)
    (created updated : Nat) : Validation := do
  require (attempts.length ≤ ATTEMPTS_MAX_ITEMS) .tooManyAttempts
  validateAttemptsFrom executing created updated 0 none attempts

/-! ## Control and handle -/

/-- `allowed_cancellation`. -/
def allowedCancellation : JobState → List CancellationAvailability
  | .queued | .running => [.cancellable, .cancellationPending, .notCancellable]
  | .succeeded | .failed => [.notCancellable]
  | .cancelled => [.cancelled, .notCancellable]

/-- `allowed_recovery`. -/
def allowedRecovery : JobState → List RecoveryAvailability
  | .queued | .running | .succeeded => [.notRetryable]
  | .failed => [.retryable, .notRetryable]
  | .cancelled => [.resumable, .notRetryable]

/-- `_validate_job_control`. -/
def validateJobControl (control : JobControl) (state : JobState) : Validation := do
  require (control.cancellation ∈ allowedCancellation state) .cancellationAvailability
  require (control.recovery ∈ allowedRecovery state) .recoveryAvailability

/-- The part of `validate_job_handle` about the latest attempt. -/
def validateLatestAttempt (handle : JobHandle) : Validation :=
  match handle.latestAttempt with
  | none => do
    require (handle.state ≠ .running) .runningWithoutAttempt
    require (handle.state ≠ .succeeded ∧ handle.state ≠ .failed) .outcomeWithoutAttempt
  | some attempt => do
    validateJobAttempt attempt
    validateAttemptInstants attempt handle.createdAt handle.updatedAt
    require (handle.state = .running → attempt.state = .running) .runningAttemptState
    require (handle.state = .succeeded ∨ handle.state = .failed → attempt.state = handle.state)
      .outcomeAttemptState
    require (handle.state ≠ .running → attempt.finishedAt.isSome = true) .unfinishedAttempt
    require (handle.state = .queued → attempt.state = .failed ∨ attempt.state = .cancelled)
      .queuedAttemptState

/-- The part of `validate_job_handle` about the counters. -/
def validateHandleProgress (handle : JobHandle) : Validation :=
  match handle.progress with
  | none => pure ()
  | some progress => validateJobProgress progress handle.state

/-- `validate_job_handle`. -/
def validateJobHandle (handle : JobHandle) : Validation := do
  validateJobIdentity handle.identity
  require (handle.createdAt ≤ handle.updatedAt) .updatedBeforeCreated
  validateJobControl handle.control handle.state
  validateHandleProgress handle
  validateLatestAttempt handle

/-! ## Progression -/

/-- `_validate_attempt_progression`. -/
def validateAttemptProgression : Option JobAttempt → Option JobAttempt → Validation
  | none, _ => pure ()
  | some _, none => throw .attemptDropped
  | some previous, some current => do
    require (previous.attemptNumber ≤ current.attemptNumber) .attemptNumberRegresses
    if current.attemptNumber ≠ previous.attemptNumber then pure ()
    else do
      require (current.startedAt = previous.startedAt) .attemptRestarted
      require (previous.finishedAt.isSome = true → current.finishedAt = previous.finishedAt ∧
        current.state = previous.state ∧ current.error = previous.error) .attemptRewritten

/-- `_validate_progress_progression`. -/
def validateProgressProgression (previous current : JobProgress) : Validation := do
  require (previous.unit = current.unit) .progressUnit
  require (previous.completedUnits ≤ current.completedUnits) .progressFell
  require (previous.totalUnits.isSome = true → current.totalUnits.isSome = true)
    .progressTotalWithdrawn
  require (previous.totalUnits.isSome = true → current.totalUnits = previous.totalUnits)
    .progressTotalChanged

/-- `validate_job_observation_progression`. -/
def validateJobObservationProgression (previous current : JobHandle) (recoveryAccepted : Bool) :
    Validation := do
  validateJobHandle previous
  validateJobHandle current
  require (previous.identity = current.identity) .identityChanged
  require (current.createdAt = previous.createdAt) .createdAtChanged
  require (previous.updatedAt ≤ current.updatedAt) .updatedAtRegresses
  validateStateProgression previous.state current.state JOB_STATE_OBSERVABLE_PROGRESSIONS
    recoveryAccepted
  validateAttemptProgression previous.latestAttempt current.latestAttempt
  match previous.progress, current.progress with
  | some before, some after => validateProgressProgression before after
  | _, _ => pure ()

/-! ## Terminal results -/

/-- `IMPORT_JOB_KIND`. -/
def IMPORT_JOB_KIND : String := "ingestion.import"

/-- `IMPORT_START_OPERATION`. -/
def IMPORT_START_OPERATION : String := "import.start"

/-- `JOB_TERMINAL_RESULT_KIND_IMPORT_COMPLETION`. -/
def JOB_TERMINAL_RESULT_KIND_IMPORT_COMPLETION : String := "import_completion"

/-- `validate_import_source_descriptor`. -/
def validateImportSourceDescriptor (source : ImportSourceDescriptor) : Validation := do
  require (isOpaqueToken source.stagedSourceRef = true) .opaqueToken
  require (isOpenCode source.sourceKind = true) .openCode
  require (isContentChecksum source.contentChecksum = true) .contentChecksum
  require (isMediaType source.mediaType = true) .mediaType
  require (source.sourceVersion.all isIdentifier = true) .identifier

/-- `validate_import_completion_result_shape`. -/
def validateImportCompletionResultShape (result : ImportCompletionResult) : Validation := do
  require (isOpaqueToken result.importRunId = true) .opaqueToken
  validateImportSourceDescriptor result.source
  require (result.discoveredItems =
    result.evidenceRecordsCreated + result.skippedItems + result.failedItems) .importItems
  require (result.isPartial = decide (0 < result.failedItems)) .importPartial

/-- `validate_import_completion_result`. -/
def validateImportCompletionResult (result : ImportCompletionResult) (jobId : String)
    (acceptedImportSource : ImportSourceDescriptor) : Validation := do
  validateImportCompletionResultShape result
  require (isOpaqueToken jobId = true) .opaqueToken
  require (result.importRunId = jobId) .importRunId
  validateImportSourceDescriptor acceptedImportSource
  require (result.source = acceptedImportSource) .importSource

/-- `_validate_import_terminal_success`. -/
def validateImportTerminalSuccess (identity : JobIdentity) (resultKind : String)
    (result : ImportCompletionResult) (acceptedImportSource : Option ImportSourceDescriptor) :
    Validation := do
  let isImportJob := identity.jobKind = IMPORT_JOB_KIND ∧
    identity.originatingOperation = IMPORT_START_OPERATION
  require (isOpenCode resultKind = true) .openCode
  require (isImportJob → resultKind = JOB_TERMINAL_RESULT_KIND_IMPORT_COMPLETION) .importResultKind
  if resultKind ≠ JOB_TERMINAL_RESULT_KIND_IMPORT_COMPLETION then pure ()
  else do
    require isImportJob .notAnImport
    match acceptedImportSource with
    | none => throw .importSourceRequired
    | some source => validateImportCompletionResult result identity.jobId source

/-- The part of `validate_job_terminal_result` about the last attempt. -/
def validateFinalAttempt (terminal : JobTerminalResult) : Validation :=
  match terminal.attempts.getLast? with
  | none => require (terminal.document.state = .cancelled) .terminalWithoutAttempt
  | some last => do
    require (last.state = terminal.document.state) .terminalAttemptState
    require (last.finishedAt = some terminal.finishedAt) .terminalFinishedAt

/-- The branches of `validate_job_terminal_result`. -/
def validateTerminalDocument (terminal : JobTerminalResult)
    (acceptedImportSource : Option ImportSourceDescriptor) : Validation :=
  match terminal.document with
  | .failure error => do
    validateApiError error
    require (terminal.attempts.getLast?.all (·.error = some error) = true) .terminalError
  | .cancellation reason => require (isOpenCode reason = true) .openCode
  | .success resultKind result =>
    validateImportTerminalSuccess terminal.identity resultKind result acceptedImportSource

/-- `validate_job_terminal_result`. -/
def validateJobTerminalResult (terminal : JobTerminalResult)
    (acceptedImportSource : Option ImportSourceDescriptor) (created updated : Nat) :
    Validation := do
  validateJobIdentity terminal.identity
  require (terminal.state = terminal.document.state) .terminalState
  validateJobAttemptHistory terminal.attempts false created updated
  validateFinalAttempt terminal
  validateTerminalDocument terminal acceptedImportSource

/-! ## `job.get` -/

/-- The part of `validate_job_get_result` about the terminal result. -/
def validateTerminalPart (result : JobGetResult)
    (acceptedImportSource : Option ImportSourceDescriptor) : Validation :=
  match result.terminalResult with
  | none => require (result.job.state.terminal = false) .terminalResultMissing
  | some terminal => do
    require (result.job.state.terminal = true) .terminalResultUnexpected
    validateJobTerminalResult terminal acceptedImportSource result.job.createdAt
      result.job.updatedAt
    require (terminal.identity = result.job.identity) .terminalIdentity
    require (terminal.state = result.job.state) .terminalDisagrees
    require (result.job.latestAttempt = terminal.attempts.getLast?) .latestAttemptNotFinal

/-- `validate_job_get_result`. -/
def validateJobGetResult (result : JobGetResult) (request : Option JobInput)
    (acceptedImportSource : Option ImportSourceDescriptor) : Validation := do
  validateJobHandle result.job
  require (request.all (·.jobId = result.job.identity.jobId) = true) .answersOtherJob
  validateTerminalPart result acceptedImportSource

/-! ## `job.cancel` and `job.retry` -/

/-- `permits_cancellation`. -/
def permitsCancellation (availability : CancellationAvailability) : Bool :=
  availability = .cancellable

/-- `is_accepted_cancellation_disposition`. -/
def isAcceptedCancellationDisposition (disposition : Disposition) : Bool :=
  disposition = .cancellationRequested

/-- `is_accepted_recovery_disposition`. -/
def isAcceptedRecoveryDisposition (disposition : Disposition) : Bool := disposition.recovers

/-- `_RECOVERY_DISPOSITION_PRECONDITIONS`. -/
def RECOVERY_DISPOSITION_PRECONDITIONS : Disposition → JobState × RecoveryAvailability
  | .resumeScheduled => (.cancelled, .resumable)
  | _ => (.failed, .retryable)

/-- `validate_job_cancel_result_shape` and `validate_job_retry_result_shape`. -/
def validateControlResultShape (result : JobControlResult) (request : Option JobInput) :
    Validation := do
  validateJobHandle result.job
  require (request.all (·.jobId = result.job.identity.jobId) = true) .answersOtherJob

/-- `_require_previous_handle`. -/
def requirePreviousHandle (previous current : JobHandle) : Validation := do
  validateJobHandle previous
  require (previous.identity = current.identity) .controlIdentity

/-- What `validate_job_cancel_result` requires of a disposition that changed the job. -/
def validateAcceptedCancellation (previous current : JobHandle) : Validation := do
  require (permitsCancellation previous.control.cancellation = true) .cancellationNotOffered
  require (current.state ≠ .succeeded ∧ current.state ≠ .failed) .cancellationFinished
  validateJobObservationProgression previous current false
  require (permitsCancellation current.control.cancellation = false) .stillCancellable

/-- `validate_job_cancel_result`. -/
def validateJobCancelResult (result : JobControlResult) (request : Option JobInput)
    (previous : JobHandle) : Validation := do
  validateControlResultShape result request
  requirePreviousHandle previous result.job
  if isAcceptedCancellationDisposition result.disposition then
    validateAcceptedCancellation previous result.job
  else do
    require (result.disposition = .cancelled → result.job.state = .cancelled) .dispositionCancelled
    require (previous = result.job) .handleChanged

/-- What `validate_job_retry_result` requires of a disposition that recovered the job. -/
def validateAcceptedRecovery (disposition : Disposition) (previous current : JobHandle) :
    Validation := do
  require (previous.state = (RECOVERY_DISPOSITION_PRECONDITIONS disposition).1) .recoveryState
  require (previous.control.recovery = (RECOVERY_DISPOSITION_PRECONDITIONS disposition).2)
    .recoveryNotOffered
  require (current.state = .queued) .recoveryNotQueued
  validateJobObservationProgression previous current true
  require (previous.latestAttempt = current.latestAttempt) .recoveryCreatesAttempt

/-- `validate_job_retry_result`. -/
def validateJobRetryResult (result : JobControlResult) (request : Option JobInput)
    (previous : JobHandle) : Validation := do
  validateControlResultShape result request
  requirePreviousHandle previous result.job
  if isAcceptedRecoveryDisposition result.disposition then
    validateAcceptedRecovery result.disposition previous result.job
  else require (previous = result.job) .handleChanged

end OmniviaCore.Jobs
