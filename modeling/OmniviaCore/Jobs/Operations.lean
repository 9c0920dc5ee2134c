import OmniviaCore.Jobs.Contract
import OmniviaCore.Jobs.Triggers

/-!
# Reading and writing a job

`read_application_job_snapshot` of `storage/jobs.py` and the control it derives. A reading is taken
from the rows alone: the scheduler state, the attempts, the latest progress and terminal
observation, and the controls whose settlement a pending cancellation is recognised by.

`JobOp.apply` is one writer's effect on one job.
-/

namespace OmniviaCore.Jobs

section

open Lib

/-- `_timestamp`: microseconds of the store to milliseconds of the wire. -/
def timestamp (us : Nat) : Nat := us / 1000

theorem timestamp_mono {a b : Nat} (h : a ≤ b) : timestamp a ≤ timestamp b :=
  Nat.div_le_div_right h

/-- The instant the text of `_timestamp` states. -/
def milliseconds (us : Nat) : Nat := timestamp us * 1000

theorem milliseconds_le (us : Nat) : milliseconds us ≤ us := Nat.div_mul_le_self us 1000

/-- `_CONTROLLABLE_JOB_KINDS`. -/
def CONTROLLABLE_JOB_KINDS : List String := ["ingestion.import"]

/-- A row of `_attempts`. -/
def AttemptRow.toWire (a : AttemptRow) : JobAttempt where
  attemptNumber := a.attemptNumber
  startedAt := timestamp a.startedAtUs
  finishedAt := a.finishedAtUs.map timestamp
  state := a.state
  error := a.error

namespace Job

variable (j : Job)

/-- The `JobIdentity` of a reading. -/
def identity : JobIdentity where
  jobId := j.metadata.jobId.text
  jobKind := j.metadata.jobKind
  originatingOperation := j.metadata.originatingOperation
  auditReference := j.metadata.auditRef.text
  workspaceId := some j.metadata.workspaceId.text

/-- `_attempts`, which reads the rows in the order of their numbers. -/
def history : List JobAttempt := j.attempts.map AttemptRow.toWire

/-- The accepted cancellation `_control` selects. -/
def hasPendingCancellation : Bool :=
  j.controls.any fun c => c.requestsCancellation && decide (j.lastFinishedAtUs.getD 0 < c.settledAtUs)

/-- `cancellation` of `_control`. -/
def cancellationAvailability : CancellationAvailability :=
  match j.publicState with
  | .cancelled => .cancelled
  | .succeeded | .failed => .notCancellable
  | .queued | .running => if j.hasPendingCancellation then .cancellationPending else .cancellable

/-- `recovery` of `_control`. -/
def recoveryAvailability : RecoveryAvailability :=
  match j.publicState with
  | .failed =>
    if j.attempts.length < j.metadata.maxAttempts ∧
        j.attempts.getLast?.any (fun a => a.error.any (·.retryClass = "retryable")) = true then
      .retryable
    else .notRetryable
  | .cancelled =>
    if j.metadata.supportsCheckpointResume = true ∧ j.attempts.length < j.metadata.maxAttempts ∧
        j.checkpoints ≠ [] then
      .resumable
    else .notRetryable
  | _ => .notRetryable

/-- `_control`. -/
def control : JobControl :=
  if j.metadata.jobKind ∉ CONTROLLABLE_JOB_KINDS then ⟨.notCancellable, .notRetryable⟩
  else ⟨j.cancellationAvailability, j.recoveryAvailability⟩

/-- `CAST(strftime('%s', j.updated_at) AS INTEGER) * 1000000`: SQLite takes an instant to the nearest
millisecond, and then its second. -/
def schedulerUs : Nat := (j.updatedAtUs + 500) / 1000000 * 1000000

/-- `updated_at_us`. -/
def updatedUs : Nat :=
  max (max j.metadata.createdAtUs j.schedulerUs) (j.lastEventAtUs.getD 0)

def progress : Option JobProgress :=
  (latest ProgressRow.progressSequence j.progressEvents).map fun p =>
    ⟨p.unit, p.completedUnits, p.totalUnits, p.message⟩

/-- The `JobHandle` of a reading. -/
def handle : JobHandle where
  identity := j.identity
  state := j.publicState
  createdAt := timestamp j.metadata.createdAtUs
  updatedAt := timestamp j.updatedUs
  control := j.control
  progress := j.progress
  latestAttempt := j.history.getLast?

/-- The terminal result of a reading: the latest observation, where it is of the job's state. -/
def terminalResult : Option JobTerminalResult :=
  match j.latestObservation with
  | none => none
  | some o =>
    if o.document.state = j.publicState then
      some ⟨j.identity, j.publicState, timestamp o.finishedAtUs, j.history, o.document⟩
    else none

/-- `read_application_job_snapshot`, of a job the store has. -/
def snapshot : JobGetResult := ⟨j.handle, j.terminalResult⟩

end Job

end

/-! ## The writers

The functions of `storage/jobs.py` and `service/jobs.py` that write the rows of one job, inside the
caller's fenced transaction: each is a sequence of statements, and an abort of one refuses the whole.
An instant a function reads from its clock, or is given by its settlement, is an argument. A writer
that is not of this job leaves it alone; which job a call is about is the store's. -/

section

open Lib

/-- What a terminalization reports: the states its callers pass, with their documents, and any other
text, which the scheduler's `CHECK` refuses. -/
inductive Outcome where
  /-- `complete_application_job`, of the completion `_import` builds -/
  | succeeded (evidenceCreated : Bool)
  /-- `fail_application_job` -/
  | failed (error : ApiError)
  /-- `acknowledge_application_job_cancellation` -/
  | cancelled (reason : String)
  | other (state : String)

/-- `job {state}`. -/
def terminalMessage : JobState → String
  | .succeeded => "job succeeded"
  | .failed => "job failed"
  | .cancelled => "job cancelled"
  | .queued => "job queued"
  | .running => "job running"

namespace Job

variable (j : Job)

/-- The completion `_import` reports for the job. -/
def importCompletion (evidenceCreated : Bool) : ImportCompletionResult where
  importRunId := j.metadata.jobId.text
  source := j.source
  discoveredItems := 1
  evidenceRecordsCreated := if evidenceCreated then 1 else 0
  skippedItems := if evidenceCreated then 0 else 1
  failedItems := 0
  isPartial := false

def documentOf : Outcome → Except JobError TerminalDocument
  | .succeeded evidenceCreated => pure
      (.success JOB_TERMINAL_RESULT_KIND_IMPORT_COMPLETION (j.importCompletion evidenceCreated))
  | .failed error => pure (.failure error)
  | .cancelled reason => pure (.cancellation reason)
  | .other _ => throw .unknownState

def nextEvent (occurredAtUs : Nat) (state : JobState) (message : String) : EventRow :=
  ⟨nextNumber 0 EventRow.sequence j.events, occurredAtUs, state, message⟩

/-- `UPDATE omnivia_durable_jobs SET state = 'claimed' … WHERE state = 'queued'`. -/
def claimRow (authority : Authority) (nowUs : Nat) : Job :=
  if j.state = .queued then
    { j with
      state := .claimed
      updatedAtUs := nowUs
      claimedBy := some authority.serviceInstanceId
      fencingGeneration := authority.fencingGeneration }
  else j

def openAttempt (authority : Authority) (nowUs : Nat) (message : String) : Except JobError Job := do
  let attempted ← j.insertAttempt authority (nextNumber 1 AttemptRow.attemptNumber j.attempts) nowUs
  attempted.insertEvent (attempted.nextEvent nowUs .running message)

/-- `_claim_application_job_locked`, of the job it selected. -/
def claim (authority : Authority) (nowUs : Nat) : Except JobError Job := do
  require (j.state = .queued) .nothingQueued
  (j.claimRow authority nowUs).openAttempt authority nowUs "job execution started"

def endAttempt (authority : Authority) (nowUs updatedAtUs : Nat) (document : TerminalDocument)
    (message : String) : Except JobError Job := do
  let settled : Job :=
    { j with
      state := document.state.scheduled
      updatedAtUs := updatedAtUs
      claimedBy := none
      fencingGeneration := authority.fencingGeneration }
  let finished ← settled.finishAttempt document.state nowUs document.error
  let told ← finished.insertEvent (finished.nextEvent nowUs document.state message)
  told.insertObservation ⟨nextNumber 1 ObservationRow.number told.observations,
    maxOf AttemptRow.attemptNumber told.attempts, document, nowUs, authority.fencingGeneration⟩

/-- `_terminalize_application_job`. -/
def terminalize (authority : Authority) (nowUs : Nat) (outcome : Outcome) : Except JobError Job := do
  require (j.state = .claimed) .notRunning
  require (j.claimedBy = some authority.serviceInstanceId) .notClaimedBy
  require (j.fencingGeneration = authority.fencingGeneration) .claimedUnderOtherGeneration
  let document ← j.documentOf outcome
  j.endAttempt authority nowUs nowUs document (terminalMessage document.state)

/-- `disposition` of `request_job_cancellation`. -/
def cancellationDisposition : Disposition :=
  if j.control.cancellation = .cancellable then .cancellationRequested
  else if j.publicState = .cancelled then .cancelled
  else .notCancellable

/-- `request_job_cancellation`. -/
def requestCancellation (authority : Authority) (settledAtUs : Nat) : Except JobError Job := do
  let noted ← j.insertControl ⟨.jobCancel, j.cancellationDisposition, j.publicState, j.publicState,
    none, authority.fencingGeneration, settledAtUs⟩
  if j.cancellationDisposition = .cancellationRequested then
    noted.insertEvent (noted.nextEvent settledAtUs j.publicState "job cancellation requested")
  else pure noted

/-- `disposition` of `request_job_retry`. -/
def recoveryDisposition : Disposition :=
  if j.publicState = .failed ∧ j.control.recovery = .retryable then .retryScheduled
  else if j.publicState = .cancelled ∧ j.control.recovery = .resumable then .resumeScheduled
  else .notRetryable

/-- The event of `request_job_retry`, which every control resulting in `queued` is followed by. -/
def insertRetryEvent (settledAtUs : Nat) (resultingState : JobState) : Except JobError Job :=
  if resultingState = .queued then
    j.insertEvent (j.nextEvent settledAtUs .queued "job recovery scheduled")
  else pure j

/-- `request_job_retry`. -/
def requestRetry (authority : Authority) (settledAtUs : Nat) : Except JobError Job :=
  if j.recoveryDisposition ≠ .notRetryable then do
    let requeued : Job :=
      { j with
        state := .queued
        updatedAtUs := milliseconds settledAtUs
        claimedBy := none
        fencingGeneration := authority.fencingGeneration }
    let noted ← requeued.insertControl ⟨.jobRetry, j.recoveryDisposition, j.publicState, .queued,
      maxOf ObservationRow.number j.observations, authority.fencingGeneration, settledAtUs⟩
    noted.insertRetryEvent settledAtUs .queued
  else do
    let noted ← j.insertControl ⟨.jobRetry, .notRetryable, j.publicState, j.publicState, none,
      authority.fencingGeneration, settledAtUs⟩
    noted.insertRetryEvent settledAtUs j.publicState

/-- The queued branch of `acknowledge_application_job_cancellation`. Its `UPDATE` claims nothing when
the job has left the queue since it was read. -/
def acknowledgeQueued (authority : Authority) (startedAtUs nowUs : Nat) (reason : String) :
    Except JobError Job := do
  require (j.controls.any (fun c => c.requestsCancellation && c.resultingState = .queued) = true)
    .noPendingCancellation
  let running ← (j.claimRow authority startedAtUs).openAttempt authority startedAtUs
    "cancellation acknowledgement started"
  running.terminalize authority nowUs (.cancelled reason)

/-- `acknowledge_application_job_cancellation`. The job's state is read before the transaction, so
`sawQueued` is what that read found. -/
def acknowledgeCancellation (authority : Authority) (sawQueued : Bool) (startedAtUs nowUs : Nat)
    (reason : String) : Except JobError Job :=
  if sawQueued then j.acknowledgeQueued authority startedAtUs nowUs reason
  else j.terminalize authority nowUs (.cancelled reason)

/-- `_adopt_stale_job_claim_locked`. -/
def adoptStaleClaim (authority : Authority) (nowUs : Nat) : Except JobError Job := do
  require (j.state = .claimed ∧ j.fencingGeneration < authority.fencingGeneration) .notStale
  pure
    { j with
      updatedAtUs := milliseconds nowUs
      claimedBy := some authority.serviceInstanceId
      fencingGeneration := authority.fencingGeneration }

/-- The part of a recovery that requeues the job, while its budget lasts. -/
def requeueInterrupted (authority : Authority) (nowUs : Nat) : Except JobError Job := do
  let requeued : Job := { j with state := .queued }
  let noted ← requeued.insertControl ⟨.systemRecovery, .recoveryRequeued, .running, .queued, none,
    authority.fencingGeneration, nowUs⟩
  noted.insertEvent (noted.nextEvent nowUs .queued "interrupted job recovered")

/-- `_recover_stranded_application_jobs_locked`, of one row of `_STRANDED_APPLICATION_JOBS`. -/
def recover (authority : Authority) (nowUs : Nat) : Except JobError Job := do
  require (j.state = .claimed ∧ j.fencingGeneration < authority.fencingGeneration) .notStale
  let ended ← j.endAttempt authority nowUs (milliseconds nowUs) (.failure recoveryError)
    "interrupted attempt failed"
  if (maxOf AttemptRow.attemptNumber ended.attempts).getD 0 < ended.metadata.maxAttempts then
    ended.requeueInterrupted authority nowUs
  else pure ended

end Job

/-- A writer, with the instants it reads. -/
inductive JobOp where
  | claim (nowUs : Nat)
  | terminalize (outcome : Outcome) (nowUs : Nat)
  | requestCancellation (settledAtUs : Nat)
  | requestRetry (settledAtUs : Nat)
  | acknowledgeCancellation (sawQueued : Bool) (startedAtUs nowUs : Nat) (reason : String)
  | adoptStaleClaim (nowUs : Nat)
  | recover (nowUs : Nat)
  | insertCheckpoint (attemptNumber createdAtUs : Nat)

def JobOp.apply (op : JobOp) (authority : Authority) (j : Job) : Except JobError Job :=
  match op with
  | .claim nowUs => j.claim authority nowUs
  | .terminalize outcome nowUs => j.terminalize authority nowUs outcome
  | .requestCancellation settledAtUs => j.requestCancellation authority settledAtUs
  | .requestRetry settledAtUs => j.requestRetry authority settledAtUs
  | .acknowledgeCancellation sawQueued startedAtUs nowUs reason =>
    j.acknowledgeCancellation authority sawQueued startedAtUs nowUs reason
  | .adoptStaleClaim nowUs => j.adoptStaleClaim authority nowUs
  | .recover nowUs => j.recover authority nowUs
  | .insertCheckpoint attemptNumber createdAtUs => j.insertCheckpoint attemptNumber createdAtUs

end

end OmniviaCore.Jobs
