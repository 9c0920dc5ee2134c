import OmniviaCore.Runtime.Records
import OmniviaCore.Lib.Rows

/-!
# The durable job of a run

The statements of `storage/jobs.py` and of the workflow handler on the scheduler row, the attempts, the
events, the terminal observations and the system recoveries of a runtime-bound job, each with the triggers
of migrations 0010, 0015 and 0036: those of an import job less checkpoints, `job.cancel` and `job.retry`.

`Queued` and `Claimed` are the two shapes of a job that is not terminal: every attempt before the running
one failed at the instant of the recovery that requeued the job. Under them each writer goes through as soon
as its clock is not behind.
-/

namespace OmniviaCore.Runtime

open Lib
open Jobs (JobState SchedulerState Authority JobError)

/-! ## The statements -/

def JobAttempt.finish (a : JobAttempt) (state : JobState) (nowUs : Nat) : JobAttempt :=
  { a with state := state, finishedAtUs := some nowUs }

namespace DurableJob

variable (j : DurableJob)

def lastAttempt : Option JobAttempt := j.attempts.getLast?

/-- A `queued` event stands at the instant. -/
def queuedAt (instant : Nat) : Bool :=
  j.events.any fun e => e.state = .queued && e.occurredAtUs = instant

def hasRecoveryLineage : Bool :=
  j.recoveries.any fun c =>
    some c.settledAtUs = maxOf SystemRecovery.settledAtUs j.recoveries && j.queuedAt c.settledAtUs &&
      j.lastAttempt.any (·.finishedAtUs = some c.settledAtUs)

/-- `INSERT INTO omnivia_job_attempts`, in state `running`. -/
def insertAttempt (authority : Authority) (nowUs : Nat) : Except JobError DurableJob := do
  require (j.state = .claimed ∧ j.fencingGeneration = authority.fencingGeneration ∧
    j.claimedBy = some authority.serviceInstanceId) .attemptNeedsClaim
  require (j.attempts.length < j.maxAttempts) .attemptNumber
  require (j.lastAttempt.all (fun p =>
    (p.state = .failed || p.state = .cancelled) && p.finishedAtUs.isSome) = true) .attemptNotRetriable
  require (j.lastAttempt.all (fun p => p.finishedAtUs.all fun f => decide (f ≤ nowUs)) = true)
    .attemptStartsEarly
  require (j.attempts = [] ∨ j.hasRecoveryLineage = true) .attemptLineage
  require (0 < nowUs) .timeNotPositive
  pure { j with attempts := j.attempts ++ [⟨nowUs, none, .running⟩] }

def admitsAttemptEnd (state : JobState) : Bool :=
  match state with
  | .succeeded => j.state = .succeeded
  | .failed => j.state = .queued || j.state = .failed
  | .cancelled => j.state = .cancelled
  | .queued | .running => false

/-- `UPDATE omnivia_job_attempts …`, of the latest attempt where it is running. -/
def finishAttempt (state : JobState) (nowUs : Nat) : Except JobError DurableJob :=
  match j.lastAttempt with
  | none => pure j
  | some a =>
    if a.state = .running then do
      require (j.admitsAttemptEnd state = true) .attemptState
      require (a.startedAtUs ≤ nowUs) .attemptFinishesEarly
      pure { j with attempts := j.attempts.dropLast ++ [a.finish state nowUs] }
    else pure j

def hasEventLineage (e : JobEvent) : Bool :=
  match maxOf JobObservation.finishedAtUs j.observations with
  | none => true
  | some last =>
    e.occurredAtUs < last ||
      (e.state = .queued && j.recoveries.any (·.settledAtUs = e.occurredAtUs)) ||
      (j.recoveries.any (fun c => j.queuedAt c.settledAtUs && decide (last ≤ c.settledAtUs)) &&
        j.lastAttempt.any fun a =>
          a.state = e.state && (e.state = .running || a.finishedAtUs = some e.occurredAtUs))

/-- `INSERT INTO omnivia_job_events`. -/
def insertEvent (e : JobEvent) : Except JobError DurableJob := do
  require (j.events.getLast?.all (fun p => decide (p.occurredAtUs ≤ e.occurredAtUs)) = true)
    .eventTimeRegresses
  require (j.state = e.state.scheduled) .eventState
  require (j.hasEventLineage e = true) .eventLineage
  require (0 < e.occurredAtUs) .timeNotPositive
  pure { j with events := j.events ++ [e] }

def hasObservedAttempt (o : JobObservation) : Bool :=
  if o.terminalState = .cancelled ∧ j.attempts = [] then o.attemptNumber.isNone
  else o.attemptNumber = some j.attempts.length && j.lastAttempt.any fun a =>
    a.state = o.terminalState && a.finishedAtUs = some o.finishedAtUs

/-- `INSERT INTO omnivia_job_terminal_observations`. Whether a cancellation has its lineage in the
stop ledger is the caller's to say. -/
def insertObservation (o : JobObservation) (cancellation : Bool) : Except JobError DurableJob := do
  require (j.observations.getLast?.all (fun p => decide (p.finishedAtUs ≤ o.finishedAtUs)) = true)
    .observationTimeRegresses
  require (j.state = o.terminalState.scheduled ∧ j.events.getLast?.any (fun e =>
    e.state = o.terminalState && e.occurredAtUs = o.finishedAtUs) = true) .observationState
  require (j.hasObservedAttempt o = true) .observationAttempt
  require (j.observations = [] ∨ j.recoveries.any (fun c => j.queuedAt c.settledAtUs) = true)
    .observationLineage
  require (o.terminalState ≠ .cancelled ∨ cancellation = true) .observationNotCancelled
  require (o.attemptNumber.all (fun n => j.observations.all (·.attemptNumber ≠ some n)) = true)
    .observationNotUnique
  require (0 < o.finishedAtUs) .timeNotPositive
  pure { j with observations := j.observations ++ [o] }

/-- `INSERT INTO omnivia_application_job_controls`, of a `system.recovery`. -/
def insertRecovery (c : SystemRecovery) : Except JobError DurableJob := do
  require (j.state = .queued) .controlState
  require (j.lastAttempt.any (fun a => a.state = .failed && a.finishedAtUs = some c.settledAtUs) =
    true) .controlInterrupted
  require (j.recoveries.all (fun p => decide (p.settledAtUs ≠ c.settledAtUs ∧
    p.fencingGeneration ≠ c.fencingGeneration)) = true) .controlNotUnique
  require (0 < c.settledAtUs) .timeNotPositive
  pure { j with recoveries := j.recoveries ++ [c] }

/-! ## The writers -/

/-- `UPDATE omnivia_durable_jobs SET state = 'claimed' …`. -/
def claimed (authority : Authority) : DurableJob :=
  { j with
    state := .claimed
    claimedBy := some authority.serviceInstanceId
    fencingGeneration := authority.fencingGeneration }

/-- `_claim_application_job_locked` of a queued job, and `_claim_for_cancellation`. -/
def claim (authority : Authority) (nowUs : Nat) : Except JobError DurableJob := do
  require (j.state = .queued) .nothingQueued
  let attempted ← (j.claimed authority).insertAttempt authority nowUs
  attempted.insertEvent ⟨nowUs, .running⟩

def terminate (authority : Authority) (state : JobState) (nowUs : Nat) (cancellation : Bool) :
    Except JobError DurableJob := do
  let settled : DurableJob :=
    { j with
      state := state.scheduled
      claimedBy := none
      fencingGeneration := authority.fencingGeneration }
  let finished ← settled.finishAttempt state nowUs
  let told ← finished.insertEvent ⟨nowUs, state⟩
  told.insertObservation
    ⟨if told.attempts = [] then none else some told.attempts.length, state, nowUs⟩ cancellation

/-- `_terminalize_application_job`, as succeeded or failed. -/
def terminalize (authority : Authority) (state : JobState) (nowUs : Nat) :
    Except JobError DurableJob := do
  require (j.state = .claimed) .notRunning
  require (j.claimedBy = some authority.serviceInstanceId) .notClaimedBy
  require (j.fencingGeneration = authority.fencingGeneration) .claimedUnderOtherGeneration
  j.terminate authority state nowUs false

/-- `_adopt_stale_job_claim_locked`. -/
def adoptStaleClaim (authority : Authority) : Except JobError DurableJob := do
  require (j.state = .claimed ∧ j.fencingGeneration < authority.fencingGeneration) .notStale
  pure (j.claimed authority)

def requeueInterrupted (authority : Authority) (nowUs : Nat) : Except JobError DurableJob := do
  let requeued : DurableJob := { j with state := .queued }
  let noted ← requeued.insertRecovery ⟨authority.fencingGeneration, nowUs⟩
  noted.insertEvent ⟨nowUs, .queued⟩

/-- `_recover_stranded_application_jobs_locked`, of one row of `_STRANDED_APPLICATION_JOBS`: the
job, and whether it was requeued. -/
def recover (authority : Authority) (nowUs : Nat) : Except JobError (DurableJob × Bool) := do
  require (j.state = .claimed ∧ j.fencingGeneration < authority.fencingGeneration) .notStale
  let ended ← j.terminate authority .failed nowUs false
  if ended.attempts.length < ended.maxAttempts then do
    let requeued ← ended.requeueInterrupted authority nowUs
    pure (requeued, true)
  else pure (ended, false)

/-- `_cancel_durable_job`. A queued job that was recovered is claimed first, for the one attempt its
cancellation is recorded on. -/
def cancel (authority : Authority) (nowUs : Nat) (cancellation : Bool) :
    Except JobError DurableJob :=
  if j.terminal then pure j
  else if j.state = .queued ∧ j.attempts ≠ [] then do
    let running ← j.claim authority nowUs
    running.terminate authority .cancelled nowUs cancellation
  else j.terminate authority .cancelled nowUs cancellation

end DurableJob

end OmniviaCore.Runtime
