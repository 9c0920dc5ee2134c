import OmniviaCore.Jobs.Records
import OmniviaCore.Lib.Check

/-!
# The schema's own rules for a job

Every insert and update of the job relations passes a trigger: those of migration 0010, replaced in part by
0015, and the terminal-observation trigger of 0036. The functions below refuse what the trigger or a
constraint aborts, and otherwise return the job with the row written. The branch of 0036 for a workflow run
is not here: an import job carries no such run. One lemma for each says what it means that it passed.
-/

namespace OmniviaCore.Jobs

open Lib

namespace Job

variable (j : Job)

def attemptAt (number : Nat) : Option AttemptRow := j.attempts.find? (·.attemptNumber = number)

def eventAt (sequence : Nat) : Option EventRow := j.events.find? (·.sequence = sequence)

def observationAt (number : Nat) : Option ObservationRow := j.observations.find? (·.number = number)

/-! ## Attempts -/

/-- `MAX(settled_at_us)` over the controls that requeue. -/
def lastRequeueingAtUs : Option Nat :=
  maxOf ControlRow.settledAtUs (j.controls.filter ControlRow.requeueing)

/-- The exact immutable recovery lineage an attempt after the first requires. -/
def hasRecoveryLineage (attemptNumber : Nat) : Bool :=
  j.controls.any fun c =>
    c.requeueing && some c.settledAtUs = j.lastRequeueingAtUs && j.queuedAt c.settledAtUs &&
      ((c.schedulesRecovery && c.sourceObservation.isSome &&
          c.sourceObservation = maxOf ObservationRow.number j.observations) ||
        (c.requeues && (j.attemptAt (attemptNumber - 1)).any (·.finishedAtUs = some c.settledAtUs)))

/-- `INSERT INTO omnivia_job_attempts`, in state `running`. -/
def insertAttempt (authority : Authority) (attemptNumber startedAtUs : Nat) :
    Except JobError Job := do
  require (j.state = .claimed ∧ j.fencingGeneration = authority.fencingGeneration ∧
    j.claimedBy = some authority.serviceInstanceId) .attemptNeedsClaim
  require (attemptNumber = nextNumber 1 AttemptRow.attemptNumber j.attempts ∧
    attemptNumber ≤ j.metadata.maxAttempts) .attemptNumber
  require (attemptNumber ≤ 1 ∨ (j.attemptAt (attemptNumber - 1)).any (fun p =>
    (p.state = .failed || p.state = .cancelled) && p.finishedAtUs.isSome) = true) .attemptNotRetriable
  require (attemptNumber ≤ 1 ∨ (j.attemptAt (attemptNumber - 1)).all (fun p =>
    p.finishedAtUs.all (· ≤ startedAtUs)) = true) .attemptStartsEarly
  require (attemptNumber ≤ 1 ∨ j.hasRecoveryLineage attemptNumber = true) .attemptLineage
  require (0 < startedAtUs) .timeNotPositive
  pure { j with attempts := j.attempts ++ [⟨attemptNumber, startedAtUs, none, .running, none⟩] }

def admitsAttemptEnd (state : JobState) (error : Option ApiError) : Bool :=
  match state with
  | .succeeded => j.state = .succeeded && error.isNone
  | .failed => (j.state = .queued || j.state = .failed) && error.isSome
  | .cancelled => j.state = .cancelled && error.isNone
  | .queued | .running => false

/-- `UPDATE omnivia_job_attempts … WHERE attempt_number = MAX(attempt_number) AND
state = 'running'`: no row, or the trigger's one terminalization. -/
def finishAttempt (state : JobState) (finishedAtUs : Nat) (error : Option ApiError) :
    Except JobError Job :=
  match j.latestAttempt with
  | none => pure j
  | some a =>
    if a.state = .running then do
      require (j.admitsAttemptEnd state error = true) .attemptState
      require (a.startedAtUs ≤ finishedAtUs) .attemptFinishesEarly
      let ended := updateAt AttemptRow.attemptNumber a.attemptNumber
        (fun row => row.finish state finishedAtUs error) j.attempts
      pure { j with attempts := ended }
    else pure j

/-! ## Events -/

/-- An accepted control put the job in the queue, or kept it there, at the instant. -/
def isQueuedByControl (instant : Nat) : Bool :=
  j.controls.any fun c =>
    c.resultingState = .queued && c.settledAtUs = instant &&
      (c.schedulesRecovery || c.operation = .systemRecovery || c.requestsCancellation)

/-- A requeueing control settled with its event at or after the instant. -/
def isRequeuedSince (instant : Nat) : Bool :=
  j.controls.any fun c =>
    c.requeueing && j.queuedAt c.settledAtUs && decide (instant ≤ c.settledAtUs)

/-- A cancellation of the job in the event's state was accepted at its instant. -/
def isCancelledAt (e : EventRow) : Bool :=
  j.controls.any fun c =>
    c.requestsCancellation && c.resultingState = e.state && c.settledAtUs = e.occurredAtUs

/-- The latest attempt is in the event's state, and ended then if it ended. -/
def isOfLatestAttempt (e : EventRow) : Bool :=
  j.latestAttempt.any fun a =>
    a.state = e.state && (e.state = .running || a.finishedAtUs = some e.occurredAtUs)

/-- The lineage an event at or after the last terminal observation requires. -/
def hasEventLineage (e : EventRow) : Bool :=
  match j.lastFinishedAtUs with
  | none => true
  | some last =>
    e.occurredAtUs < last || (e.state = .queued && j.isQueuedByControl e.occurredAtUs) ||
      (j.isRequeuedSince last && (j.isOfLatestAttempt e || j.isCancelledAt e))

/-- `INSERT INTO omnivia_job_events`. -/
def insertEvent (e : EventRow) : Except JobError Job := do
  require (e.sequence = nextNumber 0 EventRow.sequence j.events) .eventSequence
  require (e.sequence = 0 ∨
    (j.eventAt (e.sequence - 1)).all (fun p => decide (p.occurredAtUs ≤ e.occurredAtUs)) = true)
    .eventTimeRegresses
  require (j.state = e.state.scheduled) .eventState
  require (j.hasEventLineage e = true) .eventLineage
  require (0 < e.occurredAtUs) .timeNotPositive
  pure { j with events := j.events ++ [e] }

/-! ## Terminal observations -/

def hasObservedAttempt (o : ObservationRow) : Bool :=
  match o.document.state with
  | .cancelled =>
    if j.attempts = [] then o.attemptNumber.isNone
    else j.latestAttempt.any fun a =>
      o.attemptNumber = some a.attemptNumber && a.state = .cancelled &&
        a.finishedAtUs = some o.finishedAtUs
  | state => j.latestAttempt.any fun a =>
      o.attemptNumber = some a.attemptNumber && a.state = state &&
        a.finishedAtUs = some o.finishedAtUs

def hasObservationLineage (o : ObservationRow) : Bool :=
  j.controls.any fun c =>
    ((c.schedulesRecovery && c.sourceObservation = some (o.number - 1)) || c.requeues) &&
      j.queuedAt c.settledAtUs

def hasCancellation (o : ObservationRow) : Bool :=
  j.controls.any fun c =>
    c.requestsCancellation && decide (c.settledAtUs ≤ o.finishedAtUs) &&
      (o.number = 1 ||
        (j.observationAt (o.number - 1)).any fun p => decide (p.finishedAtUs ≤ c.settledAtUs))

def checkDocument (o : ObservationRow) : Except JobError Unit :=
  match o.document with
  | .success resultKind _ =>
    require (j.metadata.terminalResultKind.all (· = resultKind) = true) .observationResultKind
  | .failure error =>
    require (o.attemptNumber.any (fun n => (j.attemptAt n).any (·.error = some error)) = true)
      .observationError
  | .cancellation reason => require (isOpenCode reason = true) .observationReason

/-- `INSERT INTO omnivia_job_terminal_observations`. -/
def insertObservation (o : ObservationRow) : Except JobError Job := do
  require (o.number = nextNumber 1 ObservationRow.number j.observations) .observationNumber
  require (o.number ≤ 1 ∨ (j.observationAt (o.number - 1)).all (fun p =>
    decide (p.finishedAtUs ≤ o.finishedAtUs)) = true) .observationTimeRegresses
  require (j.state = o.document.state.scheduled ∧ j.latestEvent.any (fun e =>
    e.state = o.document.state && e.occurredAtUs = o.finishedAtUs) = true) .observationState
  require (j.hasObservedAttempt o = true) .observationAttempt
  require (o.number ≤ 1 ∨ j.hasObservationLineage o = true) .observationLineage
  require (o.document.state ≠ .cancelled ∨ j.hasCancellation o = true) .observationNotCancelled
  j.checkDocument o
  require (o.attemptNumber.all (fun n => j.observations.all (·.attemptNumber ≠ some n)) = true)
    .observationNotUnique
  require (0 < o.finishedAtUs) .timeNotPositive
  pure { j with observations := j.observations ++ [o] }

/-! ## Controls -/

def bindsRecovery (c : ControlRow) : Bool :=
  j.latestObservation.any fun o =>
    c.sourceObservation = some o.number && o.document.state = c.sourceState &&
      match c.disposition with
      | .retryScheduled => o.document.error.any (·.retryClass = "retryable")
      | .resumeScheduled => o.document.state = .cancelled && j.metadata.supportsCheckpointResume &&
          j.checkpoints.any fun k => (j.attemptAt k.attemptNumber).any (·.finishedAtUs.isSome)
      | _ => false

def interruptedAt (instant : Nat) : Bool :=
  j.latestAttempt.any fun a =>
    a.state = .failed && a.finishedAtUs = some instant &&
      a.error.any fun e => e.code = "internal_recoverable" && e.retryClass = "retryable"

/-- The unique indexes and the primary key: an observation is recovered from once, and system
recoveries differ in instant and in generation. -/
def controlIsUnique (c : ControlRow) : Bool :=
  j.controls.all fun p =>
    !(c.schedulesRecovery && p.schedulesRecovery && c.sourceObservation = p.sourceObservation) &&
      !(c.operation = .systemRecovery && p.operation = .systemRecovery &&
        (c.settledAtUs = p.settledAtUs || c.fencingGeneration = p.fencingGeneration))

/-- `INSERT INTO omnivia_application_job_controls`. -/
def insertControl (c : ControlRow) : Except JobError Job := do
  require (j.state = c.resultingState.scheduled) .controlState
  require (c.schedulesRecovery = false ∨ j.bindsRecovery c = true) .controlBinding
  require (c.operation ≠ .systemRecovery ∨ j.interruptedAt c.settledAtUs = true) .controlInterrupted
  require (j.controlIsUnique c = true) .controlNotUnique
  require (0 < c.settledAtUs) .timeNotPositive
  pure { j with controls := j.controls ++ [c] }

/-! ## Checkpoints -/

/-- `INSERT INTO omnivia_job_checkpoints`. -/
def insertCheckpoint (attemptNumber createdAtUs : Nat) : Except JobError Job := do
  require (j.metadata.supportsCheckpointResume = true ∧ j.state = .claimed ∧
    (j.attemptAt attemptNumber).any (fun a =>
      a.state = .running && decide (a.startedAtUs ≤ createdAtUs)) = true) .checkpointNeedsRunning
  let sequence := nextNumber 0 CheckpointRow.checkpointSequence j.checkpoints
  require (sequence = 0 ∨ (j.checkpoints.find? (·.checkpointSequence = sequence - 1)).all
    (fun p => decide (p.createdAtUs ≤ createdAtUs)) = true) .checkpointTimeRegresses
  require (0 < createdAtUs) .timeNotPositive
  pure { j with checkpoints := j.checkpoints ++ [⟨sequence, attemptNumber, createdAtUs⟩] }

/-! ## What went through -/

variable {j : Job} {j' : Job}

theorem insertAttempt_ok {authority : Authority} {attemptNumber startedAtUs : Nat}
    (h : j.insertAttempt authority attemptNumber startedAtUs = .ok j') :
    j' = { j with attempts := j.attempts ++ [⟨attemptNumber, startedAtUs, none, .running, none⟩] } ∧
    j.state = .claimed ∧
    attemptNumber = nextNumber 1 AttemptRow.attemptNumber j.attempts ∧
    attemptNumber ≤ j.metadata.maxAttempts ∧
    (attemptNumber ≤ 1 ∨ (j.attemptAt (attemptNumber - 1)).any (fun p =>
      (p.state = .failed || p.state = .cancelled) && p.finishedAtUs.isSome) = true) ∧
    (attemptNumber ≤ 1 ∨ (j.attemptAt (attemptNumber - 1)).all (fun p =>
      p.finishedAtUs.all (· ≤ startedAtUs)) = true) ∧
    (attemptNumber ≤ 1 ∨ j.hasRecoveryLineage attemptNumber = true) := by
  simp only [insertAttempt, bind_eq_ok, require_eq_ok, exists_unit, pure_eq_ok] at h
  obtain ⟨⟨hclaimed, -⟩, ⟨hnumber, hbudget⟩, hretriable, hstart, hlineage, -, rfl⟩ := h
  exact ⟨rfl, hclaimed, hnumber, hbudget, hretriable, hstart, hlineage⟩

theorem insertEvent_ok {e : EventRow} (h : j.insertEvent e = .ok j') :
    j' = { j with events := j.events ++ [e] } ∧
    e.sequence = nextNumber 0 EventRow.sequence j.events ∧
    (e.sequence = 0 ∨
      (j.eventAt (e.sequence - 1)).all (fun p => decide (p.occurredAtUs ≤ e.occurredAtUs)) = true) ∧
    j.state = e.state.scheduled ∧ j.hasEventLineage e = true := by
  simp only [insertEvent, bind_eq_ok, require_eq_ok, exists_unit, pure_eq_ok] at h
  obtain ⟨hsequence, htime, hstate, hlineage, -, rfl⟩ := h
  exact ⟨rfl, hsequence, htime, hstate, hlineage⟩

theorem insertObservation_ok {o : ObservationRow} (h : j.insertObservation o = .ok j') :
    j' = { j with observations := j.observations ++ [o] } ∧
    o.number = nextNumber 1 ObservationRow.number j.observations ∧
    (o.number ≤ 1 ∨ (j.observationAt (o.number - 1)).all (fun p =>
      decide (p.finishedAtUs ≤ o.finishedAtUs)) = true) ∧
    j.hasObservedAttempt o = true ∧
    (o.document.state ≠ .cancelled ∨ j.hasCancellation o = true) ∧ j.checkDocument o = .ok () := by
  simp only [insertObservation, bind_eq_ok, require_eq_ok, exists_unit, pure_eq_ok] at h
  obtain ⟨hnumber, htime, -, hattempt, -, hcancelled, hdocument, -, -, rfl⟩ := h
  exact ⟨rfl, hnumber, htime, hattempt, hcancelled, hdocument⟩

theorem insertControl_ok {c : ControlRow} (h : j.insertControl c = .ok j') :
    j' = { j with controls := j.controls ++ [c] } ∧ 0 < c.settledAtUs := by
  simp only [insertControl, bind_eq_ok, require_eq_ok, exists_unit, pure_eq_ok] at h
  obtain ⟨-, -, -, -, hpositive, rfl⟩ := h
  exact ⟨rfl, hpositive⟩

theorem insertCheckpoint_ok {attemptNumber createdAtUs : Nat}
    (h : j.insertCheckpoint attemptNumber createdAtUs = .ok j') :
    ∃ row, j' = { j with checkpoints := j.checkpoints ++ [row] } := by
  simp only [insertCheckpoint, bind_eq_ok, require_eq_ok, exists_unit, pure_eq_ok] at h
  obtain ⟨-, -, -, rfl⟩ := h
  exact ⟨_, rfl⟩

end Job

end OmniviaCore.Jobs
