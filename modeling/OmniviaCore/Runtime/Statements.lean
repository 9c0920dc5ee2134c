import OmniviaCore.Runtime.Records
import OmniviaCore.Lib.Rows

/-!
# The statements of the runtime writer

The functions of `RuntimeWriter` that write the rows of one run, each with the trigger and the constraints
of migration 0018 that its statement passes. The guard of every trigger is the caller's fenced transaction.
What the primary keys of the workspace say is checked where the store is at hand. Each has one lemma saying
what it means that the statement went through, and one saying when it does.
-/

namespace OmniviaCore.Runtime

open Lib

/-! ## What the statements read -/

def Attempt.finish (a : Attempt) (status : AttemptStatus) (nowUs : Nat) : Attempt :=
  { a with outcome := some ⟨status, nowUs⟩ }

namespace RunStep

variable (st : RunStep)

def status : Option StepStatus := st.states.getLast?.map StepState.status

def closed : Bool := st.states.any (·.status.terminal)

def lastAttempt : Option Attempt := st.attempts.getLast?

def observed (status : StepStatus) (nowUs : Nat) : RunStep :=
  { st with states := st.states ++ [⟨status, nowUs⟩] }

/-- `COALESCE(MAX(attempt_number), 0) + 1`. -/
def nextAttemptNumber : Nat := nextNumber 1 Attempt.attemptNumber st.attempts

def started (nowUs : Nat) : RunStep :=
  { st with attempts := st.attempts ++ [⟨st.nextAttemptNumber, nowUs, none⟩] }

def finished (number : Nat) (status : AttemptStatus) (nowUs : Nat) : RunStep :=
  { st with attempts := updateAt Attempt.attemptNumber number (·.finish status nowUs) st.attempts }

end RunStep

namespace Run

variable (r : Run)

/-- `_LATEST_RUN_STATUS`. -/
def status : Option RunStatus := r.events.getLast?.map RunEvent.runStatus

def terminal : Bool := r.status.any RunStatus.terminal

/-- `EXISTS (… run_status IN ('succeeded', 'partially_completed', 'failed', 'cancelled'))`. -/
def hasTerminalEvent : Bool := r.events.any (·.runStatus.terminal)

def step? (runStepId : String) : Option RunStep := r.steps.find? (·.runStepId = runStepId)

def wait? (waitId : String) : Option Wait := r.waits.find? (·.waitId = waitId)

def openWaits : List Wait := r.waits.filter Wait.isPending

def openAttempts : List (String × Attempt) :=
  r.steps.flatMap fun st => (st.attempts.filter Attempt.isOpen).map (st.runStepId, ·)

def holdsStep (runStepId : String) : Bool := r.openWaits.any (·.runStepId = runStepId)

def setStep (st : RunStep) : Run :=
  { r with steps := updateKey RunStep.runStepId st.runStepId st r.steps }

def setWait (w : Wait) : Run := { r with waits := updateKey Wait.waitId w.waitId w r.waits }

/-! ## The writers -/

/-- `INSERT INTO omnivia_runtime_run_step_states`, of the step. -/
def insertStepState (st : RunStep) (status : StepStatus) (nowUs : Nat) :
    Except RuntimeError RunStep := do
  require (st.createdAtUs ≤ nowUs) .predates
  require (st.states.getLast?.all (fun p => decide (p.observedAtUs ≤ nowUs)) = true) .timeRegresses
  require (st.status ≠ some status) .restatesStepState
  require (st.closed = false) .terminalStep
  require (status ≠ .waiting ∨ r.holdsStep st.runStepId = true) .stepHoldsNoWait
  require (status.terminal = true ∨ r.hasTerminalEvent = false) .terminalRun
  require (0 < nowUs) .timeNotPositive
  pure (st.observed status nowUs)

/-- `record_step_status`. -/
def recordStepStatus (runStepId : String) (status : StepStatus) (nowUs : Nat) :
    Except RuntimeError Run :=
  match r.step? runStepId with
  | none => throw .unknownReference
  | some st => do
    let st' ← r.insertStepState st status nowUs
    pure (r.setStep st')

/-- `INSERT INTO omnivia_runtime_attempts`, of the step. -/
def insertAttempt (st : RunStep) (nowUs : Nat) : Except RuntimeError RunStep := do
  require (st.createdAtUs ≤ nowUs) .predates
  require (st.nextAttemptNumber ≤ 256) .numberOutOfRange
  require (st.lastAttempt.all (fun p => p.outcome.any (·.status.followable)) = true)
    .attemptNotFollowable
  require (st.lastAttempt.all (fun p => p.outcome.all fun o => decide (o.finishedAtUs ≤ nowUs)) = true)
    .attemptsOverlap
  require (st.closed = false) .terminalStep
  require (r.hasTerminalEvent = false) .terminalRun
  require (0 < nowUs) .timeNotPositive
  pure (st.started nowUs)

/-- `start_attempt`, of the number `COALESCE(MAX(attempt_number), 0) + 1`. -/
def startAttempt (runStepId : String) (nowUs : Nat) : Except RuntimeError Run :=
  match r.step? runStepId with
  | none => throw .unknownReference
  | some st => do
    let st' ← r.insertAttempt st nowUs
    pure (r.setStep st')

/-- The outcome `finish_attempt` inserts, of the attempt a number names. -/
def insertOutcome (st : RunStep) (number : Nat) (status : AttemptStatus) (nowUs : Nat) :
    Except RuntimeError RunStep :=
  match st.attempts.find? (·.attemptNumber = number) with
  | none => throw .unknownReference
  | some a => do
    require (a.outcome = none) .notUnique
    require (a.startedAtUs ≤ nowUs) .predates
    require (0 < nowUs) .timeNotPositive
    pure (st.finished number status nowUs)

/-- `finish_attempt`. -/
def finishAttempt (runStepId : String) (number : Nat) (status : AttemptStatus) (nowUs : Nat) :
    Except RuntimeError Run :=
  match r.step? runStepId with
  | none => throw .unknownReference
  | some st => do
    let st' ← insertOutcome st number status nowUs
    pure (r.setStep st')

/-- `open_wait`. -/
def openWait (w : Wait) : Except RuntimeError Run :=
  match r.step? w.runStepId with
  | none => throw .unknownReference
  | some st => do
    require (Jobs.isIdentifier w.waitId = true ∧ Jobs.isContentChecksum w.resumeDigest = true)
      .malformed
    require (w.expiresAtUs.all (fun e => decide (w.createdAtUs ≤ e)) = true) .malformed
    require (st.createdAtUs ≤ w.createdAtUs) .predates
    require (r.holdsStep w.runStepId = false) .stepHoldsWait
    require (st.closed = false) .terminalStep
    require (r.waits.length < 64) .tooManyWaits
    require (r.hasTerminalEvent = false) .terminalRun
    require (0 < w.createdAtUs) .timeNotPositive
    pure { r with waits := r.waits ++ [w] }

/-- The resolution `close_wait` inserts, of the wait. -/
def insertResolution (w : Wait) (res : WaitResolution) : Except RuntimeError Wait := do
  require (w.resolution = none) .notUnique
  require (Jobs.isOpenCode res.reason = true ∧
    res.approvalId.all Jobs.isIdentifier = true) .malformed
  require (w.createdAtUs ≤ res.resolvedAtUs) .predates
  require (res.approvalId = none ∨ (w.kind = .approval ∧ res.status = .resolved)) .approvalNotNamed
  require (res.status ≠ .resolved ∨
    w.expiresAtUs.all (fun e => decide (res.resolvedAtUs ≤ e)) = true) .pastDeadline
  require (res.status ≠ .expired ∨
    w.expiresAtUs.any (fun e => decide (e ≤ res.resolvedAtUs)) = true) .beforeDeadline
  require (0 < res.resolvedAtUs) .timeNotPositive
  pure { w with resolution := some res }

/-- `close_wait`. -/
def closeWait (waitId : String) (res : WaitResolution) : Except RuntimeError Run :=
  match r.wait? waitId with
  | none => throw .unknownReference
  | some w => do
    let w' ← insertResolution w res
    pure (r.setWait w')

/-- `append_run_event`. The sequence is the length of the stream, bounded by its `CHECK`. -/
def appendRunEvent (e : RunEvent) : Except RuntimeError Run := do
  require (r.events.length ≤ 999) .numberOutOfRange
  require (r.events = [] ↔ e.runStatus = .admitted) .streamOpening
  require (r.createdAtUs ≤ e.occurredAtUs) .predates
  require (r.events.getLast?.all (fun p => decide (p.occurredAtUs ≤ e.occurredAtUs)) = true)
    .timeRegresses
  require (r.hasTerminalEvent = false) .terminalRun
  require (r.events.getLast?.all (fun p =>
    p.runStatus = e.runStatus || p.runStatus.admits e.runStatus) = true) .transitionNotPermitted
  require (e.runStepId.all (fun id => (r.step? id).isSome) = true) .unknownReference
  require (0 < e.occurredAtUs) .timeNotPositive
  pure { r with events := r.events ++ [e] }

end Run

end OmniviaCore.Runtime
