import OmniviaCore.Runtime.Statements

/-!
# Durable waits

`service/runtime_waits.py`, inside the mutation seam's transaction: opening a wait suspends the step
and the run, and a `ResolveWait` settles it, resumes both, or is refused. The policy seam is a
parameter, which may deny; what it identifies is checked against the stored wait. The instant of the
settlement is the seam's.
-/

namespace OmniviaCore.Runtime

open Lib

/-- `RuntimeAggregateExpectation`. -/
structure Expectation where
  runId : String
  sequence : Int

/-- `read_run_sequence`. -/
def Run.sequence (r : Run) : Int := (r.events.length : Int) - 1

/-! ## Commands -/

/-- `WaitResolution`, and any other text. -/
inductive Resolution where
  | approvalDecision
  | externalSignal
  | timerExpiry
  | cancelled
  | other (text : String)
  deriving DecidableEq

/-- `WAIT_STATUS_FOR_RESOLUTION`. -/
def Resolution.waitStatus : Resolution → Option WaitStatus
  | .approvalDecision | .externalSignal => some .resolved
  | .timerExpiry => some .expired
  | .cancelled => some .cancelled
  | .other _ => none

/-- `WAIT_RESOLUTION_FOR_KIND`. -/
def WaitKind.resolution : WaitKind → Resolution
  | .approval => .approvalDecision
  | .externalSignal => .externalSignal
  | .timer => .timerExpiry

/-- `ResolveWait`; whether its `requested_at` is a timestamp is all that is read of it. -/
structure ResolveWait where
  workspaceId : String
  runId : String
  waitId : String
  resolution : Resolution
  resumeDigest : String
  requestedAtValid : Bool
  reason : String
  approvalId : Option String

/-- `Approval`, as the policy identifies it: whom it is about, whether it is otherwise a well-formed
pair of a request and a decision, and whether the decision is there. -/
structure Approval where
  approvalId : String
  workspaceId : String
  runId : String
  waitId : String
  wellFormed : Bool
  decided : Bool

/-- `WAIT_DEAD_LETTER_REASONS`, as a refused resolution records them. -/
inductive DeadLetterReason where
  | payloadRejected
  | contractRejected
  | deadlinePassed
  | waitAlreadyResolved
  deriving DecidableEq

/-- How a resolution is refused. -/
inductive WaitRefusal where
  /-- `MutationDenied`, and `WaitPolicyDenied` -/
  | denied
  /-- `WaitNotFound` -/
  | notFound
  /-- `RuntimeSequenceConflict` -/
  | sequenceConflict
  /-- `WaitResolutionConflict` -/
  | conflict (reason : Option DeadLetterReason)
  /-- an abort of one of the statements -/
  | aborted (error : RuntimeError)

/-- `WaitResolutionPolicy`: the recorded approval, or none; `none` outside denies. -/
def ResolutionPolicy := ResolveWait → Wait → Option (Option Approval)

/-- The answer of a resolution. -/
structure WaitAnswer where
  waitId : String
  runId : String
  runStepId : String
  status : WaitStatus
  resolutionReason : String
  approvalId : Option String

/-! ## Validation -/

namespace ResolveWait

variable (command : ResolveWait)

/-- `validate_resolve_wait_shape`. -/
def shapeValid : Bool :=
  Jobs.isIdentifier command.workspaceId && Jobs.isIdentifier command.runId &&
    Jobs.isIdentifier command.waitId && command.resolution.waitStatus.isSome &&
    Jobs.isContentChecksum command.resumeDigest && command.requestedAtValid &&
    Jobs.isOpenCode command.reason &&
    decide (command.resolution = .approvalDecision ↔ command.approvalId.isSome = true) &&
    command.approvalId.all Jobs.isIdentifier

/-- `_require_resolution_identity`. -/
def requireResolutionIdentity (w : Wait) : Except WaitRefusal Unit := do
  require (command.resumeDigest = w.resumeDigest) (.conflict (some .payloadRejected))
  require (command.resolution = .cancelled ∨ command.resolution = w.kind.resolution)
    (.conflict (some .payloadRejected))

/-- The approval `validate_resolve_wait` is given, against the command and the wait. -/
def approvalValid (w : Wait) (approval : Option Approval) : Bool :=
  if command.resolution = .approvalDecision then
    approval.any fun a => a.workspaceId = command.workspaceId && a.runId = command.runId &&
      a.wellFormed && a.waitId = w.waitId && command.approvalId = some a.approvalId && a.decided
  else approval.isNone

/-- `validate_resolve_wait`, of a pending wait of the command's run and workspace. -/
def validates (w : Wait) (approval : Option Approval) (runStatus : Option RunStatus) : Bool :=
  command.shapeValid && decide (runStatus = some .waiting) && decide (command.waitId = w.waitId) &&
    decide (command.resolution = .cancelled ∨ command.resolution = w.kind.resolution) &&
    decide (command.resumeDigest = w.resumeDigest) && command.approvalValid w approval

/-- `_policy_approval`. -/
def policyApproval (policy : ResolutionPolicy) (w : Wait) : Except WaitRefusal (Option Approval) :=
  match policy command w with
  | none => throw .denied
  | some approval => do
    require (approval.isSome = true ↔ command.resolution = .approvalDecision) .denied
    pure approval

def storedResolution (status : WaitStatus) (settledAtUs : Nat) : WaitResolution :=
  ⟨status, settledAtUs, command.reason, command.approvalId⟩

end ResolveWait

/-- `_resolution_result`. -/
def Wait.answer (w : Wait) (runId : String) (res : WaitResolution) : WaitAnswer :=
  ⟨w.waitId, runId, w.runStepId, res.status, res.reason, res.approvalId⟩

/-- The deadline half of `_require_deadline_honoured`, for an expiry and for an outcome. -/
def requireDeadlineHonoured (w : Wait) (status : WaitStatus) (settledAtUs : Nat) :
    Except WaitRefusal Unit :=
  match status with
  | .expired =>
    require (w.expiresAtUs.any (fun e => decide (e ≤ settledAtUs)) = true) (.conflict none)
  | .resolved =>
    require (w.expiresAtUs.all (fun e => decide (settledAtUs ≤ e)) = true)
      (.conflict (some .deadlinePassed))
  | .cancelled => pure ()

namespace Run

variable (r : Run)

/-- `_require_active_attempt`. -/
def requireActiveAttempt (runStepId : String) (runStatus : RunStatus) (stepStatus : StepStatus)
    (reason : Option DeadLetterReason) : Except WaitRefusal Unit := do
  require (r.status = some runStatus) (.conflict reason)
  require ((r.step? runStepId).isSome = true) .notFound
  require ((r.step? runStepId).any (·.status = some stepStatus) = true) (.conflict reason)
  require ((r.step? runStepId).any (fun st => st.lastAttempt.any Attempt.isOpen) = true)
    (.conflict reason)

/-! ## Opening -/

/-- The command of `open_runtime_wait`, whose step suspends with its run. -/
def suspend (w : Wait) : Except RuntimeError Run := do
  let opened ← r.openWait w
  let waiting ← opened.recordStepStatus w.runStepId .waiting w.createdAtUs
  waiting.appendRunEvent ⟨w.createdAtUs, .waiting, some w.runStepId, none⟩

/-- `open_runtime_wait`: the wait is created at the instant of its settlement, and pending. -/
def openRuntimeWait (expected : Expectation) (w : Wait) : Except WaitRefusal Run := do
  require (expected.runId = r.runId) (.conflict none)
  require (expected.sequence = r.sequence) .sequenceConflict
  r.requireActiveAttempt w.runStepId .running .running none
  (r.suspend { w with resolution := none }).mapError .aborted

/-! ## Resolving -/

/-- The writes of a first settlement: the wait closes, its step and its run resume. -/
def resume (w : Wait) (res : WaitResolution) : Except RuntimeError Run := do
  let closed ← r.closeWait w.waitId res
  let running ← closed.recordStepStatus w.runStepId .running res.resolvedAtUs
  running.appendRunEvent ⟨res.resolvedAtUs, .running, some w.runStepId, none⟩

/-- The settlement of a wait that is already resolved: the stored resolution, or a conflict. -/
def replayResolution (command : ResolveWait) (policy : ResolutionPolicy) (w : Wait)
    (res : WaitResolution) (status : WaitStatus) : Except WaitRefusal WaitAnswer := do
  require ((res.status, res.reason, res.approvalId) =
    (status, command.reason, command.approvalId)) (.conflict (some .waitAlreadyResolved))
  let approval ← command.policyApproval policy w
  require (command.validates w approval (some .waiting) = true) (.conflict (some .contractRejected))
  pure (w.answer r.runId res)

def settlePending (command : ResolveWait) (policy : ResolutionPolicy) (w : Wait)
    (status : WaitStatus) (settledAtUs : Nat) : Except WaitRefusal (Run × WaitAnswer) := do
  r.requireActiveAttempt w.runStepId .waiting .waiting (some .contractRejected)
  requireDeadlineHonoured w status settledAtUs
  let approval ← command.policyApproval policy w
  require (command.validates w approval r.status = true) (.conflict (some .contractRejected))
  let resumed ← (r.resume w (command.storedResolution status settledAtUs)).mapError .aborted
  pure (resumed, w.answer r.runId (command.storedResolution status settledAtUs))

/-- `settle` of `resolve_runtime_wait`, on the wait the command names and the run holds. -/
def settleWait (command : ResolveWait) (policy : ResolutionPolicy) (w : Wait) (settledAtUs : Nat) :
    Except WaitRefusal (Run × WaitAnswer) :=
  match command.resolution.waitStatus with
  | none => throw (.conflict none)
  | some status => do
    require (command.shapeValid = true) (.conflict (some .payloadRejected))
    command.requireResolutionIdentity w
    match w.resolution with
    | some res => do
      let answer ← r.replayResolution command policy w res status
      pure (r, answer)
    | none => r.settlePending command policy w status settledAtUs

end Run

end OmniviaCore.Runtime
