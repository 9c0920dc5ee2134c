import OmniviaCore.Runtime.DurableJobs
import OmniviaCore.Runtime.StopLedger

/-!
# Cancelling a workflow run

`_cancel` of `service/handlers/workflow.py`, inside the mutation seam's transaction. The stop intent is
recorded first, then the effects that are still unresolved are read: while there is one, the run is
only reported as uncertain; with none, what the run holds is released, the stop settles and the durable
job with it. What `read_run_effect_obligations` finds is an argument.
-/

namespace OmniviaCore.Runtime

open Lib
open Jobs (Authority)

/-- The idempotency claim of a command and the audit event both were recorded under. -/
structure CommandClaim where
  claimId : String
  workflowControl : Bool
  principalId : String
  auditRef : String
  recordedAtUs : Nat

/-- A `workflow.control` cancellation: its settlement's identities, whom it is by, its reason (where
none is given, `operator.cancelled`), and the unresolved effects of the run. -/
structure CancelCommand where
  runId : String
  claimId : String
  auditRef : String
  principalId : String
  reason : String
  obligations : List String

/-- `WorkflowControlDisposition`, of a cancellation. -/
inductive CancelDisposition where
  | cancellationAccepted
  | alreadyTerminal
  | pendingReconciliation
  deriving DecidableEq

namespace CancelCommand

def claim (command : CancelCommand) (settledAtUs : Nat) : CommandClaim :=
  ⟨command.claimId, true, command.principalId, command.auditRef, settledAtUs⟩

def stop (command : CancelCommand) (settledAtUs : Nat) : RunStopRequest :=
  ⟨command.claimId, command.runId, settledAtUs, command.principalId, command.reason,
    command.auditRef⟩

end CancelCommand

namespace Run

variable (r : Run)

def closeWaits (res : WaitResolution) : List Wait → Run → Except RuntimeError Run
  | [], r => pure r
  | w :: waits, r => do
    let closed ← r.closeWait w.waitId res
    closeWaits res waits closed

def cancelAttempts (nowUs : Nat) : List (String × Attempt) → Run → Except RuntimeError Run
  | [], r => pure r
  | (runStepId, a) :: attempts, r => do
    let finished ← r.finishAttempt runStepId a.attemptNumber .cancelled nowUs
    let closed ← finished.recordStepStatus runStepId .cancelled nowUs
    cancelAttempts nowUs attempts closed

/-- `_release_run_work`. -/
def releaseRunWork (reason : String) (nowUs : Nat) : Except RuntimeError Run := do
  let closed ← closeWaits ⟨.cancelled, nowUs, reason, none⟩ r.openWaits r
  cancelAttempts nowUs r.openAttempts closed

/-- The number of `_held_resources`. -/
def heldResources : Nat :=
  (if r.openWaits = [] then 0 else 1) + if r.openAttempts = [] then 0 else 1

end Run

/-- The second lineage migration 0036 admits a `cancelled` observation under: an accepted stop of the
run that one `workflow.control` settled at the observation's own instant and for its reason. -/
def hasStopLineage (claims : List CommandClaim) (l : StopLedger) (r : Run) (reason : String)
    (nowUs : Nat) : Bool :=
  l.requests.any fun q =>
    q.runId = r.runId && q.requestedAtUs = nowUs && q.reason = reason &&
      (l.outcome? q.stopRequestId).any (fun s => s.outcome.isAccepted &&
        s.auditRef = q.auditRef && s.reason = q.reason && s.completedAtUs = nowUs) &&
      claims.any (fun c => c.claimId = q.stopRequestId && c.workflowControl &&
        c.auditRef = q.auditRef && c.principalId = q.requestedBy && c.recordedAtUs = nowUs) &&
      r.job.observations.getLast?.all fun o => decide (o.finishedAtUs ≤ q.requestedAtUs)

/-- What a cancellation reads beside the run and the ledger: the claims and audit references of the
workspace, its own among them. -/
structure CancelContext where
  authority : Authority
  claims : List CommandClaim
  auditRefs : List String

abbrev Cancelled := StopLedger × Run × CancelDisposition

/-- The end of `_settle_cancellation`: the stop settles, and an accepted one takes the job with it. -/
def settleStopOf (context : CancelContext) (l : StopLedger) (r : Run) (stop : RunStopRequest)
    (reason : String) (nowUs : Nat) : Except RuntimeError Cancelled := do
  let (settled, stopped, settlement) ← l.stopRun (some r) context.auditRefs stop nowUs nowUs none
  match settlement.outcome, stopped with
  | .accepted _, some stopped => do
    let job ← (stopped.job.cancel context.authority nowUs
      (hasStopLineage context.claims settled stopped reason nowUs)).mapError .job
    pure (settled, { stopped with job }, .cancellationAccepted)
  | .ignoredAlreadyTerminal, some stopped => pure (settled, stopped, .alreadyTerminal)
  | _, _ => throw .runNotLive

/-- `_settle_cancellation` of a run this cancellation stops. -/
def releaseAndSettle (context : CancelContext) (l : StopLedger) (r : Run) (stop : RunStopRequest)
    (reason : String) (nowUs : Nat) : Except RuntimeError Cancelled := do
  let released ← r.releaseRunWork reason nowUs
  let receipted ← l.recordCleanupReceipts stop r.heldResources nowUs
  settleStopOf context receipted released stop reason nowUs

/-- `_pending_cancellation`: a running run becomes uncertain, an uncertain one stays as it is, and any
other is refused. -/
def pendingCancellation (l : StopLedger) (r : Run) (nowUs : Nat) : Except RuntimeError Cancelled :=
  if r.status = some .uncertain then pure (l, r, .pendingReconciliation)
  else do
    require (r.status = some .running) .pendingTransition
    let told ← r.appendRunEvent ⟨nowUs, .uncertain, none, none⟩
    pure (l, told, .pendingReconciliation)

/-- `_cancel` of a run that is not terminal. -/
def cancelLive (context : CancelContext) (l : StopLedger) (r : Run) (stop : RunStopRequest)
    (command : CancelCommand) (nowUs : Nat) : Except RuntimeError Cancelled := do
  let intended ← l.recordStopIntent (some r) context.auditRefs stop
  let observed ← intended.recordProgress stop
    ⟨stop.stopRequestId, nowUs, r.heldResources ≠ 0, command.obligations⟩
  if command.obligations ≠ [] then pendingCancellation observed r nowUs
  else releaseAndSettle context observed r stop command.reason nowUs

/-- `_cancel`, of the run its command names. -/
def cancelRun (context : CancelContext) (l : StopLedger) (r : Run) (command : CancelCommand)
    (nowUs : Nat) : Except RuntimeError Cancelled := do
  let pending ← l.readUnsettledStopRequest r.runId
  let stop := pending.getD (command.stop nowUs)
  if r.terminal then settleStopOf context l r stop command.reason nowUs
  else cancelLive context l r stop command nowUs

end OmniviaCore.Runtime
