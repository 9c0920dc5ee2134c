import OmniviaCore.Runtime.DurableJobs
import OmniviaCore.Runtime.StopLedger

/-!
# The scheduler and startup recovery

What `RuntimeScheduler` does to one run inside its fenced transaction: claiming its next runnable step,
settling the claimed attempt, and recovering an attempt whose worker lost the workspace. The step plan and
the completion gate are parameters, as in the source.

`service/runtime_recovery.py`: every runtime-bound job is classified from persisted evidence alone, a
durable wait whose claim is superseded is adopted, and an orphaned attempt is recovered. The whole pass is
one fenced transaction.
-/

namespace OmniviaCore.Runtime

section

open Lib
open Jobs (JobState Authority)

/-- `RuntimeScheduler`: the instance and generation it works under, its step plan, its completion
gate, and whether it must have one. The plan and the gate read the workspace; here they read the
run. -/
structure RuntimeScheduler where
  authority : Authority
  plan : Run → String → Bool
  completion : Option (Run → Bool)
  requiresCompletion : Bool

/-- `RuntimeClaim`. The identifier of its attempt is derived from the other members. -/
structure RuntimeClaim where
  runId : String
  jobId : String
  runStepId : String
  runtimeAttemptNumber : Nat
  applicationAttemptNumber : Nat
  serviceInstanceId : String
  fencingGeneration : Nat

namespace RuntimeScheduler

/-- `_require_completion_authority`. -/
def requireCompletionAuthority (scheduler : RuntimeScheduler) : Except RuntimeError Unit :=
  require (scheduler.requiresCompletion = false ∨ scheduler.completion.isSome = true)
    .completionRefused

/-- `_require_scheduler_claim`. -/
def requireSchedulerClaim (scheduler : RuntimeScheduler) (claim : RuntimeClaim) :
    Except RuntimeError Unit :=
  require (claim.serviceInstanceId = scheduler.authority.serviceInstanceId ∧
    claim.fencingGeneration = scheduler.authority.fencingGeneration) .claimNotThisScheduler

end RuntimeScheduler

namespace Run

variable (r : Run)

/-- `_RUNNABLE_STEPS`. -/
def runnableSteps : List RunStep :=
  r.steps.filter fun st =>
    st.status = some .pending && !st.attempts.any Attempt.isOpen && !r.holdsStep st.runStepId

/-- `_ready_step`. -/
def readyStep (scheduler : RuntimeScheduler) : Option String :=
  (r.runnableSteps.find? fun st => scheduler.plan r st.runStepId).map RunStep.runStepId

/-- The number `_NEXT_RUNTIME_ATTEMPT_NUMBER` reads. -/
def nextAttemptNumber (runStepId : String) : Nat :=
  ((r.step? runStepId).map RunStep.nextAttemptNumber).getD 1

def claimOf (authority : Authority) (runStepId : String) (runtimeAttemptNumber : Nat) :
    RuntimeClaim where
  runId := r.runId
  jobId := r.job.jobId
  runStepId
  runtimeAttemptNumber
  applicationAttemptNumber := r.job.attempts.length
  serviceInstanceId := authority.serviceInstanceId
  fencingGeneration := authority.fencingGeneration

/-- `_open_attempt`, where `stop` is what the ledger says of the run. -/
def openAttempt (authority : Authority) (stop : Except RuntimeError (Option RunStopRequest))
    (runStepId : String) (nowUs : Nat) : Except RuntimeError (Run × RuntimeClaim) := do
  let pending ← stop
  require (pending = none) .stopRequested
  let claim := r.claimOf authority runStepId (r.nextAttemptNumber runStepId)
  let running ← r.recordStepStatus runStepId .running nowUs
  let started ← running.startAttempt runStepId nowUs
  let told ← started.appendRunEvent ⟨nowUs, .running, some runStepId,
    some ⟨claim.runtimeAttemptNumber, claim.applicationAttemptNumber⟩⟩
  pure (told, claim)

/-- The part of `claim_next` that is about the run it selected. -/
def claimNext (authority : Authority) (stop : Except RuntimeError (Option RunStopRequest))
    (runStepId : String) (nowUs : Nat) : Except RuntimeError (Run × RuntimeClaim) := do
  let job ← (r.job.claim authority nowUs).mapError .job
  { r with job }.openAttempt authority stop runStepId nowUs

/-- `_require_live_run` and `_require_open_claim`. -/
def requireOpenClaim (claim : RuntimeClaim) : Except RuntimeError Unit := do
  require (r.status.any (!·.terminal) = true) .runNotLive
  require (r.job.jobId = claim.jobId ∧ r.job.state = .claimed ∧
    r.job.claimedBy = some claim.serviceInstanceId ∧
    r.job.fencingGeneration = claim.fencingGeneration) .claimNotOpen
  require (r.job.attempts.length = claim.applicationAttemptNumber ∧
    r.job.lastAttempt.any (·.state = .running) = true) .claimNotOpen
  require ((r.step? claim.runStepId).any (fun st => st.lastAttempt.any fun a =>
    a.attemptNumber = claim.runtimeAttemptNumber && a.isOpen) = true) .claimNotOpen

/-- `settle_completion`: the gate's decision, and what the triggers of 0066 require of the row that
records it beside what the settlement has just written. -/
def settleCompletion (scheduler : RuntimeScheduler) (claim : RuntimeClaim) :
    Except RuntimeError Unit := do
  require (scheduler.completion.any (· r) = true) .completionRefused
  require (r.events.getLast?.any (fun e => e.runStatus = .running &&
    e.runStepId = some claim.runStepId &&
    e.lineage = some ⟨claim.runtimeAttemptNumber, claim.applicationAttemptNumber⟩) = true)
    .completionRefused
  require (r.steps.getLast?.any (·.runStepId = claim.runStepId) = true) .completionRefused
  require (r.steps.all (fun st => st.status = some .succeeded || st.status = some .skipped) = true)
    .completionRefused

/-- The end of `complete` once every step is terminal: the run succeeds, and its job with it. The
job's instant is a second reading of the clock. -/
def succeed (scheduler : RuntimeScheduler) (claim : RuntimeClaim) (nowUs jobUs : Nat) :
    Except RuntimeError Run := do
  r.settleCompletion scheduler claim
  let told ← r.appendRunEvent ⟨nowUs, .succeeded, some claim.runStepId,
    some ⟨claim.runtimeAttemptNumber, claim.applicationAttemptNumber⟩⟩
  let job ← (told.job.terminalize scheduler.authority .succeeded jobUs).mapError .job
  pure { told with job }

/-- `complete`, inside its transaction. -/
def complete (scheduler : RuntimeScheduler) (stop : Except RuntimeError (Option RunStopRequest))
    (claim : RuntimeClaim) (nowUs jobUs : Nat) :
    Except RuntimeError (Run × Option RuntimeClaim) := do
  r.requireOpenClaim claim
  let finished ← r.finishAttempt claim.runStepId claim.runtimeAttemptNumber .succeeded nowUs
  let settled ← finished.recordStepStatus claim.runStepId .succeeded nowUs
  if settled.steps.any (fun st => !st.status.any StepStatus.terminal) then
    match settled.readyStep scheduler with
    | none => throw .noReadyStep
    | some runStepId => do
      let (advanced, next) ← settled.openAttempt scheduler.authority stop runStepId nowUs
      pure (advanced, some next)
  else do
    let succeeded ← settled.succeed scheduler claim nowUs jobUs
    pure (succeeded, none)

/-- The end of `fail` for a failure that is not retried. -/
def failRun (authority : Authority) (claim : RuntimeClaim) (nowUs jobUs : Nat) :
    Except RuntimeError Run := do
  let closed ← r.recordStepStatus claim.runStepId .failed nowUs
  let job ← (closed.job.terminalize authority .failed jobUs).mapError .job
  { closed with job }.appendRunEvent ⟨nowUs, .failed, some claim.runStepId,
    some ⟨claim.runtimeAttemptNumber, claim.applicationAttemptNumber⟩⟩

/-- `fail`, inside its transaction; `retryable` is `is_error_retryable` of the failure. -/
def fail (authority : Authority) (stop : Except RuntimeError (Option RunStopRequest))
    (claim : RuntimeClaim) (retryable : Bool) (nowUs jobUs : Nat) :
    Except RuntimeError (Run × Option RuntimeClaim) := do
  r.requireOpenClaim claim
  let finished ← r.finishAttempt claim.runStepId claim.runtimeAttemptNumber .failed nowUs
  if retryable ∧ claim.runtimeAttemptNumber < finished.job.maxAttempts then do
    let pending ← finished.recordStepStatus claim.runStepId .pending nowUs
    let (retried, next) ← pending.openAttempt authority stop claim.runStepId nowUs
    pure (retried, some next)
  else do
    let failed ← finished.failRun authority claim nowUs jobUs
    pure (failed, none)

/-- A round of the loop of `_recover_stranded_locked`, of a job just recovered. -/
def recoverAttempt (requeued : Bool) (nowUs : Nat) : Except RuntimeError Run :=
  match r.openAttempts with
  | [(runStepId, attempt)] => do
    let finished ← r.finishAttempt runStepId attempt.attemptNumber .failed nowUs
    let closed ← finished.recordStepStatus runStepId (if requeued then .pending else .failed) nowUs
    closed.appendRunEvent ⟨nowUs, if requeued then .running else .failed, some runStepId,
      some ⟨attempt.attemptNumber, closed.job.attempts.length⟩⟩
  | _ => throw .notOneOpenAttempt

def recover (authority : Authority) (nowUs : Nat) : Except RuntimeError Run := do
  let (job, requeued) ← (r.job.recover authority nowUs).mapError .job
  { r with job }.recoverAttempt requeued nowUs

end Run

end

section

open Lib
open Jobs (Authority)

/-! ## Classification -/

/-- `RUNTIME_JOB_CLASSIFICATIONS`. -/
inductive Classification where
  | activeClaim
  | durableOpenWait
  | orphanAttempt
  | noOpenAttempt
  | stopPending
  | terminalHistory
  | contradictoryHistory
  deriving DecidableEq

/-- Why two histories cannot both be true: the rules of `_contradiction`, in their order. -/
inductive Contradiction where
  | openAttempts
  | openWaits
  | terminality
  | heldByTerminalRun
  | waiting
  | waitWithoutAttempt
  | claimedWithoutAttempt
  | attemptWithoutClaim
  deriving DecidableEq

namespace Run

variable (r : Run)

/-- `_contradiction`. -/
def contradiction : Option Contradiction :=
  if 1 < r.openAttempts.length then some .openAttempts
  else if 1 < r.openWaits.length then some .openWaits
  else if r.terminal ≠ r.job.terminal then some .terminality
  else if r.terminal ∧ (r.openAttempts ≠ [] ∨ r.openWaits ≠ []) then some .heldByTerminalRun
  else if ¬(r.openWaits ≠ [] ↔ r.status = some .waiting) then some .waiting
  else if r.openWaits ≠ [] ∧
      r.openWaits.head?.map Wait.runStepId ≠ r.openAttempts.head?.map Prod.fst then
    some .waitWithoutAttempt
  else if r.job.state = .claimed ∧ r.openAttempts = [] then some .claimedWithoutAttempt
  else if r.openAttempts ≠ [] ∧ r.job.state ≠ .claimed then some .attemptWithoutClaim
  else none

def superseded (authority : Authority) : Bool :=
  r.job.state = .claimed && decide (r.job.fencingGeneration < authority.fencingGeneration)

/-- `_classify`. -/
def classify (authority : Authority) (stopPending : Bool) : Classification :=
  if r.contradiction.isSome then .contradictoryHistory
  else if r.terminal then .terminalHistory
  else if stopPending then .stopPending
  else if r.openWaits ≠ [] then .durableOpenWait
  else if r.openAttempts = [] then .noOpenAttempt
  else if r.superseded authority then .orphanAttempt
  else .activeClaim

end Run

/-- `RuntimeJobRecovery`, less the identifiers it copies from the run. -/
structure RuntimeJobRecovery where
  runId : String
  classification : Classification
  superseded : Bool
  adopted : Bool
  requeued : Option Bool

/-! ## The pass -/

namespace Run

variable (r : Run)

/-- `_adopt_open_wait`. -/
def adoptOpenWait (authority : Authority) (nowUs : Nat) : Except RuntimeError Run := do
  let job ← (r.job.adoptStaleClaim authority).mapError .job
  match r.status with
  | none => throw .runNotLive
  | some status =>
    let rebound : Run := { r with job }
    rebound.appendRunEvent ⟨nowUs, status, r.openAttempts.head?.map Prod.fst, none⟩

def stopPending (l : StopLedger) : Except RuntimeError Bool := do
  let pending ← l.readUnsettledStopRequest r.runId
  pure pending.isSome

def survey (authority : Authority) (l : StopLedger) (nowUs : Nat) :
    Except RuntimeError (Run × RuntimeJobRecovery) := do
  let stopPending ← r.stopPending l
  let classification := r.classify authority stopPending
  let superseded := r.superseded authority
  if classification = .durableOpenWait ∧ superseded = true then do
    let adopted ← r.adoptOpenWait authority nowUs
    pure (adopted, ⟨r.runId, classification, superseded, true, none⟩)
  else pure (r, ⟨r.runId, classification, superseded, false, none⟩)

def recoverFound (authority : Authority) (nowUs : Nat) (entry : RuntimeJobRecovery) :
    Except RuntimeError (Run × RuntimeJobRecovery) :=
  if entry.classification = .orphanAttempt then do
    let recovered ← r.recover authority nowUs
    pure (recovered, { entry with requeued := some (recovered.job.state = .queued) })
  else pure (r, entry)

end Run

/-- `recover_runtime_startup`, on the runs of the workspace. The recovery reads the clock again. -/
def recoverRuntimeStartup (authority : Authority) (l : StopLedger) (adoptedAtUs recoveredAtUs : Nat)
    (runs : List Run) : Except RuntimeError (List (Run × RuntimeJobRecovery)) := do
  let found ← runs.mapM fun r => r.survey authority l adoptedAtUs
  found.mapM fun (r, entry) => r.recoverFound authority recoveredAtUs entry

end

end OmniviaCore.Runtime
