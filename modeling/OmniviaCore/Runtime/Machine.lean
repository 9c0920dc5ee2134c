import OmniviaCore.Lib.Machine
import OmniviaCore.Lib.SortBy
import OmniviaCore.Runtime.Cancellation
import OmniviaCore.Runtime.Scheduler
import OmniviaCore.Runtime.Waits

/-!
# The runtime of a workspace

The runs of one workspace and its stop ledger, written by whoever holds the workspace. A call is one
fenced transaction: it goes through whole, under the authority on record, or changes nothing. A takeover
puts a larger generation on record. A crash is the end of the caller, between two transactions.

-/

namespace OmniviaCore.Runtime

open Lib
open Jobs (Authority)

/-! ## The store and its calls -/

/-- The runtime relations of a workspace. -/
structure Store where
  holder : Authority
  runs : List Run
  ledger : StopLedger
  claims : List CommandClaim
  auditRefs : List String

/-- `MutationSettlementContext`, with the principal of the request. -/
structure Settlement where
  claimId : String
  auditRef : String
  principalId : String
  settledAtUs : Nat

/-- A call of the scheduler, of a workflow command or of the startup recovery. -/
inductive Call where
  /-- `workflow.start`, of a plan deriving these steps -/
  | start (settlement : Settlement) (runId : String) (runStepIds : List String)
  | claimNext (nowUs : Nat)
  | complete (claim : RuntimeClaim) (nowUs jobUs : Nat)
  | fail (claim : RuntimeClaim) (retryable : Bool) (nowUs jobUs : Nat)
  /-- `open_runtime_wait` -/
  | openWait (settlement : Settlement) (runId : String) (expected : Expectation) (wait : Wait)
  /-- `resolve_runtime_wait` -/
  | resolveWait (settlement : Settlement) (expected : Expectation) (command : ResolveWait)
      (policy : ResolutionPolicy)
  /-- `workflow.control` cancel, which finds these effects unresolved -/
  | cancel (settlement : Settlement) (runId reason : String) (obligations : List String)
  /-- `recover_runtime_startup` -/
  | recoverStartup (adoptedAtUs recoveredAtUs : Nat)

/-- A call of the stop ledger that no command makes, and the audit event such a call may name. -/
inductive LedgerCall where
  | recordStopIntent (request : RunStopRequest)
  | stopRun (request : RunStopRequest) (occurredAtUs completedAtUs : Nat)
      (outcomeAuditRef : Option String)
  | recordAudit (auditRef : String)

/-- A step: the workspace changes hands, or someone calls. -/
inductive Label where
  | takeover (authority : Authority)
  | call (service : RuntimeScheduler) (call : Call)

/-- A step of a workspace whose stop ledger is also called by itself. -/
inductive LedgerLabel where
  | lifecycle (label : Label)
  | ledger (authority : Authority) (call : LedgerCall)

/-- `created_at` as text: a whole second is spelled without its fraction and sorts last. -/
def DurableJob.createdKey (j : DurableJob) : Nat ×ₗ Nat :=
  toLex (j.createdAtUs / 1000000, if j.createdAtUs % 1000000 = 0 then 1000000
    else j.createdAtUs % 1000000)

/-- `ORDER BY j.created_at, j.job_id`. -/
def Run.candidateKey (r : Run) : (Nat ×ₗ Nat) ×ₗ List Char :=
  toLex (r.job.createdKey, r.job.jobId.toList)

/-- The run `workflow.start` admits, with its queued job and its pending steps. -/
def admittedRun (authority : Authority) (runId : String) (runStepIds : List String)
    (settledAtUs : Nat) : Run where
  runId
  createdAtUs := settledAtUs
  job :=
    { jobId := runId
      createdAtUs := settledAtUs
      maxAttempts := 3
      state := .queued
      claimedBy := none
      fencingGeneration := authority.fencingGeneration
      attempts := []
      events := [⟨settledAtUs, .queued⟩]
      observations := []
      recoveries := [] }
  steps := runStepIds.map fun runStepId => ⟨runStepId, settledAtUs, [⟨.pending, settledAtUs⟩], []⟩
  waits := []
  events := [⟨settledAtUs, .admitted, none, none⟩]

namespace Store

variable (s : Store)

def run? (runId : String) : Option Run := s.runs.find? (·.runId = runId)

def setRun (r : Run) : Store := { s with runs := updateKey Run.runId r.runId r s.runs }

def recordClaim (c : CommandClaim) : Except RuntimeError Store := do
  require (s.claims.all (·.claimId ≠ c.claimId) = true) .notUnique
  require (c.auditRef ∉ s.auditRefs) .notUnique
  require (0 < c.recordedAtUs) .timeNotPositive
  pure { s with claims := s.claims ++ [c], auditRefs := s.auditRefs ++ [c.auditRef] }

/-- The seam's rows of a command other than `workflow.control`. -/
def recordCommand (settlement : Settlement) : Except RuntimeError Store :=
  s.recordClaim ⟨settlement.claimId, false, settlement.principalId, settlement.auditRef,
    settlement.settledAtUs⟩

/-- `workflow.start`. -/
def start (authority : Authority) (settlement : Settlement) (runId : String)
    (runStepIds : List String) : Except RuntimeError Store := do
  let claimed ← s.recordCommand settlement
  require (Jobs.isIdentifier runId = true) .malformed
  require ((s.run? runId).isNone = true) .notUnique
  require (runStepIds ≠ [] ∧ runStepIds.length ≤ 256 ∧ runStepIds.Nodup) .notAdmissible
  let admitted := admittedRun authority runId runStepIds settlement.settledAtUs
  pure { claimed with runs := claimed.runs ++ [admitted] }

/-- `_QUEUED_RUNTIME_JOBS`. -/
def candidates : List Run := sortBy Run.candidateKey (s.runs.filter (·.job.state = .queued))

/-- `_select_claimable`, over the candidates in their order. -/
def selectClaimable (service : RuntimeScheduler) : List Run → Except RuntimeError (Option (Run × String))
  | [] => pure none
  | r :: rest =>
    match r.status with
    | none => throw .runNotLive
    | some status =>
      if status.terminal then selectClaimable service rest
      else
        match r.readyStep service with
        | some runStepId => pure (some (r, runStepId))
        | none => selectClaimable service rest

/-- `claim_next`, with the claim it returns. -/
def claimNext (service : RuntimeScheduler) (nowUs : Nat) :
    Except RuntimeError (Store × Option RuntimeClaim) := do
  service.requireCompletionAuthority
  let selected ← selectClaimable service s.candidates
  match selected with
  | none => pure (s, none)
  | some (r, runStepId) => do
    let (r', claim) ← r.claimNext service.authority (s.ledger.readUnsettledStopRequest r.runId)
      runStepId nowUs
    pure (s.setRun r', some claim)

/-- `complete`. -/
def complete (service : RuntimeScheduler) (claim : RuntimeClaim) (nowUs jobUs : Nat) :
    Except RuntimeError (Store × Option RuntimeClaim) := do
  service.requireCompletionAuthority
  service.requireSchedulerClaim claim
  match s.run? claim.runId with
  | none => throw .claimNotOpen
  | some r => do
    let (r', next) ← r.complete service (s.ledger.readUnsettledStopRequest r.runId) claim nowUs jobUs
    pure (s.setRun r', next)

/-- `fail`. -/
def fail (service : RuntimeScheduler) (claim : RuntimeClaim) (retryable : Bool)
    (nowUs jobUs : Nat) : Except RuntimeError (Store × Option RuntimeClaim) := do
  service.requireSchedulerClaim claim
  match s.run? claim.runId with
  | none => throw .claimNotOpen
  | some r => do
    let (r', next) ← r.fail service.authority (s.ledger.readUnsettledStopRequest r.runId) claim
      retryable nowUs jobUs
    pure (s.setRun r', next)

/-- `open_runtime_wait`. -/
def openWait (settlement : Settlement) (runId : String) (expected : Expectation) (wait : Wait) :
    Except RuntimeError Store := do
  let claimed ← s.recordCommand settlement
  require (s.runs.all (fun r => (r.wait? wait.waitId).isNone) = true) .notUnique
  match s.run? runId with
  | none => throw .unknownRun
  | some r => do
    let r' ← (r.openRuntimeWait expected { wait with createdAtUs := settlement.settledAtUs }).mapError
      fun _ => .waitConflict
    pure (claimed.setRun r')

/-- `resolve_runtime_wait`, with the resolution it answers. -/
def resolveWait (settlement : Settlement) (expected : Expectation) (command : ResolveWait)
    (policy : ResolutionPolicy) : Except RuntimeError (Store × WaitAnswer) := do
  let claimed ← s.recordCommand settlement
  require (expected.runId = command.runId) .waitConflict
  match s.run? command.runId with
  | none => throw .unknownRun
  | some r => do
    require (expected.sequence = r.sequence) .waitConflict
    match r.wait? command.waitId with
    | none => throw .unknownReference
    | some w => do
      let (r', answer) ← (r.settleWait command policy w settlement.settledAtUs).mapError
        fun _ => .waitConflict
      pure (claimed.setRun r', answer)

/-- `workflow.control` cancel. -/
def cancel (authority : Authority) (settlement : Settlement) (runId reason : String)
    (obligations : List String) : Except RuntimeError (Store × CancelDisposition) := do
  let command : CancelCommand := ⟨runId, settlement.claimId, settlement.auditRef,
    settlement.principalId, reason, obligations⟩
  let claimed ← s.recordClaim (command.claim settlement.settledAtUs)
  match s.run? runId with
  | none => throw .unknownRun
  | some r => do
    let (ledger, r', disposition) ← cancelRun ⟨authority, claimed.claims, claimed.auditRefs⟩ s.ledger r
      command settlement.settledAtUs
    pure ({ claimed.setRun r' with ledger }, disposition)

/-- `recover_runtime_startup`. -/
def recoverStartup (authority : Authority) (adoptedAtUs recoveredAtUs : Nat) :
    Except RuntimeError (Store × List RuntimeJobRecovery) := do
  let found ← recoverRuntimeStartup authority s.ledger adoptedAtUs recoveredAtUs s.runs
  pure ({ s with runs := found.map Prod.fst }, found.map Prod.snd)

/-- A call of the scheduler, of a command or of the recovery, once the fence is entered. -/
def apply (service : RuntimeScheduler) : Call → Except RuntimeError Store
  | .start settlement runId runStepIds => s.start service.authority settlement runId runStepIds
  | .claimNext nowUs => (s.claimNext service nowUs).map Prod.fst
  | .complete claim nowUs jobUs => (s.complete service claim nowUs jobUs).map Prod.fst
  | .fail claim retryable nowUs jobUs => (s.fail service claim retryable nowUs jobUs).map Prod.fst
  | .openWait settlement runId expected wait => s.openWait settlement runId expected wait
  | .resolveWait settlement expected command policy =>
    (s.resolveWait settlement expected command policy).map Prod.fst
  | .cancel settlement runId reason obligations =>
    (s.cancel service.authority settlement runId reason obligations).map Prod.fst
  | .recoverStartup adoptedAtUs recoveredAtUs =>
    (s.recoverStartup service.authority adoptedAtUs recoveredAtUs).map Prod.fst

def perform (service : RuntimeScheduler) (call : Call) : Except RuntimeError Store := do
  require (service.authority = s.holder) .staleAuthority
  s.apply service call

/-- `record_stop_intent`, of the module. -/
def recordStopIntent (q : RunStopRequest) : Except RuntimeError Store := do
  let ledger ← s.ledger.recordStopIntent (s.run? q.runId) s.auditRefs q
  pure { s with ledger }

/-- `stop_run`, of the module, with its answer. -/
def stopRun (q : RunStopRequest) (occurredAtUs completedAtUs : Nat)
    (outcomeAuditRef : Option String) : Except RuntimeError (Store × RunStopOutcome) := do
  let (ledger, r, settlement) ← s.ledger.stopRun (s.run? q.runId) s.auditRefs q occurredAtUs
    completedAtUs outcomeAuditRef
  match r with
  | none => pure ({ s with ledger }, settlement)
  | some r => pure ({ s.setRun r with ledger }, settlement)

def applyLedger : LedgerCall → Except RuntimeError Store
  | .recordStopIntent q => s.recordStopIntent q
  | .stopRun q occurredAtUs completedAtUs outcomeAuditRef =>
    (s.stopRun q occurredAtUs completedAtUs outcomeAuditRef).map Prod.fst
  | .recordAudit auditRef => pure { s with auditRefs := s.auditRefs ++ [auditRef] }

def performLedger (authority : Authority) (call : LedgerCall) : Except RuntimeError Store := do
  require (authority = s.holder) .staleAuthority
  s.applyLedger call

def step : Label → Store
  | .takeover authority =>
    if s.holder.fencingGeneration < authority.fencingGeneration then { s with holder := authority }
    else s
  | .call service call =>
    match s.perform service call with
    | .ok s' => s'
    | .error _ => s

def ledgerStep : LedgerLabel → Store
  | .lifecycle label => s.step label
  | .ledger authority call =>
    match s.performLedger authority call with
    | .ok s' => s'
    | .error _ => s

def empty (holder : Authority) : Store := ⟨holder, [], ⟨[], [], [], []⟩, [], []⟩

end Store

end OmniviaCore.Runtime
