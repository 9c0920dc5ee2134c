import OmniviaCore.Runtime.Statements

/-!
# The stop ledger

`storage/runtime_stop.py` over migrations 0025 and 0042: a request that a run stop, its one outcome,
the observations of its progress and the receipts of its cleanup. A request's identifier is the
caller's, so it is looked up over the whole workspace. Whether an effect has settled is the effect
ledger's to say, and is a function given to the projection.
-/

namespace OmniviaCore.Runtime

open Lib

/-- The columns of a stop request, as their `CHECK`s admit them. -/
def RunStopRequest.wellFormed (q : RunStopRequest) : Bool :=
  Jobs.isIdentifier q.stopRequestId && Jobs.isIdentifier q.runId && Jobs.isIdentifier q.requestedBy &&
    Jobs.isOpenCode q.reason && Jobs.isIdentifier q.auditRef && decide (0 < q.requestedAtUs)

namespace StopLedger

variable (l : StopLedger)

/-! ## Readers -/

/-- `_read_stop_request`. -/
def request? (stopRequestId : String) : Option RunStopRequest :=
  l.requests.find? (·.stopRequestId = stopRequestId)

/-- `read_run_stop_outcome`. -/
def outcome? (stopRequestId : String) : Option RunStopOutcome :=
  l.outcomes.find? (·.stopRequestId = stopRequestId)

def openRequests (runId : String) : List RunStopRequest :=
  l.requests.filter fun q => q.runId = runId && (l.outcome? q.stopRequestId).isNone

/-- `read_unsettled_stop_request`. -/
def readUnsettledStopRequest (runId : String) : Except RuntimeError (Option RunStopRequest) :=
  match l.openRequests runId with
  | [] => pure none
  | [q] => pure (some q)
  | _ => throw .ambiguousStop

/-- `read_stop_progress`. -/
def progressOf (stopRequestId : String) : List StopProgress :=
  l.progress.filter (·.stopRequestId = stopRequestId)

/-- The outcomes of `read_stop_cleanup_receipts`. -/
def receiptsOf (stopRequestId : String) : List CleanupOutcome :=
  (l.receipts.filter (·.stopRequestId = stopRequestId)).map StopCleanupReceipt.outcome

end StopLedger

/-- `RuntimeStopCleanupState`. -/
inductive CleanupState where
  | notRequired
  | requested
  | completed
  | partialCleanup
  | failed
  | uncertain
  deriving DecidableEq

/-- `RuntimeStopPhase`. -/
inductive StopPhase where
  | requested
  | pendingReconciliation
  | settled
  deriving DecidableEq

/-- `RuntimeStopProjection`: the members that are not copied from the request, `retry_eligible`,
which is false, and the truncation of the pending effects left out. -/
structure StopProjection where
  stopRequestId : String
  phase : StopPhase
  pendingEffectIds : List String
  cleanupState : CleanupState

/-- `_cleanup_state`. -/
def cleanupStateOf (cleanupRequired : Option Bool) (outcomes : List CleanupOutcome) :
    CleanupState :=
  if outcomes = [] then
    match cleanupRequired with
    | none => .uncertain
    | some true => .requested
    | some false => .notRequired
  else if outcomes.contains .unknown then .uncertain
  else if outcomes.contains .failed then
    if outcomes.contains .released then .partialCleanup else .failed
  else if outcomes.contains .released then .completed
  else .notRequired

namespace StopLedger

variable (l : StopLedger)

/-- What the latest observation of a stop is projected to, given the effects that have settled. -/
def projectObservation (settled : String → Bool) (q : RunStopRequest) (p : StopProgress) :
    StopProjection :=
  let pending := p.obligations.filter fun intent => !settled intent
  let cleanupState := cleanupStateOf (some p.cleanupRequired) (l.receiptsOf q.stopRequestId)
  { stopRequestId := q.stopRequestId
    phase :=
      if pending = [] ∧ (cleanupState = .notRequired ∨ cleanupState = .completed) then .settled
      else .pendingReconciliation
    pendingEffectIds := pending
    cleanupState }

/-- `read_stop_projection`. -/
def readStopProjection (settled : String → Bool) (stopRequestId : String) :
    Except RuntimeError StopProjection :=
  match l.request? stopRequestId with
  | none => throw .unknownStopRequest
  | some q =>
    match (l.progressOf stopRequestId).getLast? with
    | some p => pure (l.projectObservation settled q p)
    | none => do
      require ((l.outcome? stopRequestId).isSome = true) .stopNotObserved
      pure
        { stopRequestId
          phase := .requested
          pendingEffectIds := []
          cleanupState := cleanupStateOf none (l.receiptsOf stopRequestId) }

/-! ## Writers -/

/-- `INSERT INTO omnivia_runtime_stop_requests`, against the run it names. -/
def insertRequest (r : Run) (auditRefs : List String) (q : RunStopRequest) :
    Except RuntimeError StopLedger := do
  require (q.wellFormed = true) .malformed
  require (r.createdAtUs ≤ q.requestedAtUs) .predates
  require (q.auditRef ∈ auditRefs) .unknownReference
  pure { l with requests := l.requests ++ [q] }

/-- `record_stop_intent`, where `r` is the run the request names, if the workspace holds it. -/
def recordStopIntent (r : Option Run) (auditRefs : List String) (q : RunStopRequest) :
    Except RuntimeError StopLedger :=
  match l.request? q.stopRequestId with
  | some recorded => do
    require (recorded = q) .stopRequestDiffers
    pure l
  | none =>
    match r with
    | none => throw .unknownRun
    | some r => do
      require (r.status.isSome = true) .unknownRun
      l.insertRequest r auditRefs q

/-- What the run a request names must show for an outcome: an accepted one names its cancelled
event, an ignored one a run already terminal. -/
def checkOutcome (r : Run) (q : RunStopRequest) (o : RunStopOutcome) : Except RuntimeError Unit :=
  match o.outcome with
  | .accepted sequence =>
    require (r.events[sequence]?.any (fun e => e.runStatus = .cancelled &&
      decide (q.requestedAtUs ≤ e.occurredAtUs ∧ e.occurredAtUs ≤ o.completedAtUs)) = true)
      .outcomeWithoutEvent
  | .ignoredAlreadyTerminal => require (r.terminal = true) .runNotLive
  | .rejected => pure ()

/-- `INSERT INTO omnivia_runtime_stop_outcomes`, against its request and the run it names. -/
def insertOutcome (r : Run) (auditRefs : List String) (q : RunStopRequest) (o : RunStopOutcome) :
    Except RuntimeError StopLedger := do
  require ((l.outcome? o.stopRequestId).isNone = true) .notUnique
  require (q.requestedAtUs ≤ o.completedAtUs) .predatesRequest
  checkOutcome r q o
  require (o.auditRef ∈ auditRefs) .unknownReference
  require (0 < o.completedAtUs) .timeNotPositive
  pure { l with outcomes := l.outcomes ++ [o] }

/-- `stop_run` once its request is recorded and found to carry no outcome: the ledger, the run and
the settlement. -/
def settleStop (r : Run) (auditRefs : List String) (q : RunStopRequest)
    (occurredAtUs completedAtUs : Nat) (outcomeAuditRef : Option String) :
    Except RuntimeError (StopLedger × Run × RunStopOutcome) := do
  let auditRef := outcomeAuditRef.getD q.auditRef
  if r.terminal then do
    let settlement : RunStopOutcome :=
      ⟨q.stopRequestId, .ignoredAlreadyTerminal, completedAtUs, q.reason, auditRef⟩
    let settled ← l.insertOutcome r auditRefs q settlement
    pure (settled, r, settlement)
  else do
    let stopped ← r.appendRunEvent ⟨occurredAtUs, .cancelled, none, none⟩
    let settlement : RunStopOutcome :=
      ⟨q.stopRequestId, .accepted r.events.length, completedAtUs, q.reason, auditRef⟩
    let settled ← l.insertOutcome stopped auditRefs q settlement
    pure (settled, stopped, settlement)

/-- `stop_run`: the ledger, the run where the call was about one, and the answer. -/
def stopRun (r : Option Run) (auditRefs : List String) (q : RunStopRequest)
    (occurredAtUs completedAtUs : Nat) (outcomeAuditRef : Option String) :
    Except RuntimeError (StopLedger × Option Run × RunStopOutcome) := do
  let recorded ← l.recordStopIntent r auditRefs q
  match recorded.outcome? q.stopRequestId with
  | some settled => pure (recorded, r, settled)
  | none =>
    match r with
    | none => throw .unknownRun
    | some r => do
      let (settled, r', settlement) ←
        recorded.settleStop r auditRefs q occurredAtUs completedAtUs outcomeAuditRef
      pure (settled, some r', settlement)

/-- `record_progress`, of a request of the ledger. -/
def recordProgress (q : RunStopRequest) (p : StopProgress) : Except RuntimeError StopLedger := do
  require (q.requestedAtUs ≤ p.observedAtUs) .predatesRequest
  require ((l.progressOf q.stopRequestId).getLast?.all (fun o =>
    decide (o.observedAtUs ≤ p.observedAtUs)) = true) .timeRegresses
  require (p.obligations.length ≤ 256) .tooManyObligations
  require (0 < p.observedAtUs) .timeNotPositive
  pure { l with progress := l.progress ++ [p] }

/-- `record_cleanup_receipt`, one for each resource released. -/
def recordCleanupReceipts (q : RunStopRequest) (released : Nat) (nowUs : Nat) :
    Except RuntimeError StopLedger := do
  require (released = 0 ∨ q.requestedAtUs ≤ nowUs) .predatesRequest
  pure { l with receipts := l.receipts ++ List.replicate released ⟨q.stopRequestId, .released⟩ }

end StopLedger

end OmniviaCore.Runtime
