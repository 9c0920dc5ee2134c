import OmniviaCore.Mutation.Records

/-!
# The mutation seam

`execute_mutation` of `service/mutation.py`. The grant and the request are checked before a transaction
is opened (`admission`); then, inside one fenced transaction, an existing claim is answered from its stored
outcome (`serveReplay`) and a new one is settled (`settleFresh`). The domain mutation, the readers and
validators and the allocator are arguments that may raise. A call reads the monotonic clock three times
and the wall clock once.
-/

namespace OmniviaCore.Mutation

open Lib CanonicalJson Ownership

variable {δ : Type}

/-! ## A call -/

/-- `MutationSettlementContext`. -/
structure MutationSettlementContext where
  auditRef : String
  claimId : String
  outcomeId : String
  settledAtUs : ℕ

/-- What a domain mutation returns: a `dict`. -/
structure Result where
  members : List (Key × Value)
  distinct : (Value.mapping members).distinct = true

/-- The readings of the clock, in their order. -/
structure Readings where
  entryMonotonicUs : ℕ
  settledMonotonicUs : ℕ
  settledAtUs : ℕ
  finalMonotonicUs : ℕ
  entry_le : entryMonotonicUs ≤ settledMonotonicUs
  settled_le : settledMonotonicUs ≤ finalMonotonicUs
  settledAt_pos : 0 < settledAtUs

/-- The arguments of `execute_mutation`. -/
structure Call (policy : Policy) (δ : Type) where
  grant : Option (MutationGrant policy)
  context : Context
  equivalence : IdempotencyEquivalence
  compatibleEquivalences : List IdempotencyEquivalence
  precondition : Option (Rows δ → Except String (Option String))
  replayAuthority : Option (Rows δ → Except String Unit)
  mutate : Rows δ → MutationSettlementContext → Except String (δ × Result)
  validateResult : Value → Except String Bool
  allocateIdentifier : String → Except String String
  clock : Readings

/-- `MutationOutcome`. -/
structure MutationOutcome where
  result : Value
  replayed : Bool
  claimId : String
  auditRef : String

variable {policy : Policy}

/-- The fingerprints a call accepts. -/
def Call.acceptedFingerprints (call : Call policy δ) : List String :=
  call.equivalence.fingerprint :: call.compatibleEquivalences.map (·.fingerprint)

/-! ## Before the transaction -/

/-- The version the request requires the record to be at, as the catalogue decides. -/
def requiredRecordVersion (call : Call policy δ) (grant : MutationGrant policy) :
    Except Refusal (Option String) :=
  if policy.preconditionRequired grant.operation then
    match call.context.mutationPrecondition, call.precondition with
    | some version, some _ => pure (some version)
    | _, _ => throw (.denied MESSAGE_IDEMPOTENCY_REQUIRED)
  else
    match call.context.mutationPrecondition, call.precondition with
    | none, none => pure none
    | _, _ => throw (.denied MESSAGE_PRECONDITION_NOT_SUPPORTED)

/-- The checks made before a transaction is opened. -/
def admission (call : Call policy δ) : Except Refusal (MutationGrant policy × Option String) :=
  match call.grant with
  | none => throw (.denied MESSAGE_NO_GRANT)
  | some grant => do
    require (grant.covers call.context) (.denied MESSAGE_GRANT_NOT_FOR_THIS_REQUEST)
    require (grant.isCurrent call.clock.entryMonotonicUs) (.denied MESSAGE_GRANT_EXPIRED)
    match call.context.idempotencyKey with
    | none => throw (.denied MESSAGE_IDEMPOTENCY_REQUIRED)
    | some key => do
      let version ← requiredRecordVersion call grant
      require (call.equivalence.scope =
        ⟨grant.principalId, some grant.workspaceId, grant.operation, key⟩)
        (.denied MESSAGE_EQUIVALENCE_MISMATCH)
      require (call.compatibleEquivalences.length ≤ 2 ∧
        ∀ candidate ∈ call.compatibleEquivalences, candidate.scope = call.equivalence.scope)
        (.denied MESSAGE_EQUIVALENCE_MISMATCH)
      require (grant.binds key call.equivalence.fingerprint version)
        (.denied MESSAGE_GRANT_NOT_BOUND_TO_REQUEST)
      pure (grant, version)

/-! ## Inside the transaction -/

section Settlement

variable (sha256 : List UInt8 → String)

/-- `_digest`. -/
def digest (canonical : List Char) : String :=
  "sha256:" ++ sha256 (canonical.flatMap String.utf8EncodeChar)

/-- A callback's answer, or what it raised. -/
def called {α : Type} (answer : Except String α) : Except Refusal α := answer.mapError .raised

/-- `_require_current`. -/
def requireCurrent (grant : MutationGrant policy) (nowMonotonicUs : ℕ) : Except Refusal Unit :=
  require (grant.isCurrent nowMonotonicUs) (.denied MESSAGE_GRANT_EXPIRED)

/-- `_record_execution`. -/
def recordExecution (rows : SeamRows) (grant : MutationGrant policy) (clock : Readings)
    (kind : ExecutionKind) (claimId auditRef : String) : Except Refusal SeamRows := do
  let scopes ← (scopesJson grant.scopes).mapError .encode
  let capabilities ← (capabilitiesJson grant.capabilities).mapError .encode
  require (scopes.length ≤ MAX_GRANTED_AUTHORITY ∧ capabilities.length ≤ MAX_GRANTED_AUTHORITY)
    (.seamFault MESSAGE_UNSTORABLE_RESULT)
  rows.insertExecution {
    workspaceId := grant.workspaceId
    principalId := grant.principalId
    operation := grant.operation
    purpose := grant.purpose
    grantId := grant.grantId
    requiredRole := grant.requiredRole
    scopesJson := scopes
    capabilitiesJson := capabilities
    executionKind := kind
    fencingGeneration := grant.fencingGeneration
    grantIssuedAtUs := grant.issuedAtUs
    grantIssuedMonotonicUs := grant.issuedMonotonicUs
    grantExpiresMonotonicUs := grant.expiresMonotonicUs
    settledMonotonicUs := clock.settledMonotonicUs
    claimId
    auditRef
    recordedAtUs := clock.settledAtUs }

/-- `_find_claim`. -/
def findClaim (rows : SeamRows) (scope : IdempotencyScope) : Option Claim :=
  rows.claims.find? fun claim => claim.scope = scope

/-- The text an outcome stores, in its own column or in a document. -/
def storedText (rows : SeamRows) (outcome : Outcome) : Except Refusal (List Char) :=
  match outcome.outcomeJson, outcome.outcomeReference with
  | some stored, _ => pure stored
  | none, none => throw (.seamFault MESSAGE_UNSETTLED_CLAIM)
  | none, some reference =>
    match rows.documents.find? fun d =>
        (d.workspaceId, d.outcomeReference) = (outcome.workspaceId, reference) with
    | none => throw (.seamFault MESSAGE_OUTCOME_NOT_REPLAYABLE)
    | some document => do
      require (document.outcomeDigest = outcome.outcomeDigest ∧ document.claimId = outcome.claimId ∧
        document.auditRef = outcome.auditRef) (.seamFault MESSAGE_OUTCOME_NOT_REPLAYABLE)
      require (byteLength document.outcomeJson = document.outcomeByteLength)
        (.seamFault MESSAGE_OUTCOME_NOT_REPLAYABLE)
      pure document.outcomeJson

/-- Whether a value is a `dict`. -/
def isMapping : Value → Bool
  | .mapping _ => true
  | _ => false

/-- The value a stored text is served as: read back, and written again as the same text. -/
def servedValue (stored : List Char) : Except Refusal Value :=
  match loads stored with
  | .error _ => throw (.seamFault MESSAGE_OUTCOME_NOT_REPLAYABLE)
  | .ok decoded =>
    match canonicalize decoded (ofChars ['$']) with
    | .error _ => throw (.seamFault MESSAGE_OUTCOME_NOT_REPLAYABLE)
    | .ok canonical => do
      require (canonical = stored ∧ isMapping decoded) (.seamFault MESSAGE_OUTCOME_NOT_REPLAYABLE)
      pure decoded

/-- `_replay`. -/
def replay (rows : SeamRows) (claim : Claim) : Except Refusal MutationOutcome :=
  match rows.outcomes.find? fun outcome => outcome.claimId = claim.claimId with
  | none => throw (.seamFault MESSAGE_UNSETTLED_CLAIM)
  | some outcome => do
    require (outcome.auditRef = claim.auditRef) (.seamFault MESSAGE_OUTCOME_AUDIT_CROSSLINKED)
    let stored ← storedText rows outcome
    require (digest sha256 stored = outcome.outcomeDigest) (.seamFault MESSAGE_OUTCOME_NOT_REPLAYABLE)
    let decoded ← servedValue stored
    pure ⟨decoded, true, claim.claimId, outcome.auditRef⟩

/-- A refusal of an operation does not establish the outcome of a claim that exists. -/
def unserved {α : Type} (served : Except Refusal α) : Except Refusal α :=
  served.mapError fun
    | .denied message => .unestablished (.denied message)
    | .preconditionFailed => .unestablished .preconditionFailed
    | .idempotencyConflict auditReference => .unestablished (.idempotencyConflict auditReference)
    | .seamFault message => .unestablished (.seamFault message)
    | refusal => refusal

/-- The domain's check before a stored answer is served. -/
def checkReplayAuthority (call : Call policy δ) (rows : Rows δ) : Except Refusal Unit :=
  match call.replayAuthority with
  | none => pure ()
  | some authority => called (authority rows)

/-- The answer of a claim that exists. -/
def serveReplay (call : Call policy δ) (grant : MutationGrant policy) (rows : Rows δ)
    (claim : Claim) : Except Refusal (Rows δ × MutationOutcome) := do
  checkReplayAuthority call rows
  let replayed ← replay sha256 rows.seam claim
  let valid ← called (call.validateResult replayed.result)
  require valid (.seamFault MESSAGE_RESULT_REJECTED)
  requireCurrent grant call.clock.settledMonotonicUs
  let seam ← recordExecution rows.seam grant call.clock .replayed claim.claimId replayed.auditRef
  requireCurrent grant call.clock.finalMonotonicUs
  pure ({ rows with seam }, replayed)

/-- The outcome of a settlement, stored inline or in a document. -/
def insertSettled (call : Call policy δ) (seam : SeamRows) (grant : MutationGrant policy)
    (settlement : MutationSettlementContext) (text : List Char) : Except Refusal SeamRows := do
  let outcome (json : Option (List Char)) (reference : Option String) : Outcome := {
    outcomeId := settlement.outcomeId
    claimId := settlement.claimId
    workspaceId := grant.workspaceId
    outcomeJson := json
    outcomeReference := reference
    outcomeDigest := digest sha256 text
    auditRef := settlement.auditRef
    settledAtUs := settlement.settledAtUs }
  if MAX_INLINE_OUTCOME < byteLength text then do
    let reference ← called (call.allocateIdentifier "ocr")
    let seam ← seam.insertDocument {
      workspaceId := grant.workspaceId
      outcomeReference := reference
      claimId := settlement.claimId
      auditRef := settlement.auditRef
      outcomeJson := text
      outcomeDigest := digest sha256 text
      outcomeByteLength := byteLength text }
    seam.insertOutcome (outcome none (some reference))
  else seam.insertOutcome (outcome (some text) none)

/-- The record is at the version the request requires. -/
def checkPrecondition (call : Call policy δ) (version : Option String) (rows : Rows δ) :
    Except Refusal Unit :=
  match call.precondition with
  | none => pure ()
  | some precondition => do
    let observed ← called (precondition rows)
    require (observed = version) .preconditionFailed

/-- A claim that does not exist yet is settled. -/
def settleFresh (call : Call policy δ) (grant : MutationGrant policy) (version : Option String)
    (rows : Rows δ) : Except Refusal (Rows δ × MutationOutcome) := do
  checkPrecondition call version rows
  requireCurrent grant call.clock.settledMonotonicUs
  let auditRef ← called (call.allocateIdentifier "aud")
  let claimId ← called (call.allocateIdentifier "clm")
  let outcomeId ← called (call.allocateIdentifier "out")
  let settlement : MutationSettlementContext :=
    ⟨auditRef, claimId, outcomeId, call.clock.settledAtUs⟩
  let authority ← (dumps call.context.authority).mapError .encode
  require (authority.length ≤ MAX_GRANTED_AUTHORITY) (.seamFault MESSAGE_UNSTORABLE_RESULT)
  let seam ← rows.seam.insertAudit {
    auditRef
    workspaceId := grant.workspaceId
    principalId := grant.principalId
    operation := grant.operation
    purpose := grant.purpose
    requestId := call.context.requestId
    correlationId := call.context.correlationId
    traceId := call.context.traceId
    grantedAuthorityJson := authority
    recordedAtUs := settlement.settledAtUs }
  let seam ← seam.insertClaim {
    claimId
    workspaceId := grant.workspaceId
    principalId := grant.principalId
    operation := grant.operation
    idempotencyKey := grant.idempotencyKey
    requestDigest := call.equivalence.fingerprint
    auditRef
    claimedAtUs := settlement.settledAtUs }
  let (domain, result) ← called (call.mutate ⟨seam, rows.domain⟩ settlement)
  let value := Value.mapping result.members
  let valid ← called (call.validateResult value)
  require valid (.seamFault MESSAGE_RESULT_REJECTED)
  let text ← (dumps value).mapError .encode
  let seam ← insertSettled sha256 call seam grant settlement text
  let seam ← recordExecution seam grant call.clock .executed claimId auditRef
  requireCurrent grant call.clock.finalMonotonicUs
  pure (⟨seam, domain⟩, ⟨value, false, claimId, auditRef⟩)

/-- The statements of the transaction. -/
def settle (call : Call policy δ) (grant : MutationGrant policy) (version : Option String)
    (rows : Rows δ) : Except Refusal (Rows δ × MutationOutcome) := do
  require (∀ e ∈ rows.seam.executions, e.grantId ≠ grant.grantId) (.denied MESSAGE_GRANT_ALREADY_USED)
  match findClaim rows.seam grant.scope with
  | none => settleFresh sha256 call grant version rows
  | some claim => do
    require (claim.requestDigest ∈ call.acceptedFingerprints) (.idempotencyConflict claim.auditRef)
    unserved (serveReplay sha256 call grant rows claim)

/-- `execute_mutation`. -/
def executeMutation (d : Database (Rows δ)) (identity : ServiceInstanceIdentity)
    (call : Call policy δ) : Database (Rows δ) × Except Refusal MutationOutcome :=
  match admission call with
  | .error refusal => (d, .error refusal)
  | .ok (grant, version) =>
    let settled := settle sha256 call grant version
    let statement : Rows δ → Except String (Rows δ) := fun rows =>
      ((settled rows).map Prod.fst).mapError fun _ => "refused"
    match fencedTransaction d identity grant.workspaceId grant.fencingGeneration
      (guardedWrite statement) with
    | (d', .ok ()) => (d', (settled d.current.rows).map Prod.snd)
    | (d', .error (.bodyRaised message)) =>
      match settled d.current.rows with
      | .error refusal => (d', .error refusal)
      | .ok _ => (d', .error (.ownership (.bodyRaised message)))
    | (d', .error e) => (d', .error (.ownership e))

end Settlement

end OmniviaCore.Mutation
