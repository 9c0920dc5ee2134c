import OmniviaCore.CanonicalJson.Dumps
import OmniviaCore.Lib.Rows
import OmniviaCore.Ownership.SingleWriter

/-!
# Grants, requests and the rows of the mutation seam

What `execute_mutation` of `service/mutation.py` reads and writes. A `MutationGrant` is built by the issuer
only, so what the issuer makes sure of is part of the value. The rows are those of migrations `0007`, `0013`
and `0014`, and each `insert` makes the checks of its table: its keys, its lengths and its triggers. The
columns of sixty-four hexadecimal digits are written by the server, and their pattern is not checked again.
-/

namespace OmniviaCore.Mutation

open Lib CanonicalJson Ownership

/-! ## Requests and grants -/

/-- The tables `execute_mutation` is held to: `MUTATION_PURPOSES`, and whether the catalogue's entry
requires a precondition. -/
structure Policy where
  mutationPurpose : String → String
  preconditionRequired : String → Bool

/-- `CapabilityRef`. -/
structure CapabilityRef where
  id : String
  version : String
  deriving DecidableEq

/-- `IdempotencyScope`. -/
structure IdempotencyScope where
  principalId : String
  workspaceId : Option String
  operation : String
  idempotencyKey : String
  deriving DecidableEq

/-- `IdempotencyEquivalence`. -/
structure IdempotencyEquivalence where
  scope : IdempotencyScope
  fingerprint : String

/-- `AuthorizedApplicationContext`; `mutationPrecondition` is its record version, and `authority` its
`to_wire()`. -/
structure Context where
  operation : String
  principalId : String
  roles : List String
  workspaceId : Option String
  scopes : List String
  purpose : String
  capabilities : List CapabilityRef
  requestId : String
  correlationId : String
  traceId : String
  authority : Value
  idempotencyKey : Option String
  mutationPrecondition : Option String

/-- `length(column) BETWEEN 1 AND 128`. -/
def bounded (text : String) : Bool := 1 ≤ text.length && text.length ≤ 128

/-- `MutationGrant`. -/
structure MutationGrant (policy : Policy) where
  grantId : String
  principalId : String
  workspaceId : String
  requiredRole : String
  scopes : List String
  capabilities : List CapabilityRef
  operation : String
  purpose : String
  idempotencyKey : String
  requestFingerprint : String
  requiredRecordVersion : Option String
  fencingGeneration : ℕ
  issuedAtUs : ℕ
  issuedMonotonicUs : ℕ
  expiresMonotonicUs : ℕ
  purpose_eq : purpose = policy.mutationPurpose operation
  generation_pos : 0 < fencingGeneration
  issuedAt_pos : 0 < issuedAtUs
  window : issuedMonotonicUs < expiresMonotonicUs
  grantId_bounded : bounded grantId = true
  requiredRole_bounded : bounded requiredRole = true

namespace MutationGrant

variable {policy : Policy} (grant : MutationGrant policy)

/-- `MutationGrant.covers`. -/
def covers (context : Context) : Bool :=
  context.operation = grant.operation
    && context.workspaceId = some grant.workspaceId
    && context.purpose = grant.purpose
    && context.principalId = grant.principalId
    && grant.requiredRole ∈ context.roles
    && context.scopes.toFinset = grant.scopes.toFinset
    && context.capabilities = grant.capabilities

/-- `MutationGrant.binds`. -/
def binds (idempotencyKey fingerprint : String) (recordVersion : Option String) : Bool :=
  idempotencyKey = grant.idempotencyKey
    && fingerprint = grant.requestFingerprint
    && recordVersion = grant.requiredRecordVersion

/-- `MutationGrant.is_current`. -/
def isCurrent (nowMonotonicUs : ℕ) : Bool :=
  grant.issuedMonotonicUs ≤ nowMonotonicUs && nowMonotonicUs < grant.expiresMonotonicUs

/-- The scope in which the grant's key is claimed. -/
def scope : IdempotencyScope :=
  ⟨grant.principalId, some grant.workspaceId, grant.operation, grant.idempotencyKey⟩

end MutationGrant

/-- The `str` of a text. -/
def str (text : String) : Value := .str (ofChars text.toList)

/-- `json.dumps(sorted(grant.scopes))`. -/
def scopesJson (scopes : List String) : Except DumpsError (List Char) :=
  dumps (.sequence ((sortBy String.toList scopes.dedup).map str))

/-- `CapabilityRef.to_wire`. -/
def CapabilityRef.toWire (capability : CapabilityRef) : Value :=
  .mapping [(.name (ofChars "id".toList), str capability.id),
    (.name (ofChars "version".toList), str capability.version)]

def capabilitiesJson (capabilities : List CapabilityRef) : Except DumpsError (List Char) :=
  dumps (.sequence (capabilities.map CapabilityRef.toWire))

/-! ## Refusals -/

/-- How a mutation is refused, with the texts of `service/mutation.py`. `unestablished` marks a refusal
that does not establish the outcome (`ADMISSION_OUTCOME_UNESTABLISHED`). -/
inductive Refusal where
  | denied (message : String)
  | preconditionFailed
  | idempotencyConflict (auditReference : String)
  | seamFault (message : String)
  | unestablished (refusal : Refusal)
  /-- Raised by a callback. -/
  | raised (error : String)
  /-- Aborted by a constraint or a trigger. -/
  | integrity (error : String)
  | encode (error : DumpsError)
  | ownership (error : OwnershipError)

def MESSAGE_NO_GRANT := "this mutation has no server-issued grant behind it"
def MESSAGE_GRANT_NOT_FOR_THIS_REQUEST :=
  "the grant presented was not issued for this operation, workspace and purpose"
def MESSAGE_GRANT_EXPIRED := "the grant presented is outside its validity window"
def MESSAGE_IDEMPOTENCY_REQUIRED :=
  "this operation requires an idempotency key and a mutation precondition"
def MESSAGE_PRECONDITION_NOT_SUPPORTED :=
  "this operation declares no mutation precondition and none may be read for it"
def MESSAGE_EQUIVALENCE_MISMATCH := "the idempotency scope presented does not describe this request"
def MESSAGE_GRANT_NOT_BOUND_TO_REQUEST :=
  "the grant presented was not issued for this canonical request"
def MESSAGE_GRANT_ALREADY_USED :=
  "the server-issued grant has already been consumed by another mutation"
def MESSAGE_UNSTORABLE_RESULT := "this build cannot durably store an answer of this size"
def MESSAGE_UNSETTLED_CLAIM := "a recorded claim has no terminal outcome to answer a replay from"
def MESSAGE_OUTCOME_NOT_REPLAYABLE :=
  "a stored outcome is not the canonical document its digest was taken over"
def MESSAGE_OUTCOME_AUDIT_CROSSLINKED := "a stored outcome names an audit event its claim does not"
def MESSAGE_RESULT_REJECTED :=
  "this mutation produced a result the server will not serve for this operation"

/-! ## Rows -/

/-- `omnivia_application_audit_events`. -/
structure AuditEvent where
  auditRef : String
  workspaceId : String
  principalId : String
  operation : String
  purpose : String
  requestId : String
  correlationId : String
  traceId : String
  grantedAuthorityJson : List Char
  recordedAtUs : ℕ

/-- `omnivia_idempotency_claims`. -/
structure Claim where
  claimId : String
  workspaceId : String
  principalId : String
  operation : String
  idempotencyKey : String
  requestDigest : String
  auditRef : String
  claimedAtUs : ℕ

/-- The columns of `omnivia_idx_idempotency_claims_scope`. -/
def Claim.scope (claim : Claim) : IdempotencyScope :=
  ⟨claim.principalId, some claim.workspaceId, claim.operation, claim.idempotencyKey⟩

/-- `omnivia_idempotency_outcomes`, of a mutation that succeeded. -/
structure Outcome where
  outcomeId : String
  claimId : String
  workspaceId : String
  outcomeJson : Option (List Char)
  outcomeReference : Option String
  outcomeDigest : String
  auditRef : String
  settledAtUs : ℕ

/-- `omnivia_application_outcome_documents`. -/
structure OutcomeDocument where
  workspaceId : String
  outcomeReference : String
  claimId : String
  auditRef : String
  outcomeJson : List Char
  outcomeDigest : String
  outcomeByteLength : ℕ

/-- `execution_kind`. -/
inductive ExecutionKind where
  | executed
  | replayed
  deriving DecidableEq

/-- `omnivia_mutation_executions`, but for its own identifier. -/
structure Execution where
  workspaceId : String
  principalId : String
  operation : String
  purpose : String
  grantId : String
  requiredRole : String
  scopesJson : List Char
  capabilitiesJson : List Char
  executionKind : ExecutionKind
  fencingGeneration : ℕ
  grantIssuedAtUs : ℕ
  grantIssuedMonotonicUs : ℕ
  grantExpiresMonotonicUs : ℕ
  settledMonotonicUs : ℕ
  claimId : String
  auditRef : String
  recordedAtUs : ℕ

/-- The relations of the seam. -/
structure SeamRows where
  audits : List AuditEvent
  claims : List Claim
  outcomes : List Outcome
  documents : List OutcomeDocument
  executions : List Execution

def SeamRows.empty : SeamRows := ⟨[], [], [], [], []⟩

/-- The rows of a workspace database: those of the seam, and the domain's. -/
structure Rows (δ : Type) where
  seam : SeamRows
  domain : δ

/-- The length of a text in UTF-8. -/
def byteLength (text : List Char) : ℕ := (text.flatMap String.utf8EncodeChar).length

/-- `_MAX_INLINE_OUTCOME`. -/
def MAX_INLINE_OUTCOME : ℕ := 8192

/-- `_MAX_GRANTED_AUTHORITY`. -/
def MAX_GRANTED_AUTHORITY : ℕ := 4096

namespace SeamRows

variable (rows : SeamRows)

def insertAudit (audit : AuditEvent) : Except Refusal SeamRows := do
  require (∀ a ∈ rows.audits, a.auditRef ≠ audit.auditRef) (.integrity "UNIQUE audit_ref")
  require (bounded audit.auditRef && bounded audit.workspaceId && bounded audit.principalId
    && bounded audit.operation && bounded audit.purpose && bounded audit.requestId
    && bounded audit.correlationId && bounded audit.traceId
    && 1 ≤ audit.grantedAuthorityJson.length
    && audit.grantedAuthorityJson.length ≤ MAX_GRANTED_AUTHORITY
    && 0 < audit.recordedAtUs) (.integrity "CHECK omnivia_application_audit_events")
  pure { rows with audits := rows.audits ++ [audit] }

def insertClaim (claim : Claim) : Except Refusal SeamRows := do
  require (∀ c ∈ rows.claims, c.claimId ≠ claim.claimId) (.integrity "UNIQUE claim_id")
  require (∀ c ∈ rows.claims, c.scope ≠ claim.scope) (.integrity "UNIQUE claim scope")
  require (bounded claim.claimId && bounded claim.workspaceId && bounded claim.principalId
    && bounded claim.operation && bounded claim.idempotencyKey && bounded claim.auditRef
    && 0 < claim.claimedAtUs) (.integrity "CHECK omnivia_idempotency_claims")
  require (∃ a ∈ rows.audits, a.auditRef = claim.auditRef ∧ a.workspaceId = claim.workspaceId)
    (.integrity "FOREIGN KEY")
  pure { rows with claims := rows.claims ++ [claim] }

def insertDocument (document : OutcomeDocument) : Except Refusal SeamRows := do
  require (∀ d ∈ rows.documents, (d.workspaceId, d.outcomeReference) ≠
    (document.workspaceId, document.outcomeReference)) (.integrity "UNIQUE outcome_reference")
  require (∀ d ∈ rows.documents, (d.workspaceId, d.claimId) ≠
    (document.workspaceId, document.claimId)) (.integrity "UNIQUE document claim_id")
  require (bounded document.workspaceId && 1 ≤ document.outcomeReference.length
    && document.outcomeReference.length ≤ 256 && bounded document.claimId
    && bounded document.auditRef && MAX_INLINE_OUTCOME < byteLength document.outcomeJson
    && document.outcomeByteLength = byteLength document.outcomeJson)
    (.integrity "CHECK omnivia_application_outcome_documents")
  require (∃ c ∈ rows.claims, c.claimId = document.claimId ∧ c.workspaceId = document.workspaceId ∧
    c.auditRef = document.auditRef)
    (.integrity "omnivia: referenced outcome document names an audit event its claim does not")
  pure { rows with documents := rows.documents ++ [document] }

def insertOutcome (outcome : Outcome) : Except Refusal SeamRows := do
  require (∀ o ∈ rows.outcomes, o.outcomeId ≠ outcome.outcomeId) (.integrity "UNIQUE outcome_id")
  require (∀ o ∈ rows.outcomes, o.claimId ≠ outcome.claimId) (.integrity "UNIQUE outcome claim_id")
  require (bounded outcome.outcomeId && bounded outcome.claimId && bounded outcome.workspaceId
    && bounded outcome.auditRef && 0 < outcome.settledAtUs)
    (.integrity "CHECK omnivia_idempotency_outcomes")
  require (∀ json ∈ outcome.outcomeJson, 1 ≤ json.length ∧ json.length ≤ MAX_INLINE_OUTCOME)
    (.integrity "CHECK outcome_json")
  require (∀ c ∈ rows.claims, c.claimId = outcome.claimId → c.workspaceId = outcome.workspaceId →
    c.auditRef = outcome.auditRef)
    (.integrity "omnivia: idempotency outcome names an audit event its claim does not")
  require (∀ reference ∈ outcome.outcomeReference, ∃ d ∈ rows.documents,
    d.workspaceId = outcome.workspaceId ∧ d.outcomeReference = reference ∧
    d.claimId = outcome.claimId ∧ d.auditRef = outcome.auditRef ∧
    d.outcomeDigest = outcome.outcomeDigest)
    (.integrity "omnivia: referenced idempotency outcome has no exact canonical document")
  require ((∃ c ∈ rows.claims, c.claimId = outcome.claimId ∧ c.workspaceId = outcome.workspaceId) ∧
    ∃ a ∈ rows.audits, a.auditRef = outcome.auditRef ∧ a.workspaceId = outcome.workspaceId)
    (.integrity "FOREIGN KEY")
  pure { rows with outcomes := rows.outcomes ++ [outcome] }

def insertExecution (execution : Execution) : Except Refusal SeamRows := do
  require (∀ e ∈ rows.executions, e.grantId ≠ execution.grantId) (.integrity "UNIQUE grant_id")
  require (execution.executionKind = .executed → ∀ e ∈ rows.executions, e.executionKind = .executed →
    e.claimId ≠ execution.claimId) (.integrity "UNIQUE executed claim_id")
  require (bounded execution.workspaceId && bounded execution.principalId
    && bounded execution.operation && bounded execution.purpose && bounded execution.grantId
    && bounded execution.requiredRole && bounded execution.claimId && bounded execution.auditRef)
    (.integrity "CHECK omnivia_mutation_executions")
  require (2 ≤ execution.scopesJson.length ∧ execution.scopesJson.length ≤ MAX_GRANTED_AUTHORITY ∧
    2 ≤ execution.capabilitiesJson.length ∧
    execution.capabilitiesJson.length ≤ MAX_GRANTED_AUTHORITY) (.integrity "CHECK scopes_json")
  require (0 < execution.fencingGeneration ∧ 0 < execution.grantIssuedAtUs ∧
    execution.grantIssuedMonotonicUs < execution.grantExpiresMonotonicUs ∧
    execution.grantIssuedMonotonicUs ≤ execution.settledMonotonicUs ∧
    execution.settledMonotonicUs < execution.grantExpiresMonotonicUs ∧ 0 < execution.recordedAtUs)
    (.integrity "CHECK settled_monotonic_us")
  require ((∃ c ∈ rows.claims, c.claimId = execution.claimId ∧ c.workspaceId = execution.workspaceId ∧
      c.principalId = execution.principalId ∧ c.operation = execution.operation ∧
      c.auditRef = execution.auditRef) ∧
    ∃ a ∈ rows.audits, a.auditRef = execution.auditRef ∧ a.workspaceId = execution.workspaceId ∧
      a.principalId = execution.principalId ∧ a.operation = execution.operation ∧
      a.purpose = execution.purpose)
    (.integrity "omnivia: mutation execution contradicts the claim or audit event it names")
  pure { rows with executions := rows.executions ++ [execution] }

end SeamRows

end OmniviaCore.Mutation
