import OmniviaCore.Execution.Profile

/-!
# Ownership of the execution planes

`PlaneOwnership` of `execution/governed.py`: who owns each plane role and scope, under which fencing token,
and what is dispatched, completed, delivered and settled under it. One counter issues every token. A lease
id is the SHA-256 digest of what the lease was granted for and the token it began with. An operation that
raises keeps what it wrote before, which is how a late result and a saturated listener leave evidence.
-/

namespace OmniviaCore.Execution

open Lib CanonicalJson

/-- `PLANE_ROLES`. -/
inductive PlaneRole where
  | scheduler
  | listener
  | resourceSupervisor
  | worker
  | capabilityGateway
  deriving DecidableEq

def PlaneRole.spelling : PlaneRole → String
  | .scheduler => "SCHEDULER"
  | .listener => "LISTENER"
  | .resourceSupervisor => "RESOURCE_SUPERVISOR"
  | .worker => "WORKER"
  | .capabilityGateway => "CAPABILITY_GATEWAY"

/-- `COMPLETION_OUTCOMES`. -/
inductive CompletionKind where
  | succeeded
  | failed
  | cancelled
  deriving DecidableEq

def CompletionKind.spelling : CompletionKind → String
  | .succeeded => "SUCCEEDED"
  | .failed => "FAILED"
  | .cancelled => "CANCELLED"

/-- `Evidence`, whose `applied` is always `False`. -/
structure Evidence where
  code : String
  subject : String
  detailDigest : String

/-- `_LeaseState`. -/
structure PlaneLease where
  leaseId : String
  planeRole : PlaneRole
  scope : String
  owner : String
  fencingToken : Int
  expiresAtTick : Int
  revoked : Bool

/-- `LeaseGrant`. -/
structure LeaseGrant where
  leaseId : String
  planeRole : PlaneRole
  scope : String
  owner : String
  fencingToken : Int
  expiresAtTick : Int
  superseded : Option (String × Int)

/-- `_DispatchState`. -/
structure DispatchState where
  planeRole : PlaneRole
  leaseId : String
  fencingToken : Int
  completed : Bool

/-- `DispatchRecord`. -/
structure DispatchRecord where
  dispatchId : String
  planeRole : PlaneRole
  leaseId : String
  fencingToken : Int
  payloadDigest : String

/-- `CompletionOutcome`. It was applied when it carries no evidence. -/
structure CompletionOutcome where
  dispatchId : String
  outcome : CompletionKind
  applied : Bool
  evidence : Option Evidence

/-- `DELIVERY_DISPOSITIONS`. -/
inductive Disposition where
  | delivered
  | duplicate
  deriving DecidableEq

/-- `DeliveryDecision`. -/
structure DeliveryDecision where
  deliveryId : String
  dedupeKey : String
  disposition : Disposition
  inFlight : Nat
  capacity : Int

/-- `ReconciliationDecision`. -/
structure ReconciliationDecision where
  resource : String
  leaseId : String
  fencingToken : Int
  observationDigest : String
  observationAge : Int

/-- `PlaneOwnership`. -/
structure PlaneOwnership where
  listenerCapacity : Int
  nextToken : Int
  leases : AList fun _ : String => PlaneLease
  owned : AList fun _ : PlaneRole × String => String
  dispatches : AList fun _ : String => DispatchState
  deliveries : AList fun _ : String => String × String
  inFlight : Finset String
  evidence : List Evidence

abbrev Plane (α : Type) := EStateM ExecutionError PlaneOwnership α

namespace PlaneOwnership

def fresh (listenerCapacity : Int) : PlaneOwnership :=
  ⟨listenerCapacity, 1, ∅, ∅, ∅, ∅, ∅, []⟩

/-- The lease is the current, unrevoked and unexpired one of its role and scope. -/
def InForce (p : PlaneOwnership) (lease : PlaneLease) (leaseId : String) (atTick : Int) : Prop :=
  p.owned.lookup (lease.planeRole, lease.scope) = some leaseId ∧ lease.revoked = false ∧
    atTick < lease.expiresAtTick

instance (p : PlaneOwnership) (lease : PlaneLease) (leaseId : String) (atTick : Int) :
    Decidable (p.InForce lease leaseId atTick) := by
  unfold InForce
  infer_instance

end PlaneOwnership

namespace Plane

/-- `_require_ordinal`. -/
def requireOrdinal (fieldName : String) (value : Int) : Plane PUnit :=
  demand (0 ≤ value)
    (.contract "invalid_ordinal" s!"{fieldName} is not a non-negative integer ordinal")

def requireWindow (atTick expiresAtTick : Int) : Plane PUnit :=
  demand (atTick < expiresAtTick) (.contract "invalid_lease_window" "lease expiry must be later")

def staleAuthority (message : String) : ExecutionError :=
  .refused "EXECUTION_PLANE_STALE_AUTHORITY" message

/-- `canonical_hash`, which may raise. -/
def hashed (digest : Except ExecutionError String) : Plane String :=
  match digest with
  | .ok digest => pure digest
  | .error e => throw e

/-- A JSON object of the members, as `canonical_hash` is handed one. -/
def document (members : List (String × Value)) : Value :=
  .mapping (members.map fun m => (.name (ofChars m.1.toList), m.2))

def text (s : String) : Value := .str (ofChars s.toList)

variable (sha256 : List UInt8 → String)

def granted (p : PlaneOwnership) (planeRole : PlaneRole) (scope owner : String)
    (expiresAtTick : Int) : PlaneLease where
  leaseId := deriveId sha256 ["lease", planeRole.spelling, scope, owner, toString p.nextToken]
  planeRole
  scope
  owner
  fencingToken := p.nextToken
  expiresAtTick
  revoked := false

/-- `_grant`. -/
def grant (planeRole : PlaneRole) (scope owner : String) (expiresAtTick : Int)
    (superseded : Option PlaneLease) : Plane LeaseGrant := do
  let p ← get
  let lease := granted sha256 p planeRole scope owner expiresAtTick
  set { p with
    nextToken := p.nextToken + 1
    leases := p.leases.insert lease.leaseId lease
    owned := p.owned.insert (planeRole, scope) lease.leaseId }
  pure {
    leaseId := lease.leaseId, planeRole, scope, owner
    fencingToken := lease.fencingToken, expiresAtTick
    superseded := superseded.map fun s => (s.leaseId, s.fencingToken) }

/-- `acquire`. -/
def acquire (planeRole : PlaneRole) (scope owner : String) (expiresAtTick acquiredAtTick : Int) :
    Plane LeaseGrant := do
  requireIdentifier "scope" scope
  requireIdentifier "owner" owner
  requireOrdinal "acquired_at_tick" acquiredAtTick
  requireOrdinal "expires_at_tick" expiresAtTick
  requireWindow acquiredAtTick expiresAtTick
  let p ← get
  demand (p.owned.lookup (planeRole, scope) = none)
    (.refused "EXECUTION_PLANE_ALREADY_OWNED" "the scope is already owned; renew or take over instead")
  grant sha256 planeRole scope owner expiresAtTick none

/-- `renew`. -/
def renew (leaseId owner : String) (expiresAtTick renewedAtTick : Int) : Plane LeaseGrant := do
  requireDigest "lease_id" leaseId
  requireIdentifier "owner" owner
  requireOrdinal "renewed_at_tick" renewedAtTick
  requireOrdinal "expires_at_tick" expiresAtTick
  requireWindow renewedAtTick expiresAtTick
  let p ← get
  match p.leases.lookup leaseId with
  | none => throw (staleAuthority "no such lease is held by this owner")
  | some held =>
    demand (held.owner = owner) (staleAuthority "no such lease is held by this owner")
    demand (p.owned.lookup (held.planeRole, held.scope) = some leaseId)
      (staleAuthority "the lease has already been superseded")
    demand (held.revoked = false ∧ renewedAtTick < held.expiresAtTick)
      (staleAuthority "the lease is revoked or expired")
    set { p with
      nextToken := p.nextToken + 1
      leases := p.leases.insert leaseId { held with fencingToken := p.nextToken, expiresAtTick } }
    pure {
      leaseId, planeRole := held.planeRole, scope := held.scope, owner
      fencingToken := p.nextToken, expiresAtTick, superseded := none }

/-- `take_over`. -/
def takeOver (planeRole : PlaneRole) (scope owner : String) (expiresAtTick atTick : Int) :
    Plane LeaseGrant := do
  requireIdentifier "scope" scope
  requireIdentifier "owner" owner
  requireOrdinal "at_tick" atTick
  requireOrdinal "expires_at_tick" expiresAtTick
  requireWindow atTick expiresAtTick
  let p ← get
  match (p.owned.lookup (planeRole, scope)).bind p.leases.lookup with
  | none => throw (.refused "EXECUTION_PLANE_NOT_OWNED" "there is no lease to take over")
  | some superseded =>
    demand (superseded.revoked = true ∨ superseded.expiresAtTick ≤ atTick)
      (staleAuthority "the current lease has neither expired nor been revoked")
    let grant ← grant sha256 planeRole scope owner expiresAtTick (some superseded)
    let detailDigest ← hashed (canonicalHash sha256 (document [
      ("planeRole", text planeRole.spelling), ("scope", text scope),
      ("supersededFencingToken", .int superseded.fencingToken),
      ("supersededLeaseId", text superseded.leaseId), ("supersededOwner", text superseded.owner),
      ("takingOwner", text owner)]))
    modify fun p => { p with evidence := p.evidence ++
      [⟨"EXECUTION_PLANE_OWNERSHIP_TAKEOVER", grant.leaseId, detailDigest⟩] }
    pure grant

/-- `_require_current`. -/
def requireCurrent (leaseId : String) (fencingToken atTick : Int) : Plane PlaneLease := do
  requireDigest "lease_id" leaseId
  requireOrdinal "fencing_token" fencingToken
  requireOrdinal "at_tick" atTick
  let p ← get
  match p.leases.lookup leaseId with
  | none => throw (staleAuthority "no such lease")
  | some held =>
    demand (p.owned.lookup (held.planeRole, held.scope) = some leaseId)
      (staleAuthority "the lease has been superseded")
    demand (held.fencingToken = fencingToken)
      (staleAuthority "the fencing token is not the lease's current token")
    demand (held.revoked = false ∧ atTick < held.expiresAtTick)
      (staleAuthority "the lease is revoked or expired")
    pure held

/-- `revoke`. -/
def revoke (leaseId : String) (fencingToken atTick : Int) : Plane PUnit := do
  let held ← requireCurrent leaseId fencingToken atTick
  modify fun p => { p with leases := p.leases.insert leaseId { held with revoked := true } }
  pure ⟨⟩

/-- `dispatch`. -/
def dispatch (leaseId : String) (fencingToken : Int) (dispatchId payloadDigest : String)
    (atTick : Int) : Plane DispatchRecord := do
  requireIdentifier "dispatch_id" dispatchId
  requireDigest "payload_digest" payloadDigest
  let held ← requireCurrent leaseId fencingToken atTick
  demand (held.planeRole = .scheduler)
    (.contract "wrong_plane_role" "dispatch requires a SCHEDULER lease")
  let p ← get
  demand (p.dispatches.lookup dispatchId = none)
    (.contract "duplicate_dispatch" "dispatch_id has already been dispatched")
  set { p with
    dispatches := p.dispatches.insert dispatchId ⟨held.planeRole, leaseId, fencingToken, false⟩ }
  pure ⟨dispatchId, held.planeRole, leaseId, fencingToken, payloadDigest⟩

/-- `apply_write`. -/
def applyWrite (leaseId : String) (fencingToken : Int) (payloadDigest : String) (atTick : Int) :
    Plane String := do
  requireDigest "payload_digest" payloadDigest
  let held ← requireCurrent leaseId fencingToken atTick
  pure (deriveId sha256 ["write", held.leaseId, toString fencingToken, payloadDigest])

/-- What still makes a completion current: the lease of the dispatch is in force, and the token is
the one it was dispatched under. -/
def completes (p : PlaneOwnership) (state : DispatchState) (fencingToken atTick : Int) : Bool :=
  match p.leases.lookup state.leaseId with
  | none => false
  | some held => p.InForce held state.leaseId atTick ∧ state.fencingToken = fencingToken

/-- `complete`. -/
def complete (dispatchId : String) (fencingToken : Int) (outcome : CompletionKind) (atTick : Int) :
    Plane CompletionOutcome := do
  requireIdentifier "dispatch_id" dispatchId
  requireOrdinal "fencing_token" fencingToken
  requireOrdinal "at_tick" atTick
  let p ← get
  match p.dispatches.lookup dispatchId with
  | none => throw (.contract "unknown_dispatch" "no such dispatch")
  | some state =>
    demand (state.completed = false)
      (.contract "duplicate_completion" "the dispatch has already been completed")
    if completes p state fencingToken atTick then
      set { p with
        dispatches := p.dispatches.insert dispatchId { state with completed := true } }
      pure ⟨dispatchId, outcome, true, none⟩
    else
      let detailDigest ← hashed (canonicalHash sha256 (document [
        ("dispatchFencingToken", .int state.fencingToken), ("outcome", text outcome.spelling),
        ("reportedFencingToken", .int fencingToken)]))
      let evidence : Evidence := ⟨"EXECUTION_PLANE_LATE_RESULT", dispatchId, detailDigest⟩
      modify fun p => { p with evidence := p.evidence ++ [evidence] }
      pure ⟨dispatchId, outcome, false, some evidence⟩

/-- `deliver`. -/
def deliver (leaseId : String) (fencingToken : Int) (deliveryId dedupeKey : String)
    (atTick : Int) : Plane DeliveryDecision := do
  requireIdentifier "delivery_id" deliveryId
  requireIdentifier "dedupe_key" dedupeKey
  let held ← requireCurrent leaseId fencingToken atTick
  demand (held.planeRole = .listener)
    (.contract "wrong_plane_role" "delivery requires a LISTENER lease")
  let p ← get
  match p.deliveries.lookup dedupeKey with
  | some admitted =>
    pure ⟨admitted.1, dedupeKey, .duplicate, p.inFlight.card, p.listenerCapacity⟩
  | none =>
    if p.listenerCapacity ≤ p.inFlight.card then
      let detailDigest ← hashed (canonicalHash sha256 (document [
        ("capacity", .int p.listenerCapacity), ("dedupeKey", text dedupeKey),
        ("inFlight", .int p.inFlight.card)]))
      modify fun p => { p with evidence := p.evidence ++
        [⟨"LISTENER_SATURATED", deliveryId, detailDigest⟩] }
      throw (.refused "LISTENER_SATURATED" "the listener is at its bounded delivery capacity")
    else
      let inFlight := insert dedupeKey p.inFlight
      set { p with
        deliveries := p.deliveries.insert dedupeKey (deliveryId, held.scope), inFlight }
      pure ⟨deliveryId, dedupeKey, .delivered, inFlight.card, p.listenerCapacity⟩

/-- `settle_delivery`. -/
def settleDelivery (leaseId : String) (fencingToken : Int) (dedupeKey : String) (atTick : Int) :
    Plane Nat := do
  requireIdentifier "dedupe_key" dedupeKey
  let held ← requireCurrent leaseId fencingToken atTick
  demand (held.planeRole = .listener)
    (.contract "wrong_plane_role" "delivery settlement requires a LISTENER lease")
  let p ← get
  match p.deliveries.lookup dedupeKey with
  | none => throw (.contract "unknown_delivery" "no such delivery")
  | some admitted =>
    demand (admitted.2 = held.scope)
      (staleAuthority "the delivery was admitted under another listener scope")
    let inFlight := p.inFlight.erase dedupeKey
    set { p with inFlight }
    pure inFlight.card

/-- `reconcile`. -/
def reconcile (leaseId : String) (fencingToken : Int) (resource observationDigest : String)
    (observationAge maximumObservationAge atTick : Int) : Plane ReconciliationDecision := do
  requireIdentifier "resource" resource
  requireDigest "observation_digest" observationDigest
  requireOrdinal "observation_age" observationAge
  demand (1 ≤ maximumObservationAge)
    (.contract "invalid_freshness_bound" "maximum_observation_age must be at least one")
  let held ← requireCurrent leaseId fencingToken atTick
  demand (held.planeRole = .resourceSupervisor)
    (.contract "wrong_plane_role" "reconciliation requires a RESOURCE_SUPERVISOR lease")
  demand (held.scope = resource)
    (staleAuthority "reconciliation resource does not match the held lease scope")
  demand (observationAge ≤ maximumObservationAge)
    (.refused "EXECUTION_PLANE_STALE_OBSERVATION"
      "the observation is older than the declared freshness bound")
  pure ⟨resource, leaseId, fencingToken, observationDigest, observationAge⟩

end Plane

/-- The calls of the planes. -/
inductive PlaneCall where
  | acquire (planeRole : PlaneRole) (scope owner : String) (expiresAtTick : Int)
  | renew (leaseId owner : String) (expiresAtTick : Int)
  | takeOver (planeRole : PlaneRole) (scope owner : String) (expiresAtTick : Int)
  | revoke (leaseId : String) (fencingToken : Int)
  | dispatch (leaseId : String) (fencingToken : Int) (dispatchId payloadDigest : String)
  | applyWrite (leaseId : String) (fencingToken : Int) (payloadDigest : String)
  | complete (dispatchId : String) (fencingToken : Int) (outcome : CompletionKind)
  | deliver (leaseId : String) (fencingToken : Int) (deliveryId dedupeKey : String)
  | settleDelivery (leaseId : String) (fencingToken : Int) (dedupeKey : String)
  | reconcile (leaseId : String) (fencingToken : Int) (resource observationDigest : String)
      (observationAge maximumObservationAge : Int)

/-- What a call returns. -/
inductive PlaneAnswer where
  | grant (grant : LeaseGrant)
  | revoked
  | record (record : DispatchRecord)
  | written (writeId : String)
  | completion (outcome : CompletionOutcome)
  | delivery (decision : DeliveryDecision)
  | settled (remaining : Nat)
  | reconciled (decision : ReconciliationDecision)

def PlaneCall.perform (sha256 : List UInt8 → String) (tick : Int) : PlaneCall → Plane PlaneAnswer
  | .acquire planeRole scope owner expiresAtTick =>
    .grant <$> Plane.acquire sha256 planeRole scope owner expiresAtTick tick
  | .renew leaseId owner expiresAtTick => .grant <$> Plane.renew leaseId owner expiresAtTick tick
  | .takeOver planeRole scope owner expiresAtTick =>
    .grant <$> Plane.takeOver sha256 planeRole scope owner expiresAtTick tick
  | .revoke leaseId fencingToken => (fun _ => .revoked) <$> Plane.revoke leaseId fencingToken tick
  | .dispatch leaseId fencingToken dispatchId payloadDigest =>
    .record <$> Plane.dispatch leaseId fencingToken dispatchId payloadDigest tick
  | .applyWrite leaseId fencingToken payloadDigest =>
    .written <$> Plane.applyWrite sha256 leaseId fencingToken payloadDigest tick
  | .complete dispatchId fencingToken outcome =>
    .completion <$> Plane.complete sha256 dispatchId fencingToken outcome tick
  | .deliver leaseId fencingToken deliveryId dedupeKey =>
    .delivery <$> Plane.deliver sha256 leaseId fencingToken deliveryId dedupeKey tick
  | .settleDelivery leaseId fencingToken dedupeKey =>
    .settled <$> Plane.settleDelivery leaseId fencingToken dedupeKey tick
  | .reconcile leaseId fencingToken resource observationDigest age maximumAge =>
    .reconciled <$> Plane.reconcile leaseId fencingToken resource observationDigest age maximumAge tick

def PlaneOwnership.step (sha256 : List UInt8 → String) (p : PlaneOwnership)
    (label : Int × PlaneCall) : PlaneOwnership :=
  finalState (label.2.perform sha256 label.1 p)

end OmniviaCore.Execution
