import OmniviaCore.Execution.PlaneOwnership

/-!
# What the calls of the execution planes do

One lemma an operation: what it checked and what it wrote when it returned. `requireCurrent` is the
check the five authority-bearing operations share (`Current`). A call that raises writes evidence only,
but for a takeover whose evidence cannot be digested, which has granted by then (`perform_raises`).
-/

namespace OmniviaCore.Execution

open Lib CanonicalJson

variable {sha256 : List UInt8 → String} {p p' : PlaneOwnership} {tick : Int} {e : ExecutionError}
variable {leaseId : String} {fencingToken : Int}

namespace PlaneOwnership

/-- A lease and token that pass the staleness check. -/
def Current (p : PlaneOwnership) (leaseId : String) (fencingToken tick : Int) (held : PlaneLease) :
    Prop :=
  p.leases.lookup leaseId = some held ∧ held.fencingToken = fencingToken ∧ p.InForce held leaseId tick

def Silent (p p' : PlaneOwnership) : Prop := p' = { p with evidence := p'.evidence }

theorem Silent.refl (p : PlaneOwnership) : p.Silent p := rfl

/-- A lease of the next token is granted for a role and scope. -/
structure Granted (sha256 : List UInt8 → String) (p p' : PlaneOwnership) (planeRole : PlaneRole)
    (scope owner : String) (expiresAtTick tick : Int) : Prop where
  scope_valid : isIdentifier scope = true
  owner_valid : isIdentifier owner = true
  window : tick < expiresAtTick
  nextToken : p'.nextToken = p.nextToken + 1
  leases : p'.leases =
    p.leases.insert (Plane.granted sha256 p planeRole scope owner expiresAtTick).leaseId
      (Plane.granted sha256 p planeRole scope owner expiresAtTick)
  owned : p'.owned = p.owned.insert (planeRole, scope)
    (Plane.granted sha256 p planeRole scope owner expiresAtTick).leaseId
  dispatches : p'.dispatches = p.dispatches
  deliveries : p'.deliveries = p.deliveries
  inFlight : p'.inFlight = p.inFlight
  listenerCapacity : p'.listenerCapacity = p.listenerCapacity

end PlaneOwnership

namespace Plane

open PlaneOwnership (Current Silent Granted)

/-! ## The staleness check -/

theorem requireCurrent_returns {held : PlaneLease}
    (h : requireCurrent leaseId fencingToken tick p = .ok held p') :
    p = p' ∧ p.Current leaseId fencingToken tick held := by
  simp only [requireCurrent, requireOrdinal, requireDigest, bind_returns, demand_returns,
    get_returns] at h
  obtain ⟨_, _, ⟨-, rfl⟩, _, _, ⟨-, rfl⟩, _, _, ⟨-, rfl⟩, _, _, ⟨rfl, rfl⟩, h⟩ := h
  cases hlookup : p.leases.lookup leaseId with
  | none => simp [hlookup] at h
  | some l =>
    simp only [hlookup, bind_returns, demand_returns, pure_returns] at h
    obtain ⟨_, _, ⟨howned, rfl⟩, _, _, ⟨htoken, rfl⟩, _, _, ⟨hforce, rfl⟩, rfl, rfl⟩ := h
    exact ⟨rfl, hlookup, htoken, howned, hforce⟩

theorem requireCurrent_reads : Reads (requireCurrent leaseId fencingToken tick) :=
  fun _ _ _ h => (requireCurrent_returns h).1.symm

theorem requireCurrent_raises : Raises Silent (requireCurrent leaseId fencingToken tick) := by
  refine .bind .demand (.demand Silent.refl) fun _ => .bind .demand (.demand Silent.refl) fun _ =>
    .bind .demand (.demand Silent.refl) fun _ => .bind .get .get fun p => ?_
  split
  · exact .throw Silent.refl
  · exact .bind .demand (.demand Silent.refl) fun _ => .bind .demand (.demand Silent.refl) fun _ =>
      .bind .demand (.demand Silent.refl) fun _ => .pure _

theorem hashed_returns {digest : Except ExecutionError String} {s : String} :
    hashed digest p = .ok s p' ↔ digest = .ok s ∧ p = p' := by
  cases digest with
  | ok d => simp [hashed]
  | error e => simp [hashed]

theorem hashed_reads {digest : Except ExecutionError String} : Reads (hashed digest) :=
  fun _ _ _ h => (hashed_returns.1 h).2.symm

theorem hashed_raises {digest : Except ExecutionError String} {R : PlaneOwnership → PlaneOwnership → Prop}
    (hR : ∀ p, R p p) : Raises R (hashed digest) := by
  cases digest with
  | ok d => exact .pure _
  | error e => exact .throw hR

/-! ## Grants -/

theorem grant_returns {planeRole : PlaneRole} {scope owner : String} {expiresAtTick : Int}
    {superseded : Option PlaneLease} {g : LeaseGrant}
    (h : grant sha256 planeRole scope owner expiresAtTick superseded p = .ok g p')
    (hscope : isIdentifier scope = true) (howner : isIdentifier owner = true)
    (hwindow : tick < expiresAtTick) :
    Granted sha256 p p' planeRole scope owner expiresAtTick tick ∧
      g = ⟨(granted sha256 p planeRole scope owner expiresAtTick).leaseId, planeRole, scope, owner,
        p.nextToken, expiresAtTick, superseded.map fun s => (s.leaseId, s.fencingToken)⟩ := by
  simp only [grant, bind_returns, get_returns, set_returns, pure_returns] at h
  obtain ⟨_, _, ⟨rfl, rfl⟩, _, _, rfl, rfl, rfl⟩ := h
  exact ⟨⟨hscope, howner, hwindow, rfl, rfl, rfl, rfl, rfl, rfl, rfl⟩, rfl⟩

theorem acquire_returns {planeRole : PlaneRole} {scope owner : String} {expiresAtTick : Int}
    {g : LeaseGrant} (h : acquire sha256 planeRole scope owner expiresAtTick tick p = .ok g p') :
    p.owned.lookup (planeRole, scope) = none ∧
      Granted sha256 p p' planeRole scope owner expiresAtTick tick ∧
      g = ⟨(granted sha256 p planeRole scope owner expiresAtTick).leaseId, planeRole, scope, owner,
        p.nextToken, expiresAtTick, none⟩ := by
  simp only [acquire, requireIdentifier, requireOrdinal, requireWindow, bind_returns, demand_returns,
    get_returns] at h
  obtain ⟨_, _, ⟨hscope, rfl⟩, _, _, ⟨howner, rfl⟩, _, _, ⟨-, rfl⟩, _, _, ⟨-, rfl⟩, _, _, ⟨hwindow, rfl⟩,
    _, _, ⟨rfl, rfl⟩, _, _, ⟨hfree, rfl⟩, h⟩ := h
  exact ⟨hfree, grant_returns h hscope howner hwindow⟩

/-- A lease that is revoked or expired is taken over. -/
def TakenOver (sha256 : List UInt8 → String) (p p' : PlaneOwnership) (planeRole : PlaneRole)
    (scope owner : String) (expiresAtTick tick : Int) (held : PlaneLease) : Prop :=
  (p.owned.lookup (planeRole, scope)).bind p.leases.lookup = some held ∧
    (held.revoked = true ∨ held.expiresAtTick ≤ tick) ∧
    ∃ q, Granted sha256 p q planeRole scope owner expiresAtTick tick ∧ Silent q p'

theorem takeOver_returns {planeRole : PlaneRole} {scope owner : String} {expiresAtTick : Int}
    {g : LeaseGrant} (h : takeOver sha256 planeRole scope owner expiresAtTick tick p = .ok g p') :
    ∃ held, TakenOver sha256 p p' planeRole scope owner expiresAtTick tick held ∧
      g = ⟨(granted sha256 p planeRole scope owner expiresAtTick).leaseId, planeRole, scope, owner,
        p.nextToken, expiresAtTick, some (held.leaseId, held.fencingToken)⟩ := by
  simp only [takeOver, requireIdentifier, requireOrdinal, requireWindow, bind_returns, demand_returns,
    get_returns] at h
  obtain ⟨_, _, ⟨hscope, rfl⟩, _, _, ⟨howner, rfl⟩, _, _, ⟨-, rfl⟩, _, _, ⟨-, rfl⟩, _, _, ⟨hwindow, rfl⟩,
    _, _, ⟨rfl, rfl⟩, h⟩ := h
  cases hheld : (p.owned.lookup (planeRole, scope)).bind p.leases.lookup with
  | none => simp [hheld] at h
  | some held =>
    simp only [hheld, bind_returns, demand_returns, hashed_returns, modify_returns,
      pure_returns] at h
    obtain ⟨_, _, ⟨hended, rfl⟩, made, q, hgrant, _, _, ⟨-, rfl⟩, _, _, rfl, rfl, rfl⟩ := h
    obtain ⟨hgranted, rfl⟩ := grant_returns hgrant hscope howner hwindow
    exact ⟨held, ⟨hheld, hended, q, hgranted, rfl⟩, rfl⟩

/-- A takeover whose evidence cannot be digested raises with its grant made. -/
theorem takeOver_raises {planeRole : PlaneRole} {scope owner : String} {expiresAtTick : Int}
    (h : takeOver sha256 planeRole scope owner expiresAtTick tick p = .error e p') :
    Silent p p' ∨ ∃ held, TakenOver sha256 p p' planeRole scope owner expiresAtTick tick held := by
  simp only [takeOver, requireIdentifier, requireOrdinal, requireWindow, bind_raises,
    demand_raises, demand_returns, get_raises, get_returns, false_or] at h
  obtain ⟨-, -, rfl⟩ | ⟨_, _, ⟨hscope, rfl⟩, h⟩ := h
  · exact .inl rfl
  obtain ⟨-, -, rfl⟩ | ⟨_, _, ⟨howner, rfl⟩, h⟩ := h
  · exact .inl rfl
  obtain ⟨-, -, rfl⟩ | ⟨_, _, ⟨-, rfl⟩, h⟩ := h
  · exact .inl rfl
  obtain ⟨-, -, rfl⟩ | ⟨_, _, ⟨-, rfl⟩, h⟩ := h
  · exact .inl rfl
  obtain ⟨-, -, rfl⟩ | ⟨_, _, ⟨hwindow, rfl⟩, _, _, ⟨rfl, rfl⟩, h⟩ := h
  · exact .inl rfl
  cases hheld : (p.owned.lookup (planeRole, scope)).bind p.leases.lookup with
  | none =>
    simp only [hheld, throw_raises] at h
    exact .inl (h.2 ▸ rfl)
  | some held =>
    simp only [hheld, bind_raises, demand_raises, demand_returns] at h
    obtain ⟨-, -, rfl⟩ | ⟨_, _, ⟨hended, rfl⟩, h⟩ := h
    · exact .inl rfl
    obtain h | ⟨made, q, hgrant, h⟩ := h
    · simp [grant] at h
    obtain ⟨hgranted, -⟩ := grant_returns hgrant hscope howner hwindow
    have hq : q = p' := by
      obtain h | ⟨_, _, hhashed, h⟩ := h
      · exact (hashed_raises (fun _ => rfl) _ _ _ h : q = p')
      · simp at h
    exact .inr ⟨held, hheld, hended, q, hgranted, hq ▸ rfl⟩

theorem renew_returns {owner : String} {expiresAtTick : Int} {g : LeaseGrant}
    (h : renew leaseId owner expiresAtTick tick p = .ok g p') :
    ∃ held, p.leases.lookup leaseId = some held ∧ p.InForce held leaseId tick ∧
      p' = { p with
        nextToken := p.nextToken + 1
        leases := p.leases.insert leaseId { held with fencingToken := p.nextToken, expiresAtTick } } ∧
      g = ⟨leaseId, held.planeRole, held.scope, owner, p.nextToken, expiresAtTick, none⟩ := by
  simp only [renew, requireIdentifier, requireDigest, requireOrdinal, requireWindow, bind_returns,
    demand_returns, get_returns] at h
  obtain ⟨_, _, ⟨-, rfl⟩, _, _, ⟨-, rfl⟩, _, _, ⟨-, rfl⟩, _, _, ⟨-, rfl⟩, _, _, ⟨-, rfl⟩, _, _, ⟨rfl, rfl⟩,
    h⟩ := h
  cases hlookup : p.leases.lookup leaseId with
  | none => simp [hlookup] at h
  | some held =>
    simp only [hlookup, bind_returns, demand_returns, set_returns, pure_returns] at h
    obtain ⟨_, _, ⟨-, rfl⟩, _, _, ⟨howned, rfl⟩, _, _, ⟨hforce, rfl⟩, _, _, rfl, rfl, rfl⟩ := h
    exact ⟨held, rfl, ⟨howned, hforce⟩, rfl, rfl⟩

theorem revoke_returns {u : PUnit} (h : revoke leaseId fencingToken tick p = .ok u p') :
    ∃ held, p.Current leaseId fencingToken tick held ∧
      p' = { p with leases := p.leases.insert leaseId { held with revoked := true } } := by
  simp only [revoke, bind_returns, modify_returns, pure_returns] at h
  obtain ⟨held, _, hchecked, _, _, rfl, -, rfl⟩ := h
  obtain ⟨rfl, hcurrent⟩ := requireCurrent_returns hchecked
  exact ⟨held, hcurrent, rfl⟩

/-! ## Work under a lease -/

theorem dispatch_returns {dispatchId payloadDigest : String} {record : DispatchRecord}
    (h : dispatch leaseId fencingToken dispatchId payloadDigest tick p = .ok record p') :
    ∃ held, p.Current leaseId fencingToken tick held ∧ p.dispatches.lookup dispatchId = none ∧
      p' = { p with dispatches :=
        p.dispatches.insert dispatchId ⟨held.planeRole, leaseId, fencingToken, false⟩ } ∧
      record = ⟨dispatchId, held.planeRole, leaseId, fencingToken, payloadDigest⟩ := by
  simp only [dispatch, requireIdentifier, requireDigest, bind_returns, demand_returns, get_returns,
    set_returns, pure_returns] at h
  obtain ⟨_, _, ⟨-, rfl⟩, _, _, ⟨-, rfl⟩, held, _, hchecked, _, _, ⟨-, rfl⟩, _, _, ⟨rfl, rfl⟩, _, _,
    ⟨hnew, rfl⟩, _, _, rfl, rfl, rfl⟩ := h
  obtain ⟨rfl, hcurrent⟩ := requireCurrent_returns hchecked
  exact ⟨held, hcurrent, hnew, rfl, rfl⟩

theorem applyWrite_returns {payloadDigest writeId : String}
    (h : applyWrite sha256 leaseId fencingToken payloadDigest tick p = .ok writeId p') :
    p' = p ∧ ∃ held, p.Current leaseId fencingToken tick held := by
  simp only [applyWrite, requireDigest, bind_returns, demand_returns, pure_returns] at h
  obtain ⟨_, _, ⟨-, rfl⟩, held, _, hchecked, -, rfl⟩ := h
  obtain ⟨rfl, hcurrent⟩ := requireCurrent_returns hchecked
  exact ⟨rfl, held, hcurrent⟩

theorem completes_iff {state : DispatchState} : completes p state fencingToken tick = true ↔
    ∃ held, p.leases.lookup state.leaseId = some held ∧ p.InForce held state.leaseId tick ∧
      state.fencingToken = fencingToken := by
  unfold completes
  cases p.leases.lookup state.leaseId with
  | none => simp
  | some held => simp

theorem complete_returns {dispatchId : String} {kind : CompletionKind} {outcome : CompletionOutcome}
    (h : complete sha256 dispatchId fencingToken kind tick p = .ok outcome p') :
    ∃ state, p.dispatches.lookup dispatchId = some state ∧ state.completed = false ∧
      outcome.dispatchId = dispatchId ∧
      (outcome.applied = true ∧ completes p state fencingToken tick = true ∧
        p' = { p with
          dispatches := p.dispatches.insert dispatchId { state with completed := true } } ∨
      outcome.applied = false ∧ Silent p p') := by
  simp only [complete, requireIdentifier, requireOrdinal, bind_returns, demand_returns,
    get_returns] at h
  obtain ⟨_, _, ⟨-, rfl⟩, _, _, ⟨-, rfl⟩, _, _, ⟨-, rfl⟩, _, _, ⟨rfl, rfl⟩, h⟩ := h
  cases hlookup : p.dispatches.lookup dispatchId with
  | none => simp [hlookup] at h
  | some state =>
    simp only [hlookup, bind_returns, demand_returns] at h
    obtain ⟨_, _, ⟨hopen, rfl⟩, h⟩ := h
    split at h
    · next hcompletes =>
      simp only [bind_returns, set_returns, pure_returns] at h
      obtain ⟨_, _, rfl, rfl, rfl⟩ := h
      exact ⟨state, rfl, hopen, rfl, .inl ⟨rfl, hcompletes, rfl⟩⟩
    · simp only [bind_returns, hashed_returns, modify_returns, pure_returns] at h
      obtain ⟨_, _, ⟨-, rfl⟩, _, _, rfl, rfl, rfl⟩ := h
      exact ⟨state, rfl, hopen, rfl, .inr ⟨rfl, rfl⟩⟩

theorem deliver_returns {deliveryId dedupeKey : String} {decision : DeliveryDecision}
    (h : deliver sha256 leaseId fencingToken deliveryId dedupeKey tick p = .ok decision p') :
    ∃ held, p.Current leaseId fencingToken tick held ∧ held.planeRole = .listener ∧
      decision.dedupeKey = dedupeKey ∧
      (decision.disposition = .duplicate ∧ p.deliveries.lookup dedupeKey ≠ none ∧ p' = p ∨
      decision.disposition = .delivered ∧ p.deliveries.lookup dedupeKey = none ∧
        (p.inFlight.card : Int) < p.listenerCapacity ∧
        p' = { p with
          deliveries := p.deliveries.insert dedupeKey (deliveryId, held.scope)
          inFlight := insert dedupeKey p.inFlight }) := by
  simp only [deliver, requireIdentifier, bind_returns, demand_returns, get_returns] at h
  obtain ⟨_, _, ⟨-, rfl⟩, _, _, ⟨-, rfl⟩, held, _, hchecked, _, _, ⟨hlistener, rfl⟩, _, _, ⟨rfl, rfl⟩,
    h⟩ := h
  obtain ⟨rfl, hcurrent⟩ := requireCurrent_returns hchecked
  refine ⟨held, hcurrent, hlistener, ?_⟩
  cases hlookup : p.deliveries.lookup dedupeKey with
  | some admitted =>
    simp only [hlookup, pure_returns] at h
    obtain ⟨rfl, rfl⟩ := h
    exact ⟨rfl, .inl ⟨rfl, Option.some_ne_none _, rfl⟩⟩
  | none =>
    simp only [hlookup] at h
    split at h
    · simp [bind_returns] at h
    · next hroom =>
      simp only [bind_returns, set_returns, pure_returns] at h
      obtain ⟨_, _, rfl, rfl, rfl⟩ := h
      exact ⟨rfl, .inr ⟨rfl, rfl, by omega, rfl⟩⟩

theorem settleDelivery_returns {dedupeKey : String} {remaining : Nat}
    (h : settleDelivery leaseId fencingToken dedupeKey tick p = .ok remaining p') :
    ∃ held admitted, p.Current leaseId fencingToken tick held ∧ held.planeRole = .listener ∧
      p.deliveries.lookup dedupeKey = some admitted ∧ admitted.2 = held.scope ∧
      p' = { p with inFlight := p.inFlight.erase dedupeKey } := by
  simp only [settleDelivery, requireIdentifier, bind_returns, demand_returns, get_returns] at h
  obtain ⟨_, _, ⟨-, rfl⟩, held, _, hchecked, _, _, ⟨hlistener, rfl⟩, _, _, ⟨rfl, rfl⟩, h⟩ := h
  obtain ⟨rfl, hcurrent⟩ := requireCurrent_returns hchecked
  cases hlookup : p.deliveries.lookup dedupeKey with
  | none => simp [hlookup] at h
  | some admitted =>
    simp only [hlookup, bind_returns, demand_returns, set_returns, pure_returns] at h
    obtain ⟨_, _, ⟨hscope, rfl⟩, _, _, rfl, -, rfl⟩ := h
    exact ⟨held, admitted, hcurrent, hlistener, rfl, hscope, rfl⟩

theorem reconcile_returns {resource observationDigest : String}
    {observationAge maximumObservationAge : Int} {decision : ReconciliationDecision}
    (h : reconcile leaseId fencingToken resource observationDigest observationAge
      maximumObservationAge tick p = .ok decision p') :
    p' = p ∧ ∃ held, p.Current leaseId fencingToken tick held := by
  simp only [reconcile, requireIdentifier, requireDigest, requireOrdinal, bind_returns, demand_returns,
    pure_returns] at h
  obtain ⟨_, _, ⟨-, rfl⟩, _, _, ⟨-, rfl⟩, _, _, ⟨-, rfl⟩, _, _, ⟨-, rfl⟩, held, _, hchecked, _, _, ⟨-, rfl⟩,
    _, _, ⟨-, rfl⟩, _, _, ⟨-, rfl⟩, -, rfl⟩ := h
  obtain ⟨rfl, hcurrent⟩ := requireCurrent_returns hchecked
  exact ⟨rfl, held, hcurrent⟩

/-! ## A call that raises -/

theorem acquire_raises {planeRole : PlaneRole} {scope owner : String} {expiresAtTick : Int} :
    Raises Silent (acquire sha256 planeRole scope owner expiresAtTick tick) := by
  refine .bind .demand (.demand Silent.refl) fun _ => .bind .demand (.demand Silent.refl) fun _ =>
    .bind .demand (.demand Silent.refl) fun _ => .bind .demand (.demand Silent.refl) fun _ =>
    .bind .demand (.demand Silent.refl) fun _ => .bind .get .get fun p =>
    .bind .demand (.demand Silent.refl) fun _ => .bind .get .get fun p => .bind_set

theorem renew_raises {owner : String} {expiresAtTick : Int} :
    Raises Silent (renew leaseId owner expiresAtTick tick) := by
  refine .bind .demand (.demand Silent.refl) fun _ => .bind .demand (.demand Silent.refl) fun _ =>
    .bind .demand (.demand Silent.refl) fun _ => .bind .demand (.demand Silent.refl) fun _ =>
    .bind .demand (.demand Silent.refl) fun _ => .bind .get .get fun p => ?_
  split
  · exact .throw Silent.refl
  · exact .bind .demand (.demand Silent.refl) fun _ => .bind .demand (.demand Silent.refl) fun _ =>
      .bind .demand (.demand Silent.refl) fun _ => .bind_set

theorem complete_raises {dispatchId : String} {kind : CompletionKind} :
    Raises Silent (complete sha256 dispatchId fencingToken kind tick) := by
  refine .bind .demand (.demand Silent.refl) fun _ => .bind .demand (.demand Silent.refl) fun _ =>
    .bind .demand (.demand Silent.refl) fun _ => .bind .get .get fun p => ?_
  split
  · exact .throw Silent.refl
  · refine .bind .demand (.demand Silent.refl) fun _ => ?_
    split
    · exact .bind_set
    · exact .bind hashed_reads (hashed_raises Silent.refl) fun digest => .bind_modify

theorem deliver_raises {deliveryId dedupeKey : String} :
    Raises Silent (deliver sha256 leaseId fencingToken deliveryId dedupeKey tick) := by
  refine .bind .demand (.demand Silent.refl) fun _ => .bind .demand (.demand Silent.refl) fun _ =>
    .bind requireCurrent_reads requireCurrent_raises fun held =>
    .bind .demand (.demand Silent.refl) fun _ => .bind .get .get fun p => ?_
  split
  · exact .pure _
  · split
    · refine .bind hashed_reads (hashed_raises Silent.refl) fun digest p e p' h => ?_
      simp only [bind_raises, modify_raises, modify_returns, throw_raises, false_or] at h
      obtain ⟨_, _, rfl, -, rfl⟩ := h
      rfl
    · exact .bind_set

theorem settleDelivery_raises {dedupeKey : String} :
    Raises Silent (settleDelivery leaseId fencingToken dedupeKey tick) := by
  refine .bind .demand (.demand Silent.refl) fun _ =>
    .bind requireCurrent_reads requireCurrent_raises fun held =>
    .bind .demand (.demand Silent.refl) fun _ => .bind .get .get fun p => ?_
  split
  · exact .throw Silent.refl
  · exact .bind .demand (.demand Silent.refl) fun _ => .bind_set

end Plane

/-- A call that raises writes evidence at most, unless it is a takeover that has granted. -/
theorem PlaneCall.perform_raises {call : PlaneCall} (h : call.perform sha256 tick p = .error e p') :
    PlaneOwnership.Silent p p' ∨ ∃ planeRole scope owner expiresAtTick held,
      Plane.TakenOver sha256 p p' planeRole scope owner expiresAtTick tick held := by
  cases call with
  | acquire planeRole scope owner expiresAtTick =>
    exact .inl (Plane.acquire_raises _ _ _ (map_raises.1 h))
  | renew leaseId owner expiresAtTick => exact .inl (Plane.renew_raises _ _ _ (map_raises.1 h))
  | takeOver planeRole scope owner expiresAtTick =>
    exact (Plane.takeOver_raises (map_raises.1 h)).imp id fun ⟨held, hheld⟩ =>
      ⟨planeRole, scope, owner, expiresAtTick, held, hheld⟩
  | revoke leaseId fencingToken =>
    have hraises : Raises PlaneOwnership.Silent (Plane.revoke leaseId fencingToken tick) :=
      .bind Plane.requireCurrent_reads Plane.requireCurrent_raises fun held => .bind_modify
    exact .inl (hraises _ _ _ (map_raises.1 h))
  | dispatch leaseId fencingToken dispatchId payloadDigest =>
    have hraises : Raises PlaneOwnership.Silent
        (Plane.dispatch leaseId fencingToken dispatchId payloadDigest tick) :=
      .bind .demand (.demand PlaneOwnership.Silent.refl) fun _ =>
        .bind .demand (.demand PlaneOwnership.Silent.refl) fun _ =>
        .bind Plane.requireCurrent_reads Plane.requireCurrent_raises fun held =>
        .bind .demand (.demand PlaneOwnership.Silent.refl) fun _ => .bind .get .get fun p =>
        .bind .demand (.demand PlaneOwnership.Silent.refl) fun _ => .bind_set
    exact .inl (hraises _ _ _ (map_raises.1 h))
  | applyWrite leaseId fencingToken payloadDigest =>
    have hraises : Raises PlaneOwnership.Silent
        (Plane.applyWrite sha256 leaseId fencingToken payloadDigest tick) :=
      .bind .demand (.demand PlaneOwnership.Silent.refl) fun _ =>
        .bind Plane.requireCurrent_reads Plane.requireCurrent_raises fun held => .pure _
    exact .inl (hraises _ _ _ (map_raises.1 h))
  | complete dispatchId fencingToken outcome =>
    exact .inl (Plane.complete_raises _ _ _ (map_raises.1 h))
  | deliver leaseId fencingToken deliveryId dedupeKey =>
    exact .inl (Plane.deliver_raises _ _ _ (map_raises.1 h))
  | settleDelivery leaseId fencingToken dedupeKey =>
    exact .inl (Plane.settleDelivery_raises _ _ _ (map_raises.1 h))
  | reconcile leaseId fencingToken resource observationDigest age maximumAge =>
    have hraises : Raises PlaneOwnership.Silent (Plane.reconcile leaseId fencingToken resource
        observationDigest age maximumAge tick) :=
      .bind .demand (.demand PlaneOwnership.Silent.refl) fun _ =>
        .bind .demand (.demand PlaneOwnership.Silent.refl) fun _ =>
        .bind .demand (.demand PlaneOwnership.Silent.refl) fun _ =>
        .bind .demand (.demand PlaneOwnership.Silent.refl) fun _ =>
        .bind Plane.requireCurrent_reads Plane.requireCurrent_raises fun held =>
        .bind .demand (.demand PlaneOwnership.Silent.refl) fun _ =>
        .bind .demand (.demand PlaneOwnership.Silent.refl) fun _ =>
        .bind .demand (.demand PlaneOwnership.Silent.refl) fun _ => .pure _
    exact .inl (hraises _ _ _ (map_raises.1 h))

end OmniviaCore.Execution
