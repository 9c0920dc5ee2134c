import OmniviaCore.Execution.Profile

/-!
# The stateful session plane

`StatefulSessionPlane` of `execution/planes.py`: one lease a session, fenced across transfer of
control and expiring against an injected clock. A lease, and so a token a caller presents, is a
`SessionLease`, whose fields hold what `__post_init__` checked. A snapshot is not checked when it is
built. The seam never reads a lineage, which is an arbitrary type. Every operation is run from a plane,
ends in one also when it raises, and reads the clock where the source does.
-/

namespace OmniviaCore.Execution

open Lib

/-- `LEASE_STATES`. -/
inductive LeaseState where
  | held
  | released
  | expired
  deriving DecidableEq

/-- `SessionLease`. -/
structure SessionLease (L : Type) where
  sessionId : String
  holder : String
  fence : Int
  expiresAtUs : Int
  lineage : L
  externalReference : String
  state : LeaseState
  sessionId_valid : isIdentifier sessionId = true
  holder_valid : isIdentifier holder = true
  externalReference_valid : isIdentifier externalReference = true
  fence_pos : 1 ≤ fence
  expiresAtUs_nonneg : 0 ≤ expiresAtUs
  deriving DecidableEq

/-- `SessionSnapshot`. -/
structure SessionSnapshot where
  sessionId : String
  holder : String
  fence : Int
  externalReference : String
  takenAtUs : Int

/-- `SESSION_STATES`. -/
inductive SessionState where
  | active
  | released
  | orphaned
  | unknown
  deriving DecidableEq

/-- The kinds of a `SessionEvent`. -/
inductive EventKind where
  | acquired
  | snapshotted
  | transferred
  | resumed
  | expired
  | released
  | reconciled
  deriving DecidableEq

/-- `SessionEvent`. -/
structure SessionEvent where
  kind : EventKind
  sessionId : String
  externalReference : String
  holder : String
  fence : Int
  atUs : Int
  state : Option SessionState

/-- `ReconcileResult`. -/
structure ReconcileResult where
  externalReference : String
  state : SessionState
  sessionId : String
  fence : Int
  evidence : List SessionEvent

/-- The declared lifecycle operations of a `SessionProviderDescriptor`. -/
structure SessionProvider where
  supportsSuspendResume : Bool
  supportsControlTransfer : Bool

/-- `StatefulSessionPlane`. -/
structure SessionPlane (L : Type) where
  provider : SessionProvider
  leases : AList fun _ : String => SessionLease L
  events : List SessionEvent
  keyed : ∀ sessionId lease, leases.lookup sessionId = some lease → lease.sessionId = sessionId

abbrev Session (L α : Type) := EStateM ExecutionError (SessionPlane L) α

def MAX_TTL_US : Int := 86400000000

variable {L : Type}

def SessionPlane.fresh (provider : SessionProvider) : SessionPlane L :=
  ⟨provider, ∅, [], fun _ _ h => by simp at h⟩

namespace SessionLease

/-- A `HELD` lease as its constructor checks it. -/
def construct (sessionId holder : String) (fence expiresAtUs : Int) (lineage : L)
    (externalReference : String) : Except ExecutionError (SessionLease L) :=
  if h₁ : isIdentifier sessionId = true then
    if h₂ : isIdentifier holder = true then
      if h₃ : isIdentifier externalReference = true then
        if h₄ : 1 ≤ fence then
          if h₅ : 0 ≤ expiresAtUs then
            .ok ⟨sessionId, holder, fence, expiresAtUs, lineage, externalReference, .held,
              h₁, h₂, h₃, h₄, h₅⟩
          else .error (.contract "invalid_deadline" "expires_at_us must not be negative")
        else .error (.contract "invalid_fence" "fence must be a positive integer")
      else .error (.contract "invalid_identifier"
        "external_reference is not a bounded lowercase identifier")
    else .error (.contract "invalid_identifier" "holder is not a bounded lowercase identifier")
  else .error (.contract "invalid_identifier" "session_id is not a bounded lowercase identifier")

/-- The lease is held on paper, and its deadline has passed. -/
def overdue (lease : SessionLease L) (now : Int) : Bool :=
  lease.state = .held && lease.expiresAtUs ≤ now

end SessionLease

namespace SessionPlane

/-- What `_record` appends. -/
def record (p : SessionPlane L) (kind : EventKind) (lease : SessionLease L) (atUs : Int)
    (state : Option SessionState) : SessionPlane L :=
  { p with events := p.events ++
      [⟨kind, lease.sessionId, lease.externalReference, lease.holder, lease.fence, atUs, state⟩] }

theorem keyed_insert (p : SessionPlane L) (lease : SessionLease L) (sessionId : String)
    (other : SessionLease L)
    (h : (p.leases.insert lease.sessionId lease).lookup sessionId = some other) :
    other.sessionId = sessionId := by
  by_cases hid : sessionId = lease.sessionId
  · subst hid
    rw [AList.lookup_insert] at h
    cases h
    rfl
  · rw [AList.lookup_insert_ne hid] at h
    exact p.keyed sessionId other h

/-- `self._leases[lease.session_id] = lease`. -/
def store (p : SessionPlane L) (lease : SessionLease L) : SessionPlane L :=
  { p with leases := p.leases.insert lease.sessionId lease, keyed := p.keyed_insert lease }

def write (p : SessionPlane L) (kind : EventKind) (lease : SessionLease L) (atUs : Int) :
    SessionPlane L :=
  (p.store lease).record kind lease atUs none

/-- `_expire`. -/
def expire (p : SessionPlane L) (lease : SessionLease L) (now : Int) : SessionPlane L :=
  p.write .expired { lease with state := .expired } now

/-- `sorted(self._leases)`. -/
def sortedIds (p : SessionPlane L) : List String := p.leases.keys.mergeSort (· ≤ ·)

/-- `_by_external_reference`. -/
def byExternalReference (p : SessionPlane L) (externalReference : String) :
    Option (SessionLease L) :=
  (p.sortedIds.filterMap p.leases.lookup).find? (·.externalReference = externalReference)

/-- One turn of the expiry loop of `reconcile`. -/
def expireOverdue (now : Int) (p : SessionPlane L) (sessionId : String) : SessionPlane L :=
  match p.leases.lookup sessionId with
  | some lease => if lease.overdue now then p.expire lease now else p
  | none => p

end SessionPlane

namespace Session

/-- `_now`. -/
def now (clock : Int) : Session L Int := do
  demand (0 ≤ clock) (.contract "invalid_clock" "clock returned a negative timestamp")
  pure clock

/-- `_require_suspend_resume`. -/
def requireSuspendResume : Session L PUnit := do
  let p ← get
  demand (p.provider.supportsSuspendResume = true)
    (.refused "unsupported_session_feature" "session provider does not support suspend and resume")

/-- The bound `acquire` and `resume` put on a lifetime. -/
def requireTtl (ttlUs : Int) : Session L PUnit :=
  demand (0 < ttlUs ∧ ttlUs ≤ MAX_TTL_US) (.contract "invalid_ttl" "ttl_us is outside its bound")

/-- The session's lease when it is no longer held: an unexpired one refuses, an overdue one is
expired here. -/
def requireFree (current : SessionLease L) (now : Int) (message : String) :
    Session L (SessionLease L) := do
  if current.state = .held then
    demand (current.expiresAtUs ≤ now) (.refused "session_held" message)
    modify (·.expire current now)
    pure { current with state := .expired }
  else
    pure current

def nextFence (current : Option (SessionLease L)) (now : Int) (message : String) :
    Session L Int := do
  match current with
  | none => pure 1
  | some current =>
    let current ← requireFree current now message
    pure (current.fence + 1)

/-- A lease its constructor checked, or what the constructor raises. -/
def checked (lease : Except ExecutionError (SessionLease L)) : Session L (SessionLease L) :=
  match lease with
  | .ok lease => pure lease
  | .error e => throw e

/-- `acquire`. -/
def acquire (sessionId holder : String) (lineage : L) (ttlUs : Int) (externalReference : String)
    (clock : Int) : Session L (SessionLease L) := do
  requireIdentifier "session_id" sessionId
  requireIdentifier "holder" holder
  requireIdentifier "external_reference" externalReference
  requireTtl ttlUs
  let now ← now clock
  let p ← get
  let fence ← nextFence (p.leases.lookup sessionId) now
    s!"session {quoted sessionId} is held by another holder"
  let lease ← checked
    (SessionLease.construct sessionId holder fence (now + ttlUs) lineage externalReference)
  modify (·.write .acquired lease now)
  pure lease

/-- `inspect`. -/
def inspect (sessionId : String) (clock : Int) : Session L (Option (SessionLease L)) := do
  requireIdentifier "session_id" sessionId
  let p ← get
  match p.leases.lookup sessionId with
  | none => pure none
  | some lease =>
    let now ← now clock
    if lease.overdue now then
      modify (·.expire lease now)
      pure (some { lease with state := .expired })
    else
      pure (some lease)

/-- `_active`. -/
def active (lease : SessionLease L) (now : Int) : Session L (SessionLease L) := do
  let p ← get
  match p.leases.lookup lease.sessionId with
  | none => throw (.refused "no_active_lease" s!"session {quoted lease.sessionId} is not held")
  | some current =>
    demand (current.state = .held)
      (.refused "no_active_lease" s!"session {quoted lease.sessionId} is not held")
    demand (lease.fence = current.fence ∧ lease.holder = current.holder)
      (.refused "stale_lease_fence" "lease token was superseded by a later holder")
    if current.expiresAtUs ≤ now then
      modify (·.expire current now)
      throw (.refused "lease_expired" "lease deadline has passed")
    else
      pure current

/-- `snapshot`. -/
def snapshot (lease : SessionLease L) (clock : Int) : Session L SessionSnapshot := do
  requireSuspendResume
  let now ← now clock
  let current ← active lease now
  modify (·.record .snapshotted current now none)
  pure ⟨current.sessionId, current.holder, current.fence, current.externalReference, now⟩

/-- `transfer_control`. -/
def transferControl (lease : SessionLease L) (newHolder : String) (clock : Int) :
    Session L (SessionLease L) := do
  let p ← get
  demand (p.provider.supportsControlTransfer = true)
    (.refused "unsupported_session_feature" "session provider does not support control transfer")
  requireIdentifier "holder" newHolder
  let now ← now clock
  let current ← active lease now
  let transferred ← checked (SessionLease.construct current.sessionId newHolder (current.fence + 1)
    current.expiresAtUs current.lineage current.externalReference)
  modify (·.write .transferred transferred now)
  pure transferred

/-- `resume`. -/
def resume (snapshot : SessionSnapshot) (holder : String) (lineage : L) (ttlUs clock : Int) :
    Session L (SessionLease L) := do
  requireSuspendResume
  requireIdentifier "holder" holder
  requireTtl ttlUs
  let now ← now clock
  let p ← get
  match p.leases.lookup snapshot.sessionId with
  | none =>
    throw (.refused "unknown_session" s!"session {quoted snapshot.sessionId} is not known here")
  | some current =>
    let current ← requireFree current now s!"session {quoted snapshot.sessionId} is still held"
    demand (snapshot.fence = current.fence)
      (.refused "stale_snapshot" "snapshot was taken against a superseded fence")
    let resumed ← checked (SessionLease.construct snapshot.sessionId holder (current.fence + 1)
      (now + ttlUs) lineage snapshot.externalReference)
    modify (·.write .resumed resumed now)
    pure resumed

/-- `release`. -/
def release (lease : SessionLease L) (clock : Int) : Session L (SessionLease L) := do
  let now ← now clock
  let current ← active lease now
  let released := { current with state := .released }
  modify (·.write .released released now)
  pure released

/-- What `reconcile` says of a reference, from whether it is known, held and live. -/
def reconciled (known : Option (SessionLease L)) (isLive : Bool) : SessionState :=
  match known with
  | none => if isLive then .orphaned else .unknown
  | some lease => if isLive then (if lease.state = .held then .active else .orphaned) else .released

/-- `reconcile`. -/
def reconcile (externalReference : String) (live : List String) (clock : Int) :
    Session L ReconcileResult := do
  requireIdentifier "external_reference" externalReference
  requireCollection "live_external_references" live
  let now ← now clock
  let p ← get
  let swept := p.sortedIds.foldl (SessionPlane.expireOverdue now) p
  let known := swept.byExternalReference externalReference
  let state := reconciled known (live.contains externalReference)
  let told : SessionPlane L := match known with
    | none =>
      { swept with events := swept.events ++
          [⟨.reconciled, "", externalReference, "", 0, now, some state⟩] }
    | some lease => swept.record .reconciled lease now (some state)
  set told
  pure {
    externalReference, state
    sessionId := (known.map (·.sessionId)).getD ""
    fence := (known.map (·.fence)).getD 0
    evidence := told.events.drop p.events.length : ReconcileResult }

end Session

/-- The calls of the plane. -/
inductive SessionCall (L : Type) where
  | acquire (sessionId holder : String) (lineage : L) (ttlUs : Int) (externalReference : String)
  | inspect (sessionId : String)
  | snapshot (lease : SessionLease L)
  | transferControl (lease : SessionLease L) (newHolder : String)
  | resume (snapshot : SessionSnapshot) (holder : String) (lineage : L) (ttlUs : Int)
  | release (lease : SessionLease L)
  | reconcile (externalReference : String) (live : List String)

/-- What a call returns. -/
inductive SessionAnswer (L : Type) where
  | lease (lease : SessionLease L)
  | inspected (lease : Option (SessionLease L))
  | snapshot (snapshot : SessionSnapshot)
  | reconciled (result : ReconcileResult)

def SessionCall.perform (clock : Int) : SessionCall L → Session L (SessionAnswer L)
  | .acquire sessionId holder lineage ttlUs externalReference =>
    .lease <$> Session.acquire sessionId holder lineage ttlUs externalReference clock
  | .inspect sessionId => .inspected <$> Session.inspect sessionId clock
  | .snapshot lease => .snapshot <$> Session.snapshot lease clock
  | .transferControl lease newHolder => .lease <$> Session.transferControl lease newHolder clock
  | .resume taken holder lineage ttlUs =>
    .lease <$> Session.resume taken holder lineage ttlUs clock
  | .release lease => .lease <$> Session.release lease clock
  | .reconcile externalReference live =>
    .reconciled <$> Session.reconcile externalReference live clock

namespace SessionPlane

/-- The plane after a call made at a clock reading. -/
def step (p : SessionPlane L) (label : Int × SessionCall L) : SessionPlane L :=
  finalState (label.2.perform label.1 p)

end SessionPlane

end OmniviaCore.Execution
