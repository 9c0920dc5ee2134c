import OmniviaCore.Ownership.Lease

/-!
# Whether the recorded owner may be superseded

`evaluate_takeover` of `ownership/lease.py`, over one observation: a reading of the monotonic clock,
the boot it belongs to, the storage lock, and what the process table says of a pid. The clock counts
from the boot, so a difference to a heartbeat of another boot is no age. `HeartbeatExpired` is what
expiry means over boots; `LeaseRecord.isExpired` is what the code computes. The float difference of
two readings is the exact one rounded, and `round` is any rounding.
-/

namespace OmniviaCore.Ownership

/-- `DEFAULT_LEASE_TTL_SECONDS`. -/
def defaultLeaseTtlSeconds : Rat := 30

/-- `ProcessEvidence.is_same_process`. -/
def ProcessEvidence.isSameProcess (recorded other : ProcessEvidence) : Bool :=
  recorded.pid == other.pid && recorded.startTime == other.startTime &&
    recorded.bootId == other.bootId

namespace LeaseRecord

/-- `LeaseRecord.process`. -/
def process (lease : LeaseRecord) : Option ProcessEvidence :=
  match lease.processPid, lease.processStart with
  | some pid, some startTime =>
    some ⟨pid, startTime, lease.bootId.getD "", lease.osPrincipal.getD ""⟩
  | _, _ => none

/-- `LeaseRecord.is_expired`, at the reading `now`. -/
def isExpired (round : Rat → Rat) (lease : LeaseRecord) (now ttl : Rat) : Bool :=
  match lease.heartbeatMonotonic with
  | none => true
  | some heartbeat => ttl < round (now - heartbeat)

end LeaseRecord

/-- `TakeoverRefusal`. -/
inductive TakeoverRefusal where
  | leaseIsFresh
  | ownerStillAlive
  | storageLockUnavailable
  | noLeaseToTake
  deriving DecidableEq

/-- `TakeoverDecision`. -/
structure TakeoverDecision where
  permitted : Bool
  refusal : Option TakeoverRefusal
  reason : String
  heartbeatExpired : Bool
  storageLockAvailable : Bool
  ownerProcessGone : Bool

/-- What is observed when a takeover is considered. `forPid` is the process evidence source's;
`evaluate_takeover` reads every field but `bootId`, the boot the clock reading belongs to. -/
structure Observation where
  now : Rat
  bootId : String
  forPid : Int → Option ProcessEvidence
  storageLockAvailable : Bool

/-- `recorded is None or current is None or not recorded.is_same_process(current)`. -/
def ownerProcessGone (lease : LeaseRecord) (forPid : Int → Option ProcessEvidence) : Bool :=
  match lease.process with
  | none => true
  | some recorded =>
    match forPid recorded.pid with
    | none => true
    | some current => !recorded.isSameProcess current

/-- `evaluate_takeover`. -/
def evaluateTakeover (round : Rat → Rat) (lease : Option LeaseRecord) (seen : Observation)
    (ttl : Rat) : TakeoverDecision :=
  match lease with
  | none => noLiveLease
  | some lease =>
    if lease.lifecycle = .released then noLiveLease
    else
      let heartbeatExpired := lease.isExpired round seen.now ttl
      let gone := ownerProcessGone lease seen.forPid
      if !heartbeatExpired then
        { permitted := false
          refusal := some .leaseIsFresh
          reason := "the lease heartbeat is current; the owner is alive"
          heartbeatExpired := false
          storageLockAvailable := seen.storageLockAvailable
          ownerProcessGone := gone }
      else if !seen.storageLockAvailable then
        { permitted := false
          refusal := some .storageLockUnavailable
          reason := "the heartbeat expired but the owner still holds the storage lock; " ++
            "expiry alone does not prove the writer is dead"
          heartbeatExpired := true
          storageLockAvailable := false
          ownerProcessGone := gone }
      else if !gone then
        { permitted := false
          refusal := some .ownerStillAlive
          reason := "the recorded owner process is still the same live process"
          heartbeatExpired := true
          storageLockAvailable := true
          ownerProcessGone := false }
      else
        { permitted := true
          refusal := none
          reason := "heartbeat expired, storage lock available, and the recorded owner " ++
            "process is gone or replaced"
          heartbeatExpired := true
          storageLockAvailable := true
          ownerProcessGone := true }
where
  noLiveLease : TakeoverDecision :=
    { permitted := true
      refusal := none
      reason := "no live lease exists"
      heartbeatExpired := true
      storageLockAvailable := seen.storageLockAvailable
      ownerProcessGone := true }

/-! ## What the decision is for -/

def LeaseRecord.Live (lease : LeaseRecord) : Prop := lease.lifecycle ≠ .released

def LeaseRecord.RecordedElsewhere (lease : LeaseRecord) (seen : Observation) : Prop :=
  ∃ boot, lease.bootId = some boot ∧ boot ≠ seen.bootId

/-- No heartbeat was recorded, or the last one is of another boot, or it is older than `ttl`. -/
def HeartbeatExpired (round : Rat → Rat) (lease : LeaseRecord) (seen : Observation) (ttl : Rat) :
    Prop :=
  ∀ heartbeat, lease.heartbeatMonotonic = some heartbeat →
    lease.RecordedElsewhere seen ∨ ttl < round (seen.now - heartbeat)

def SameLiveProcess (lease : LeaseRecord) (seen : Observation) : Prop :=
  ∃ pid startTime current, lease.processPid = some pid ∧ lease.processStart = some startTime ∧
    seen.forPid pid = some current ∧ pid = current.pid ∧ startTime = current.startTime ∧
    lease.bootId.getD "" = current.bootId

/-- The decision is right: it permits exactly when no lease is live, or its heartbeat has expired,
the lock is available and the owner is gone; and never while the owner is the same live process. -/
structure RightDecision (round : Rat → Rat) (lease : Option LeaseRecord) (seen : Observation)
    (ttl : Rat) : Prop where
  permitted_iff : (evaluateTakeover round lease seen ttl).permitted = true ↔
    ∀ l, lease = some l → l.Live →
      HeartbeatExpired round l seen ttl ∧ seen.storageLockAvailable = true ∧
        ¬ SameLiveProcess l seen
  owner_alive : ∀ l, lease = some l → l.Live → SameLiveProcess l seen →
    (evaluateTakeover round lease seen ttl).permitted = false

theorem ownerProcessGone_eq_true {lease : LeaseRecord} {seen : Observation} :
    ownerProcessGone lease seen.forPid = true ↔ ¬ SameLiveProcess lease seen := by
  unfold ownerProcessGone LeaseRecord.process SameLiveProcess
  cases lease.processPid with
  | none => simp
  | some pid =>
    cases lease.processStart with
    | none => simp
    | some startTime =>
      cases hcurrent : seen.forPid pid with
      | none =>
        simp only [hcurrent, true_iff]
        rintro ⟨_, _, current, ⟨⟩, ⟨⟩, hsome, -⟩
        rw [hcurrent] at hsome
        cases hsome
      | some current =>
        simp only [hcurrent, ProcessEvidence.isSameProcess, Bool.not_eq_true', Option.some.injEq,
          exists_and_left, exists_eq_left']
        rw [← Bool.not_eq_true, Bool.and_eq_true, Bool.and_eq_true, beq_iff_eq, beq_iff_eq,
          beq_iff_eq, and_assoc]

theorem isExpired_eq_true {round : Rat → Rat} {lease : LeaseRecord} {now ttl : Rat} :
    lease.isExpired round now ttl = true ↔
      ∀ heartbeat, lease.heartbeatMonotonic = some heartbeat → ttl < round (now - heartbeat) := by
  unfold LeaseRecord.isExpired
  cases lease.heartbeatMonotonic with
  | none => simp
  | some heartbeat => simp

theorem permitted_some (round : Rat → Rat) (l : LeaseRecord) (seen : Observation) (ttl : Rat) :
    (evaluateTakeover round (some l) seen ttl).permitted =
      (l.lifecycle == .released ||
        (l.isExpired round seen.now ttl && seen.storageLockAvailable &&
          ownerProcessGone l seen.forPid)) := by
  unfold evaluateTakeover
  dsimp only
  by_cases hreleased : l.lifecycle = .released
  · rw [if_pos hreleased, hreleased]
    rfl
  · rw [if_neg hreleased, beq_eq_false_iff_ne.mpr hreleased]
    cases l.isExpired round seen.now ttl with
    | false => rfl
    | true =>
      cases seen.storageLockAvailable with
      | false => rfl
      | true => cases ownerProcessGone l seen.forPid <;> rfl

theorem evaluateTakeover_permitted {round : Rat → Rat} {lease : Option LeaseRecord}
    {seen : Observation} {ttl : Rat} :
    (evaluateTakeover round lease seen ttl).permitted = true ↔
      ∀ l, lease = some l → l.Live →
        (∀ heartbeat, l.heartbeatMonotonic = some heartbeat → ttl < round (seen.now - heartbeat)) ∧
          seen.storageLockAvailable = true ∧ ¬ SameLiveProcess l seen := by
  cases lease with
  | none => simp [evaluateTakeover, evaluateTakeover.noLiveLease]
  | some l =>
    have hlive : (∀ l', some l = some l' → l'.Live →
        (∀ heartbeat, l'.heartbeatMonotonic = some heartbeat → ttl < round (seen.now - heartbeat)) ∧
          seen.storageLockAvailable = true ∧ ¬ SameLiveProcess l' seen) ↔
        (l.Live → l.isExpired round seen.now ttl = true ∧ seen.storageLockAvailable = true ∧
          ownerProcessGone l seen.forPid = true) := by
      simp only [Option.some.injEq, forall_eq', isExpired_eq_true, ownerProcessGone_eq_true]
    rw [hlive, permitted_some]
    unfold LeaseRecord.Live
    by_cases hreleased : l.lifecycle = .released
    · simp [hreleased]
    · simp [hreleased, and_assoc]

/-- A lease of another boot, with its lock free and its owner gone, whose heartbeat the present
clock has not outrun by `ttl`. -/
def Stranded (round : Rat → Rat) (l : LeaseRecord) (seen : Observation) (ttl : Rat) : Prop :=
  l.Live ∧ l.RecordedElsewhere seen ∧ seen.storageLockAvailable = true ∧
    ¬ SameLiveProcess l seen ∧
    ∃ heartbeat, l.heartbeatMonotonic = some heartbeat ∧ round (seen.now - heartbeat) ≤ ttl

/-- The decision is right for every lease and observation, except for a lease that a reboot left
stranded. -/
theorem rightDecision_iff_not_stranded (round : Rat → Rat) (lease : Option LeaseRecord)
    (seen : Observation) (ttl : Rat) :
    RightDecision round lease seen ttl ↔ ¬ ∃ l, lease = some l ∧ Stranded round l seen ttl := by
  constructor
  · intro h hstranded
    obtain ⟨l, hl, hlive, helsewhere, hlock, hgone, heartbeat, hheartbeat, hage⟩ := hstranded
    have hpermitted : (evaluateTakeover round lease seen ttl).permitted = true := by
      rw [h.permitted_iff]
      intro l' hl' _
      obtain rfl : l = l' := Option.some.inj (hl.symm.trans hl')
      exact ⟨fun _ _ => .inl helsewhere, hlock, hgone⟩
    rw [evaluateTakeover_permitted] at hpermitted
    have hexpired := (hpermitted l hl hlive).1 heartbeat hheartbeat
    exact absurd hexpired (not_lt.mpr hage)
  · intro h
    constructor
    · rw [evaluateTakeover_permitted]
      constructor
      · intro hcode l hl hlive
        obtain ⟨hexpired, hrest⟩ := hcode l hl hlive
        exact ⟨fun heartbeat hheartbeat => .inr (hexpired heartbeat hheartbeat), hrest⟩
      · intro hright l hl hlive
        obtain ⟨hexpired, hlock, hgone⟩ := hright l hl hlive
        refine ⟨?_, hlock, hgone⟩
        intro heartbeat hheartbeat
        cases hexpired heartbeat hheartbeat with
        | inr hold => exact hold
        | inl helsewhere =>
          by_contra hage
          exact h ⟨l, hl, hlive, helsewhere, hlock, hgone, heartbeat, hheartbeat, not_lt.mp hage⟩
    · intro l hl hlive hsame
      rw [← Bool.not_eq_true, evaluateTakeover_permitted]
      intro hcode
      exact (hcode l hl hlive).2.2 hsame

/-- A lease held under one boot, and the next boot ten seconds old: the process is gone and the lock
is free, but the old heartbeat lies ahead of the clock. -/
def heldBeforeReboot : LeaseRecord where
  workspaceId := "ws"
  serviceInstanceId := "service-1"
  installationId := "installation-1"
  fencingGeneration := 1
  osPrincipal := some "me"
  processPid := some 4242
  processStart := some "100"
  bootId := some "boot-a"
  endpoint := none
  lockMechanism := some "flock"
  heartbeatMonotonic := some 86400
  heartbeatAt := some "2026-07-30T00:00:00+00:00"
  acquiredAt := "2026-07-29T00:00:00+00:00"
  lifecycle := .held
  takeoverPredecessor := none
  shutdownState := none

def afterReboot : Observation := ⟨10, "boot-b", fun _ => none, true⟩

/-- The stranded lease is refused as fresh. -/
theorem takeover_refused_after_reboot :
    ¬ RightDecision id (some heldBeforeReboot) afterReboot defaultLeaseTtlSeconds := by
  intro h
  have hpermitted : (evaluateTakeover id (some heldBeforeReboot) afterReboot
      defaultLeaseTtlSeconds).permitted = true := by
    rw [h.permitted_iff]
    intro l hl _
    obtain rfl := Option.some.inj hl
    refine ⟨fun _ _ => .inl ⟨"boot-a", rfl, by decide⟩, rfl, ?_⟩
    intro ⟨_, _, _, _, _, hcurrent, _⟩
    cases hcurrent
  have hrefused : (evaluateTakeover id (some heldBeforeReboot) afterReboot
      defaultLeaseTtlSeconds).permitted = false := by
    decide +kernel
  rw [hrefused] at hpermitted
  cases hpermitted

end OmniviaCore.Ownership
