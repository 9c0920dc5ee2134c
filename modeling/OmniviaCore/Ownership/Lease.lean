import Mathlib

/-!
# The workspace service lease

The ownership substrate of one workspace database: the workspace-state row with the fencing generation, the
lease row, the mutation-guard row, and the rows of every guarded table (`rows`, an arbitrary type).
`Database` adds the working copy a `BEGIN IMMEDIATE` opens over the durable rows; `COMMIT` makes it durable
and `ROLLBACK` drops it.

`acquireLease`, `heartbeat` and `releaseLease` are the transactions of `ownership/lease.py`; what they observe
is an argument.
-/

namespace OmniviaCore.Ownership

universe u

/-- `LeaseLifecycle`. -/
inductive LeaseLifecycle where
  | acquiring
  | held
  | draining
  | released
  deriving DecidableEq

/-- `ProcessEvidence`. -/
structure ProcessEvidence where
  pid : Int
  startTime : String
  bootId : String
  osPrincipal : String

/-- `ServiceInstanceIdentity`: one service start. -/
structure ServiceInstanceIdentity where
  serviceInstanceId : String
  installationId : String
  process : ProcessEvidence

/-- One reading of a `Clock`: monotonic seconds, and the wall time as it is stored. -/
structure ClockReading where
  monotonic : Rat
  wallTime : String

/-- The row of `omnivia_workspace_state`. -/
structure WorkspaceState where
  workspaceId : String
  fencingGeneration : Nat
  workspaceFormatVersion : String
  baselineState : String
  createdAt : String
  updatedAt : String

/-- `LeaseRecord`, the row of `omnivia_workspace_lease`. -/
structure LeaseRecord where
  workspaceId : String
  serviceInstanceId : String
  installationId : String
  fencingGeneration : Nat
  osPrincipal : Option String
  processPid : Option Int
  processStart : Option String
  bootId : Option String
  endpoint : Option String
  lockMechanism : Option String
  heartbeatMonotonic : Option Rat
  heartbeatAt : Option String
  acquiredAt : String
  lifecycle : LeaseLifecycle
  takeoverPredecessor : Option String
  shutdownState : Option String

/-- The row of `omnivia_mutation_guard`. -/
structure MutationGuardRow where
  workspaceId : String
  serviceInstanceId : String
  fencingGeneration : Nat
  openedAt : String
  deriving DecidableEq

/-- The rows of one workspace database. `substrate` and `guardTable` record whether the tables of
the substrate and of the guard exist. -/
structure Db (ρ : Type u) where
  substrate : Bool
  guardTable : Bool
  workspaceState : Option WorkspaceState
  workspaceLease : Option LeaseRecord
  mutationGuard : Option MutationGuardRow
  rows : ρ

/-- The failures of `ownership/lease.py` and `ownership/fencing.py`, with what each names. -/
inductive OwnershipError where
  /-- `refusing to commit a fencing generation without the lifetime storage lock` -/
  | noStorageLock
  /-- `cannot acquire a lease before the ownership substrate exists` -/
  | noSubstrate
  | workspaceMismatch (held claimed : String)
  | noLease
  | leaseHeld (holder caller : String)
  | monotonicWentBackwards
  | noWorkspaceState
  | staleAuthority (held : String × Nat) (claimed : String × Nat)
  | leaseGeneration (recorded claimed : Nat)
  | guardTableAbsent
  /-- `authority is not current {when}: …` -/
  | authorityNotCurrent (moment : String) (cause : OwnershipError)
  /-- `no mutation guard is open ({when})` -/
  | noOpenGuard (moment : String)
  /-- `mutation guard does not match this instance ({when}): …` -/
  | guardMismatch (moment : String) (held : MutationGuardRow)
  | bodyRaised (error : String)
  /-- `cannot start a transaction within a transaction` -/
  | transactionOpen
  /-- `cannot commit - no transaction is active` -/
  | noTransaction
  deriving DecidableEq

variable {ρ : Type u}

namespace Db

/-- `read_lease`. -/
def readLease (db : Db ρ) : Option LeaseRecord :=
  if db.substrate then db.workspaceLease else none

/-- The recorded fencing generation; `0` before the workspace-state row exists. -/
def recordedGeneration (db : Db ρ) : Nat :=
  (db.workspaceState.map (·.fencingGeneration)).getD 0

end Db

/-- A database connection: the durable rows, and the working copy of an open transaction. -/
structure Database (ρ : Type u) where
  durable : Db ρ
  transaction : Option (Db ρ)

namespace Database

def idle (db : Db ρ) : Database ρ := ⟨db, none⟩

def current (d : Database ρ) : Db ρ := d.transaction.getD d.durable

/-- `BEGIN IMMEDIATE`. -/
def beginImmediate (d : Database ρ) : Except OwnershipError (Database ρ) :=
  match d.transaction with
  | none => .ok { d with transaction := some d.durable }
  | some _ => .error .transactionOpen

def write (d : Database ρ) (db : Db ρ) : Database ρ := { d with transaction := some db }

/-- `COMMIT`. -/
def commit (d : Database ρ) : Except OwnershipError (Database ρ) :=
  match d.transaction with
  | some db => .ok ⟨db, none⟩
  | none => .error .noTransaction

/-- `ROLLBACK`. -/
def rollback (d : Database ρ) : Database ρ := { d with transaction := none }

@[simp] theorem durable_idle (db : Db ρ) : (idle db).durable = db := rfl

@[simp] theorem current_idle (db : Db ρ) : (idle db).current = db := rfl

@[simp] theorem durable_write (d : Database ρ) (db : Db ρ) : (d.write db).durable = d.durable := rfl

@[simp] theorem current_opened (db working : Db ρ) :
    (⟨db, some working⟩ : Database ρ).current = working := rfl

@[simp] theorem current_write (d : Database ρ) (db : Db ρ) : (d.write db).current = db := rfl

@[simp] theorem rollback_eq_idle (d : Database ρ) : d.rollback = idle d.durable := rfl

@[simp] theorem beginImmediate_idle (db : Db ρ) :
    (idle db).beginImmediate = .ok ⟨db, some db⟩ := rfl

@[simp] theorem commit_write (d : Database ρ) (db : Db ρ) :
    (d.write db).commit = .ok (idle db) := rfl

end Database

/-- `immediate_transaction`: begin, run the block on the working copy, then commit, or roll back
and re-raise. -/
def immediateTransaction (d : Database ρ) (block : Db ρ → Except OwnershipError (Db ρ)) :
    Database ρ × Except OwnershipError Unit :=
  match d.beginImmediate with
  | .error e => (d, .error e)
  | .ok opened =>
    match block opened.current with
    | .error e => (opened.rollback, .error e)
    | .ok db =>
      match (opened.write db).commit with
      | .error e => (opened.rollback, .error e)
      | .ok committed => (committed, .ok ())

/-- The block of `acquire_lease`: read the generation, increment it, replace the lease row. -/
def acquireBlock (identity : ServiceInstanceIdentity) (clock : ClockReading)
    (workspaceId lockMechanism : String) (endpoint predecessor : Option String) (db : Db ρ) :
    Except OwnershipError (Db ρ) :=
  match db.workspaceState with
  | none => .error .noSubstrate
  | some state =>
    if state.workspaceId ≠ workspaceId then
      .error (.workspaceMismatch state.workspaceId workspaceId)
    else
      let generation := state.fencingGeneration + 1
      let process := identity.process
      .ok { db with
        workspaceState :=
          some { state with fencingGeneration := generation, updatedAt := clock.wallTime }
        workspaceLease := some {
          workspaceId
          serviceInstanceId := identity.serviceInstanceId
          installationId := identity.installationId
          fencingGeneration := generation
          osPrincipal := some process.osPrincipal
          processPid := some process.pid
          processStart := some process.startTime
          bootId := some process.bootId
          endpoint
          lockMechanism := some lockMechanism
          heartbeatMonotonic := some clock.monotonic
          heartbeatAt := some clock.wallTime
          acquiredAt := clock.wallTime
          lifecycle := .held
          takeoverPredecessor := predecessor
          shutdownState := none } }

/-- `acquire_lease`. -/
def acquireLease (d : Database ρ) (identity : ServiceInstanceIdentity) (clock : ClockReading)
    (workspaceId : String) (holdsStorageLock : Bool) (lockMechanism : String)
    (endpoint predecessor : Option String) : Database ρ × Except OwnershipError Unit :=
  if !holdsStorageLock then (d, .error .noStorageLock)
  else if !d.current.substrate then (d, .error .noSubstrate)
  else
    immediateTransaction d
      (acquireBlock identity clock workspaceId lockMechanism endpoint predecessor)

/-- The block of `heartbeat`: only the recorded holder renews, and never backwards in time. -/
def heartbeatBlock (identity : ServiceInstanceIdentity) (clock : ClockReading) (db : Db ρ) :
    Except OwnershipError (Db ρ) :=
  match db.readLease with
  | none => .error .noLease
  | some lease =>
    if lease.serviceInstanceId ≠ identity.serviceInstanceId then
      .error (.leaseHeld lease.serviceInstanceId identity.serviceInstanceId)
    else if lease.heartbeatMonotonic.any (clock.monotonic < ·) then
      .error .monotonicWentBackwards
    else
      .ok { db with workspaceLease := db.workspaceLease.map fun row =>
        { row with heartbeatMonotonic := some clock.monotonic
                   heartbeatAt := some clock.wallTime } }

/-- `heartbeat`. -/
def heartbeat (d : Database ρ) (identity : ServiceInstanceIdentity) (clock : ClockReading) :
    Database ρ × Except OwnershipError Unit :=
  immediateTransaction d (heartbeatBlock identity clock)

/-- The block of `release_lease`: the row stays, marked released; the generation does not move. -/
def releaseBlock (identity : ServiceInstanceIdentity) (clock : ClockReading)
    (shutdownState : String) (db : Db ρ) : Except OwnershipError (Db ρ) :=
  match db.readLease with
  | none => .error .noLease
  | some lease =>
    if lease.serviceInstanceId ≠ identity.serviceInstanceId then
      .error (.leaseHeld lease.serviceInstanceId identity.serviceInstanceId)
    else
      .ok { db with workspaceLease := db.workspaceLease.map fun row =>
        { row with lifecycle := .released, shutdownState := some shutdownState
                   heartbeatAt := some clock.wallTime } }

/-- `release_lease`. -/
def releaseLease (d : Database ρ) (identity : ServiceInstanceIdentity) (clock : ClockReading)
    (shutdownState : String) : Database ρ × Except OwnershipError Unit :=
  immediateTransaction d (releaseBlock identity clock shutdownState)

/-- `assert_current_authority`: the whole tuple, against the state row and against the lease. -/
def assertCurrentAuthority (db : Db ρ) (identity : ServiceInstanceIdentity) (workspaceId : String)
    (fencingGeneration : Nat) : Except OwnershipError Unit :=
  match db.workspaceState with
  | none => .error .noWorkspaceState
  | some state =>
    if state.workspaceId ≠ workspaceId ∨ state.fencingGeneration ≠ fencingGeneration then
      .error (.staleAuthority (state.workspaceId, state.fencingGeneration)
        (workspaceId, fencingGeneration))
    else
      match db.readLease with
      | none => .error .noLease
      | some lease =>
        if lease.serviceInstanceId ≠ identity.serviceInstanceId then
          .error (.leaseHeld lease.serviceInstanceId identity.serviceInstanceId)
        else if lease.fencingGeneration ≠ fencingGeneration then
          .error (.leaseGeneration lease.fencingGeneration fencingGeneration)
        else .ok ()

/-- The instance and the generation are the recorded holder: the state row carries the generation
and the lease row names both. -/
def RecordedHolder (db : Db ρ) (serviceInstanceId : String) (generation : Nat) : Prop :=
  db.recordedGeneration = generation ∧
    ∃ lease, db.readLease = some lease ∧ lease.serviceInstanceId = serviceInstanceId ∧
      lease.fencingGeneration = generation

/-! ## What each transaction can do -/

theorem immediateTransaction_idle (db : Db ρ) (block : Db ρ → Except OwnershipError (Db ρ)) :
    immediateTransaction (.idle db) block =
      match block db with
      | .ok db' => (.idle db', .ok ())
      | .error e => (.idle db, .error e) := by
  simp only [immediateTransaction, Database.beginImmediate_idle, Database.current_opened,
    Database.commit_write]
  cases block db <;> rfl

theorem acquireBlock_ok {identity : ServiceInstanceIdentity} {clock : ClockReading}
    {workspaceId lockMechanism : String} {endpoint predecessor : Option String} {db db' : Db ρ}
    (h : acquireBlock identity clock workspaceId lockMechanism endpoint predecessor db = .ok db') :
    db'.recordedGeneration = db.recordedGeneration + 1 ∧ db'.rows = db.rows := by
  unfold acquireBlock at h
  split at h
  · cases h
  · next state hstate =>
    split at h
    · cases h
    · cases h
      simp [Db.recordedGeneration, hstate]

theorem heartbeatBlock_ok {identity : ServiceInstanceIdentity} {clock : ClockReading}
    {db db' : Db ρ} (h : heartbeatBlock identity clock db = .ok db') :
    db'.recordedGeneration = db.recordedGeneration ∧ db'.rows = db.rows := by
  unfold heartbeatBlock at h
  split at h
  · cases h
  · split at h
    · cases h
    · split at h
      · cases h
      · cases h
        exact ⟨rfl, rfl⟩

theorem releaseBlock_ok {identity : ServiceInstanceIdentity} {clock : ClockReading}
    {shutdownState : String} {db db' : Db ρ}
    (h : releaseBlock identity clock shutdownState db = .ok db') :
    db'.recordedGeneration = db.recordedGeneration ∧ db'.rows = db.rows := by
  unfold releaseBlock at h
  split at h
  · cases h
  · split at h
    · cases h
    · cases h
      exact ⟨rfl, rfl⟩

theorem assertCurrentAuthority_ok {db : Db ρ} {identity : ServiceInstanceIdentity}
    {workspaceId : String} {generation : Nat}
    (h : assertCurrentAuthority db identity workspaceId generation = .ok ()) :
    RecordedHolder db identity.serviceInstanceId generation := by
  unfold assertCurrentAuthority at h
  split at h
  · cases h
  · next state hstate =>
    split at h
    · cases h
    · next hcurrent =>
      push Not at hcurrent
      split at h
      · cases h
      · next lease hlease =>
        split at h
        · cases h
        · next hinstance =>
          split at h
          · cases h
          · next hgeneration =>
            refine ⟨by simp [Db.recordedGeneration, hstate, hcurrent.2], lease, hlease, ?_, ?_⟩
            · exact not_not.1 hinstance
            · exact not_not.1 hgeneration

end OmniviaCore.Ownership
