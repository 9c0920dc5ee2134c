import OmniviaCore.Ownership.Lease

/-!
# Fenced write transactions

The mutation token is the workspace, the fencing generation and the service instance. `fencedTransaction`
validates it against the lease and the guard on entry and again before `COMMIT`, with the caller's
statements in between. The body is any function of the rows it finds, those of the substrate included.

`guardAdmits` is the condition of the persisted triggers on a guarded table, and `guardedWrite` a statement
on one. Nine chat tables have triggers that do not look at the lease (`writerTables`).
-/

namespace OmniviaCore.Ownership

universe u

variable {ρ : Type u}

namespace Db

/-- `read_guard`. -/
def readGuard (db : Db ρ) : Option MutationGuardRow :=
  if db.guardTable then db.mutationGuard else none

end Db

/-- `LeaseLifecycle`s under which the triggers admit a guarded write. -/
def LeaseLifecycle.live : LeaseLifecycle → Bool
  | .acquiring | .held | .draining => true
  | .released => false

/-- The condition of the `omnivia_guard_*` triggers but those of `writerTables`, on a service's connection:
guard, state and lease agree, and the lease has not been released. -/
def guardAdmits (db : Db ρ) : Bool :=
  match db.mutationGuard, db.workspaceState, db.workspaceLease with
  | some guardRow, some state, some lease =>
    guardRow.fencingGeneration == state.fencingGeneration
      && guardRow.workspaceId == state.workspaceId
      && lease.fencingGeneration == guardRow.fencingGeneration
      && lease.workspaceId == guardRow.workspaceId
      && lease.serviceInstanceId == guardRow.serviceInstanceId
      && lease.lifecycle.live
  | _, _, _ => false

/-- A statement on guarded tables outside `writerTables`: aborted by the triggers, or applied to their rows. -/
def guardedWrite (statement : ρ → Except String ρ) (db : Db ρ) : Db ρ × Option String :=
  if guardAdmits db then
    match statement db.rows with
    | .ok rows => ({ db with rows }, none)
    | .error e => (db, some e)
  else (db, some "omnivia: unguarded write")

/-- The guarded tables of migrations 0032 and 0033: their triggers ask for `omnivia_service_writer()` alone,
which holds on a service's connection. -/
def writerTables : List String :=
  ["omnivia_chat_turns", "omnivia_chat_turn_steps", "omnivia_chat_tool_calls", "omnivia_chat_tool_results",
    "omnivia_chat_model_input_projections", "omnivia_chat_compaction_events",
    "omnivia_chat_wait_interactions", "omnivia_chat_agent_runs", "omnivia_chat_agent_run_mailbox"]

def tableWrite (table : String) (statement : ρ → Except String ρ) (db : Db ρ) : Db ρ × Option String :=
  if table ∈ writerTables then
    match statement db.rows with
    | .ok rows => ({ db with rows }, none)
    | .error e => (db, some e)
  else guardedWrite statement db

/-- The block of `open_guard`. -/
def openGuardBlock (identity : ServiceInstanceIdentity) (clock : ClockReading)
    (workspaceId : String) (fencingGeneration : Nat) (db : Db ρ) : Except OwnershipError (Db ρ) :=
  match assertCurrentAuthority db identity workspaceId fencingGeneration with
  | .error e => .error e
  | .ok () =>
    .ok { db with mutationGuard := some {
      workspaceId
      serviceInstanceId := identity.serviceInstanceId
      fencingGeneration
      openedAt := clock.wallTime } }

/-- `open_guard`. -/
def openGuard (d : Database ρ) (identity : ServiceInstanceIdentity) (clock : ClockReading)
    (workspaceId : String) (fencingGeneration : Nat) : Database ρ × Except OwnershipError Unit :=
  if !d.current.guardTable then (d, .error .guardTableAbsent)
  else immediateTransaction d (openGuardBlock identity clock workspaceId fencingGeneration)

/-- `close_guard`: always permitted, it removes authority and never grants it. -/
def closeGuard (d : Database ρ) : Database ρ × Except OwnershipError Unit :=
  if !d.current.guardTable then (d, .ok ())
  else immediateTransaction d fun db => .ok { db with mutationGuard := none }

/-- `_validate`: the lease first, then the guard row. -/
def validate (db : Db ρ) (identity : ServiceInstanceIdentity) (workspaceId : String)
    (fencingGeneration : Nat) (moment : String) : Except OwnershipError Unit :=
  match assertCurrentAuthority db identity workspaceId fencingGeneration with
  | .error cause => .error (.authorityNotCurrent moment cause)
  | .ok () =>
    match db.readGuard with
    | none => .error (.noOpenGuard moment)
    | some held =>
      if held.workspaceId ≠ workspaceId ∨ held.fencingGeneration ≠ fencingGeneration ∨
          held.serviceInstanceId ≠ identity.serviceInstanceId then
        .error (.guardMismatch moment held)
      else .ok ()

abbrev Body (ρ : Type u) := Db ρ → Db ρ × Option String

/-- `fenced_transaction`. -/
def fencedTransaction (d : Database ρ) (identity : ServiceInstanceIdentity) (workspaceId : String)
    (fencingGeneration : Nat) (body : Body ρ) : Database ρ × Except OwnershipError Unit :=
  match d.beginImmediate with
  | .error e => (d, .error e)
  | .ok opened =>
    match validate opened.current identity workspaceId fencingGeneration "on entry" with
    | .error e => (opened.rollback, .error e)
    | .ok () =>
      let (db, raised) := body opened.current
      let written := opened.write db
      match raised with
      | some e => (written.rollback, .error (.bodyRaised e))
      | none =>
        match validate written.current identity workspaceId fencingGeneration "before commit" with
        | .error e => (written.rollback, .error e)
        | .ok () =>
          match written.commit with
          | .error e => (written.rollback, .error e)
          | .ok committed => (committed, .ok ())

/-! ## What each transaction can do -/

theorem openGuardBlock_ok {identity : ServiceInstanceIdentity} {clock : ClockReading}
    {workspaceId : String} {generation : Nat} {db db' : Db ρ}
    (h : openGuardBlock identity clock workspaceId generation db = .ok db') :
    db'.recordedGeneration = db.recordedGeneration ∧ db'.rows = db.rows := by
  unfold openGuardBlock at h
  split at h
  · cases h
  · cases h
    exact ⟨rfl, rfl⟩

theorem validate_ok {db : Db ρ} {identity : ServiceInstanceIdentity} {workspaceId : String}
    {generation : Nat} {moment : String}
    (h : validate db identity workspaceId generation moment = .ok ()) :
    RecordedHolder db identity.serviceInstanceId generation ∧
      ∃ held, db.readGuard = some held ∧ held.workspaceId = workspaceId ∧
        held.fencingGeneration = generation ∧
        held.serviceInstanceId = identity.serviceInstanceId := by
  unfold validate at h
  split at h
  · cases h
  · next hcurrent =>
    split at h
    · cases h
    · next held hguard =>
      split at h
      · cases h
      · next hmatch =>
        push Not at hmatch
        exact ⟨assertCurrentAuthority_ok hcurrent, held, hguard, hmatch⟩

/-- All a fenced transaction on an idle database can do: commit the body's rows, with the caller
recorded as the holder before and after, or change nothing. -/
theorem fencedTransaction_idle (db : Db ρ) (identity : ServiceInstanceIdentity)
    (workspaceId : String) (generation : Nat) (body : Body ρ) :
    (∃ e, fencedTransaction (.idle db) identity workspaceId generation body = (.idle db, .error e)) ∨
    (fencedTransaction (.idle db) identity workspaceId generation body =
        (.idle (body db).1, .ok ()) ∧
      (body db).2 = none ∧
      validate db identity workspaceId generation "on entry" = .ok () ∧
      validate (body db).1 identity workspaceId generation "before commit" = .ok ()) := by
  simp only [fencedTransaction, Database.beginImmediate_idle, Database.current_opened,
    Database.current_write]
  cases hentry : validate db identity workspaceId generation "on entry" with
  | error e => exact .inl ⟨e, rfl⟩
  | ok _ =>
    cases hraised : (body db).2 with
    | some e => exact .inl ⟨_, rfl⟩
    | none =>
      cases hcommit : validate (body db).1 identity workspaceId generation "before commit" with
      | error e => exact .inl ⟨e, rfl⟩
      | ok _ => exact .inr ⟨rfl, rfl, rfl, rfl⟩

theorem fencedTransaction_commits {db : Db ρ} {identity : ServiceInstanceIdentity}
    {workspaceId : String} {generation : Nat} {body : Body ρ}
    (hentry : validate db identity workspaceId generation "on entry" = .ok ())
    (hraised : (body db).2 = none)
    (hcommit : validate (body db).1 identity workspaceId generation "before commit" = .ok ()) :
    fencedTransaction (.idle db) identity workspaceId generation body =
      (.idle (body db).1, .ok ()) := by
  simp only [fencedTransaction, Database.beginImmediate_idle, Database.current_opened,
    Database.current_write, hentry, hraised, hcommit, Database.commit_write]

/-- A statement on the guarded tables leaves the substrate as it was, and writes only while the
lease of the guard's instance is live. -/
theorem guardedWrite_cases (statement : ρ → Except String ρ) (db : Db ρ) :
    (∃ e, guardedWrite statement db = (db, some e)) ∨
    (∃ rows, statement db.rows = .ok rows ∧ guardedWrite statement db = ({ db with rows }, none) ∧
      ∃ lease, db.workspaceLease = some lease ∧ lease.lifecycle ≠ .released) := by
  unfold guardedWrite
  split
  · next hadmits =>
    have hlive : ∃ lease, db.workspaceLease = some lease ∧ lease.lifecycle ≠ .released := by
      unfold guardAdmits at hadmits
      split at hadmits
      · next lease _ _ hlease =>
        refine ⟨lease, hlease, ?_⟩
        intro hreleased
        simp [hreleased, LeaseLifecycle.live] at hadmits
      · cases hadmits
    cases hstatement : statement db.rows with
    | error e => exact .inl ⟨e, rfl⟩
    | ok rows => exact .inr ⟨rows, rfl, rfl, hlive⟩
  · exact .inl ⟨_, rfl⟩

theorem guardedWrite_ok {statement : ρ → Except String ρ} {db : Db ρ} {rows : ρ}
    (hadmits : guardAdmits db = true) (hrows : statement db.rows = .ok rows) :
    guardedWrite statement db = ({ db with rows }, none) := by
  rw [guardedWrite, if_pos hadmits, hrows]

end OmniviaCore.Ownership
