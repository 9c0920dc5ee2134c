import OmniviaCore.Lib.Machine
import OmniviaCore.Ownership.Fencing

/-!
# Single-writer fencing over every interleaving

Any number of service instances call the six operations on one workspace database. A run is the list of
the calls in the order SQLite's writer lock put them.

The proofs rest on `perform_cases`: on an idle database a call either fails and leaves every row as it was,
or leaves an idle database whose recorded generation follows the call (one more for an acquisition, the same
for every other call).
-/

namespace OmniviaCore.Ownership

open Lib

universe u

variable {ρ : Type u}

/-- One call of one service instance. -/
inductive Call (ρ : Type u) where
  | acquire (identity : ServiceInstanceIdentity) (clock : ClockReading) (workspaceId : String)
      (holdsStorageLock : Bool) (lockMechanism : String) (endpoint predecessor : Option String)
  | heartbeat (identity : ServiceInstanceIdentity) (clock : ClockReading)
  | release (identity : ServiceInstanceIdentity) (clock : ClockReading) (shutdownState : String)
  | openGuard (identity : ServiceInstanceIdentity) (clock : ClockReading) (workspaceId : String)
      (fencingGeneration : Nat)
  | closeGuard
  | fenced (identity : ServiceInstanceIdentity) (workspaceId : String) (fencingGeneration : Nat)
      (body : Body ρ)

def perform (d : Database ρ) : Call ρ → Database ρ × Except OwnershipError Unit
  | .acquire identity clock workspaceId holdsStorageLock lockMechanism endpoint predecessor =>
    acquireLease d identity clock workspaceId holdsStorageLock lockMechanism endpoint predecessor
  | .heartbeat identity clock => Ownership.heartbeat d identity clock
  | .release identity clock shutdownState => releaseLease d identity clock shutdownState
  | .openGuard identity clock workspaceId fencingGeneration =>
    Ownership.openGuard d identity clock workspaceId fencingGeneration
  | .closeGuard => Ownership.closeGuard d
  | .fenced identity workspaceId fencingGeneration body =>
    fencedTransaction d identity workspaceId fencingGeneration body

def Call.acquires : Call ρ → Bool
  | .acquire .. => true
  | _ => false

def Call.fences : Call ρ → Bool
  | .fenced .. => true
  | _ => false

def Call.rowsAfter (db : Db ρ) : Call ρ → ρ
  | .fenced _ _ _ body => (body db).1.rows
  | _ => db.rows

def after (db : Db ρ) (calls : List (Call ρ)) : Database ρ :=
  run (fun d call => (perform d call).1) (.idle db) calls

/-! ## One call -/

theorem perform_cases (db : Db ρ) (call : Call ρ) :
    (∃ e, perform (.idle db) call = (.idle db, .error e)) ∨
    (∃ db', perform (.idle db) call = (.idle db', .ok ()) ∧
      db'.recordedGeneration = db.recordedGeneration + (if call.acquires then 1 else 0) ∧
      db'.rows = call.rowsAfter db) := by
  cases call with
  | acquire identity clock workspaceId holdsStorageLock lockMechanism endpoint predecessor =>
    simp only [perform, acquireLease, immediateTransaction_idle, Database.current_idle]
    split
    · exact .inl ⟨_, rfl⟩
    · split
      · exact .inl ⟨_, rfl⟩
      · cases hblock : acquireBlock identity clock workspaceId lockMechanism endpoint predecessor db
          with
        | error e => exact .inl ⟨e, rfl⟩
        | ok db' => exact .inr ⟨db', rfl, acquireBlock_ok hblock⟩
  | heartbeat identity clock =>
    simp only [perform, Ownership.heartbeat, immediateTransaction_idle]
    cases hblock : heartbeatBlock identity clock db with
    | error e => exact .inl ⟨e, rfl⟩
    | ok db' => exact .inr ⟨db', rfl, heartbeatBlock_ok hblock⟩
  | release identity clock shutdownState =>
    simp only [perform, releaseLease, immediateTransaction_idle]
    cases hblock : releaseBlock identity clock shutdownState db with
    | error e => exact .inl ⟨e, rfl⟩
    | ok db' => exact .inr ⟨db', rfl, releaseBlock_ok hblock⟩
  | openGuard identity clock workspaceId fencingGeneration =>
    simp only [perform, Ownership.openGuard, immediateTransaction_idle, Database.current_idle]
    split
    · exact .inl ⟨_, rfl⟩
    · cases hblock : openGuardBlock identity clock workspaceId fencingGeneration db with
      | error e => exact .inl ⟨e, rfl⟩
      | ok db' => exact .inr ⟨db', rfl, openGuardBlock_ok hblock⟩
  | closeGuard =>
    simp only [perform, Ownership.closeGuard, immediateTransaction_idle, Database.current_idle]
    split
    · exact .inr ⟨db, rfl, rfl, rfl⟩
    · exact .inr ⟨_, rfl, rfl, rfl⟩
  | fenced identity workspaceId fencingGeneration body =>
    obtain ⟨e, he⟩ | ⟨hok, -, hentry, hcommit⟩ :=
      fencedTransaction_idle db identity workspaceId fencingGeneration body
    · exact .inl ⟨e, he⟩
    · refine .inr ⟨(body db).1, hok, ?_, rfl⟩
      have hbefore := (validate_ok hentry).1.1
      have hafter := (validate_ok hcommit).1.1
      simp [hbefore, hafter, Call.acquires]

theorem perform_ok {db : Db ρ} {call : Call ρ} (h : (perform (.idle db) call).2 = .ok ()) :
    (perform (.idle db) call).1.durable.recordedGeneration =
      db.recordedGeneration + (if call.acquires then 1 else 0) := by
  obtain ⟨e, he⟩ | ⟨db', hok, hgeneration, -⟩ := perform_cases db call
  · rw [he] at h
    cases h
  · rw [hok]
    exact hgeneration

/-- A call on the lease or the guard that keeps the generation keeps the instance the lease names. -/
theorem perform_holder {db : Db ρ} {call : Call ρ} (hfences : call.fences = false)
    (hacquires : call.acquires = false) :
    (perform (.idle db) call).1.durable.readLease.map (·.serviceInstanceId) =
      db.readLease.map (·.serviceInstanceId) := by
  have hmap : ∀ f : LeaseRecord → LeaseRecord, (∀ l, (f l).serviceInstanceId = l.serviceInstanceId) →
      ({ db with workspaceLease := db.workspaceLease.map f } : Db ρ).readLease.map
        (·.serviceInstanceId) = db.readLease.map (·.serviceInstanceId) := by
    intro f hf
    unfold Db.readLease
    split
    · rw [Option.map_map]
      exact congrArg (Option.map · db.workspaceLease) (funext hf)
    · rfl
  cases call with
  | acquire => cases hacquires
  | fenced => cases hfences
  | heartbeat identity clock =>
    simp only [perform, Ownership.heartbeat, immediateTransaction_idle]
    cases hblock : heartbeatBlock identity clock db with
    | error e => rfl
    | ok db' =>
      unfold heartbeatBlock at hblock
      split at hblock
      · cases hblock
      · split at hblock
        · cases hblock
        · split at hblock
          · cases hblock
          · cases hblock
            exact hmap _ fun _ => rfl
  | release identity clock shutdownState =>
    simp only [perform, releaseLease, immediateTransaction_idle]
    cases hblock : releaseBlock identity clock shutdownState db with
    | error e => rfl
    | ok db' =>
      unfold releaseBlock at hblock
      split at hblock
      · cases hblock
      · split at hblock
        · cases hblock
        · cases hblock
          exact hmap _ fun _ => rfl
  | openGuard identity clock workspaceId fencingGeneration =>
    simp only [perform, Ownership.openGuard, immediateTransaction_idle, Database.current_idle]
    split
    · rfl
    · cases hblock : openGuardBlock identity clock workspaceId fencingGeneration db with
      | error e => rfl
      | ok db' =>
        unfold openGuardBlock at hblock
        split at hblock
        · cases hblock
        · cases hblock
          rfl
  | closeGuard =>
    simp only [perform, Ownership.closeGuard, immediateTransaction_idle, Database.current_idle]
    split
    · rfl
    · rfl

/-! ## Runs -/

def Idle (d : Database ρ) : Prop := ∃ db, d = .idle db

theorem perform_idle (d : Database ρ) (call : Call ρ) (hd : Idle d) :
    Idle (perform d call).1 := by
  obtain ⟨db, rfl⟩ := hd
  obtain ⟨e, he⟩ | ⟨db', hok, -⟩ := perform_cases db call
  · exact ⟨db, by rw [he]⟩
  · exact ⟨db', by rw [hok]⟩

theorem perform_generation_le (d : Database ρ) (call : Call ρ) (hd : Idle d) :
    d.durable.recordedGeneration ≤ (perform d call).1.durable.recordedGeneration := by
  obtain ⟨db, rfl⟩ := hd
  obtain ⟨e, he⟩ | ⟨db', hok, hgeneration, -⟩ := perform_cases db call
  · rw [he]
  · rw [hok]
    exact hgeneration ▸ Nat.le_add_right _ _

theorem after_idle (db : Db ρ) (calls : List (Call ρ)) : Idle (after db calls) :=
  run_invariant perform_idle ⟨db, rfl⟩ calls

theorem after_append (db : Db ρ) (first second : List (Call ρ)) :
    after db (first ++ second) =
      run (fun d call => (perform d call).1) (after db first) second :=
  run_append _ _ _ _

theorem after_concat (db : Db ρ) (calls : List (Call ρ)) (call : Call ρ) :
    after db (calls ++ [call]) = (perform (after db calls) call).1 :=
  run_concat _ _ _ _

theorem after_generation_le (db : Db ρ) (calls later : List (Call ρ)) :
    (after db calls).durable.recordedGeneration ≤
      (after db (calls ++ later)).durable.recordedGeneration := by
  rw [after_append]
  exact run_monotone (f := fun d : Database ρ => d.durable.recordedGeneration) perform_idle
    perform_generation_le (after_idle db calls) later

/-- A fenced transaction commits only under the recorded generation, as the recorded holder, on
entry and at commit. -/
theorem fenced_ok_holder {d : Database ρ} (hd : Idle d) {identity : ServiceInstanceIdentity}
    {workspaceId : String} {generation : Nat} {body : Body ρ}
    (h : (perform d (.fenced identity workspaceId generation body)).2 = .ok ()) :
    RecordedHolder d.durable identity.serviceInstanceId generation ∧
      RecordedHolder (perform d (.fenced identity workspaceId generation body)).1.durable
        identity.serviceInstanceId generation := by
  obtain ⟨db, rfl⟩ := hd
  simp only [perform] at h ⊢
  obtain ⟨e, he⟩ | ⟨hok, -, hentry, hcommit⟩ :=
    fencedTransaction_idle db identity workspaceId generation body
  · rw [he] at h
    cases h
  · rw [hok]
    exact ⟨(validate_ok hentry).1, (validate_ok hcommit).1⟩

/-- Single-writer fencing. Along any run: the recorded generation never decreases; a successful
acquisition increases it; a fenced transaction that commits is the recorded holder's, on entry and
at commit; after an acquisition has reached a generation, no fenced transaction under a smaller one
commits; and a fenced transaction whose body raises or whose second validation fails leaves the
database as it was. -/
theorem single_writer_fencing (db : Db ρ) (calls : List (Call ρ)) :
    (∀ later, (after db calls).durable.recordedGeneration ≤
      (after db (calls ++ later)).durable.recordedGeneration) ∧
    (∀ call : Call ρ, call.acquires = true → (perform (after db calls) call).2 = .ok () →
      (after db calls).durable.recordedGeneration <
        (after db (calls ++ [call])).durable.recordedGeneration) ∧
    (∀ identity workspaceId generation body,
      (perform (after db calls) (.fenced identity workspaceId generation body)).2 = .ok () →
      RecordedHolder (after db calls).durable identity.serviceInstanceId generation ∧
        RecordedHolder
          (after db (calls ++ [.fenced identity workspaceId generation body])).durable
          identity.serviceInstanceId generation) ∧
    (∀ (call : Call ρ) (g : Nat), call.acquires = true →
      (perform (after db calls) call).2 = .ok () →
      (after db (calls ++ [call])).durable.recordedGeneration = g + 1 →
      ∀ later identity workspaceId generation body, generation ≤ g →
        ∃ e, (perform (after db (calls ++ [call] ++ later))
          (.fenced identity workspaceId generation body)).2 = .error e) ∧
    (∀ identity workspaceId generation (body : Body ρ),
      ((∃ raised, (body (after db calls).durable).2 = some raised) ∨
        ∃ e, validate (body (after db calls).durable).1 identity workspaceId generation
          "before commit" = .error e) →
      ∃ e, perform (after db calls) (.fenced identity workspaceId generation body) =
        (after db calls, .error e)) := by
  obtain ⟨current, hcurrent⟩ := after_idle db calls
  refine ⟨after_generation_le db calls, ?_, ?_, ?_, ?_⟩
  · intro call hacquires hok
    rw [after_concat, hcurrent] at *
    rw [perform_ok hok, hacquires]
    exact Nat.lt_succ_self _
  · intro identity workspaceId generation body hok
    rw [after_concat]
    exact fenced_ok_holder (after_idle db calls) hok
  · intro call g _ _ hreached later identity workspaceId generation body hstale
    have hlater := after_generation_le db (calls ++ [call]) later
    cases hresult : (perform (after db (calls ++ [call] ++ later))
        (.fenced identity workspaceId generation body)).2 with
    | error e => exact ⟨e, rfl⟩
    | ok _ =>
      -- it would be the holder of a generation the database has left behind
      have hholder := (fenced_ok_holder (after_idle db _) hresult).1.1
      omega
  · intro identity workspaceId generation body hfails
    rw [hcurrent] at *
    obtain ⟨e, he⟩ | ⟨-, hraised, -, hcommit⟩ :=
      fencedTransaction_idle current identity workspaceId generation body
    · exact ⟨e, he⟩
    · obtain ⟨raised, h⟩ | ⟨e, h⟩ := hfails
      · cases hraised.symm.trans h
      · cases hcommit.symm.trans h

/-- Two service starts on one workspace: the first acquires generation 2, opens its guard and
writes, and the second takes over. -/
def serviceStart (name : String) : ServiceInstanceIdentity :=
  ⟨name, "installation", ⟨1, "start", "boot", "principal"⟩⟩

def handover : List (Call Nat) :=
  [.acquire (serviceStart "first") ⟨0, "t0"⟩ "w" true "flock" none none,
    .openGuard (serviceStart "first") ⟨1, "t1"⟩ "w" 2]

def takeover : Call Nat :=
  .acquire (serviceStart "second") ⟨9, "t9"⟩ "w" true "flock" none (some "first")

def freshWorkspace : Db Nat where
  substrate := true
  guardTable := true
  workspaceState := some ⟨"w", 1, "1", "ready", "t", "t"⟩
  workspaceLease := none
  mutationGuard := none
  rows := 0

/-- In the hand-over the first instance's write commits as the recorded holder's; the second
acquisition raises the generation; the first instance's next write is refused; and a body that
raises changes nothing. -/
theorem single_writer_fencing_handover :
    RecordedHolder (after freshWorkspace handover).durable "first" 2 ∧
    (after freshWorkspace handover).durable.recordedGeneration <
      (after freshWorkspace (handover ++ [takeover])).durable.recordedGeneration ∧
    (∃ e, (perform (after freshWorkspace (handover ++ [takeover] ++ []))
      (.fenced (serviceStart "first") "w" 2 (guardedWrite fun n => .ok (n + 1)))).2 = .error e) ∧
    ∃ e, perform (after freshWorkspace handover)
      (.fenced (serviceStart "first") "w" 2 fun db => ({ db with rows := 7 }, some "raised")) =
        (after freshWorkspace handover, .error e) := by
  obtain ⟨-, hacquire, hcommits, hstale, hfails⟩ := single_writer_fencing freshWorkspace handover
  have htakeover : (perform (after freshWorkspace handover) takeover).2 = .ok () := by decide
  refine ⟨?_, hacquire takeover rfl htakeover, ?_, hfails _ _ _ _ (.inl ⟨_, rfl⟩)⟩
  · exact (hcommits (serviceStart "first") "w" 2 (guardedWrite fun n => .ok (n + 1))
      (by decide)).1
  · exact hstale takeover 2 rfl htakeover (by decide) [] _ _ 2 _ (Nat.le_refl 2)

/-- A released lease keeps its instance and generation on record, and the persisted triggers still
stop it: no fenced write to a guarded table commits under it, unless the table's triggers do not ask for
the lease. -/
theorem released_writes_nothing (db : Db ρ) (calls : List (Call ρ)) {lease : LeaseRecord}
    (hlease : (after db calls).durable.workspaceLease = some lease)
    (hreleased : lease.lifecycle = .released) (identity : ServiceInstanceIdentity)
    (workspaceId : String) (generation : Nat) {table : String} (hleased : table ∉ writerTables)
    (statement : ρ → Except String ρ) :
    ∃ e, perform (after db calls)
      (.fenced identity workspaceId generation (tableWrite table statement)) =
        (after db calls, .error e) := by
  have htable : tableWrite table statement = guardedWrite statement := funext fun _ => if_neg hleased
  rw [htable]
  obtain ⟨current, hcurrent⟩ := after_idle db calls
  rw [hcurrent] at hlease ⊢
  obtain ⟨e, he⟩ | ⟨-, hraised, -, -⟩ :=
    fencedTransaction_idle current identity workspaceId generation (guardedWrite statement)
  · exact ⟨e, he⟩
  · obtain ⟨e, he⟩ | ⟨rows, -, -, lease', hlease', hlive⟩ := guardedWrite_cases statement current
    · rw [he] at hraised
      cases hraised
    · -- the triggers admitted the write, so the lease on record was live
      obtain rfl : lease = lease' := Option.some.inj (hlease.symm.trans hlease')
      exact absurd hreleased hlive

/-- The first instance hands its lease back: what it writes next is refused. -/
theorem released_writes_nothing_first :
    ∃ e, perform (after freshWorkspace (handover ++ [.release (serviceStart "first") ⟨2, "t2"⟩ "clean"]))
      (.fenced (serviceStart "first") "w" 2 (tableWrite "chunks" fun n => .ok (n + 1))) =
        (after freshWorkspace (handover ++ [.release (serviceStart "first") ⟨2, "t2"⟩ "clean"]), .error e) := by
  have hreleased : (after freshWorkspace
      (handover ++ [.release (serviceStart "first") ⟨2, "t2"⟩ "clean"])).durable.workspaceLease.any
        (·.lifecycle = .released) = true := by
    decide
  obtain ⟨lease, hlease, hlifecycle⟩ := (Option.any_eq_true _ _).1 hreleased
  exact released_writes_nothing freshWorkspace _ hlease (by simpa using hlifecycle) _ _ _ (by decide) _

/-- A write to a chat table commits after the release. -/
example : (perform (after freshWorkspace (handover ++ [.release (serviceStart "first") ⟨2, "t2"⟩ "clean"]))
    (.fenced (serviceStart "first") "w" 2 (tableWrite "omnivia_chat_turns" fun n => .ok (n + 1)))).1.durable.rows
      = 1 := by
  decide

end OmniviaCore.Ownership
