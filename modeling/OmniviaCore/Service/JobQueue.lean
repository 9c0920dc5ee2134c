import OmniviaCore.Ownership.SingleWriter
import OmniviaCore.Lib.SortBy

/-!
# The durable job queue

`JobQueue` of `service/jobs.py`: the rows of `omnivia_durable_jobs`, and the operations on them, each the
statements of one fenced transaction on the workspace database of `Ownership`. The one JSON column of a row
wraps the payload, the attempt count and the last error, which are fields here; payloads are of any type
`π`. The wall time of a call and the id `enqueue` draws are arguments.

`fail` reads the attempt count before its transaction begins, so what it read is an argument of the step.
-/

namespace OmniviaCore.Service

open Lib Ownership

/-- `JobState`. -/
inductive JobState where
  | queued
  | claimed
  | succeeded
  | failed
  | cancelled
  deriving DecidableEq

def JobState.value : JobState → String
  | queued => "queued"
  | claimed => "claimed"
  | succeeded => "succeeded"
  | failed => "failed"
  | cancelled => "cancelled"

/-- A row of `omnivia_durable_jobs`. -/
structure JobRow (π : Type) where
  jobId : String
  jobType : String
  state : JobState
  payload : π
  attempts : Nat
  lastError : Option String
  createdAt : String
  updatedAt : String
  fencingGeneration : Option Nat
  claimedByServiceInstance : Option String

/-- `DEFAULT_MAX_ATTEMPTS`. -/
def defaultMaxAttempts : Int := 3

/-- The identity, workspace and generation a `JobQueue` is built with. -/
structure QueueOwner where
  identity : ServiceInstanceIdentity
  workspaceId : String
  fencingGeneration : Nat

/-- `JobQueue`. -/
structure JobQueue where
  owner : QueueOwner
  maxAttempts : Int

variable {π : Type}

/-- The rows of the table in the order of their insertion. -/
abbrev JobTable (π : Type) := List (JobRow π)

namespace JobTable

/-- `read_job`. -/
def readJob (rows : JobTable π) (jobId : String) : Option (JobRow π) :=
  rows.find? fun row => row.jobId = jobId

/-- `UPDATE … WHERE job_id = ?`. -/
def update (rows : JobTable π) (jobId : String) (change : JobRow π → JobRow π) : JobTable π :=
  rows.map fun row => if row.jobId = jobId then change row else row

/-- The queued job that `claim_next` selects: the oldest, then the smallest id. -/
def nextQueued (rows : JobTable π) (jobType : Option String) : Option (JobRow π) :=
  let queued := rows.filter fun row => row.state = .queued ∧ ∀ t ∈ jobType, row.jobType = t
  (sortBy (fun row : JobRow π => toLex (row.createdAt, row.jobId)) queued).head?

end JobTable

/-- Claimed under a generation older than `generation`; no recorded generation counts as `0`. -/
def JobRow.Stranded (row : JobRow π) (generation : Nat) : Prop :=
  row.state = .claimed ∧ row.fencingGeneration.getD 0 < generation

instance (row : JobRow π) (generation : Nat) : Decidable (row.Stranded generation) :=
  inferInstanceAs (Decidable (_ ∧ _))

/-- A body that reads the table and then either raises, or writes it with one statement that the
guard triggers check, or writes nothing. -/
def tableBody (statements : JobTable π → Except String (Option (JobTable π))) :
    Body (JobTable π) := fun db =>
  match statements db.rows with
  | .error e => (db, some e)
  | .ok none => (db, none)
  | .ok (some rows) => guardedWrite (fun _ => .ok rows) db

/-- The `repr` of a job id without quotes or escapes in it. -/
def reprJobId (jobId : String) : String := "'" ++ jobId ++ "'"

namespace JobQueue

/-- The statements of `enqueue`. -/
def enqueue (queue : JobQueue) (jobType : String) (payload : π) (jobId moment : String)
    (rows : JobTable π) : Except String (Option (JobTable π)) :=
  if (rows.readJob jobId).isSome then
    .error ("job " ++ reprJobId jobId ++ " already exists")
  else
    .ok (some (rows ++ [{
      jobId
      jobType
      state := .queued
      payload
      attempts := 0
      lastError := none
      createdAt := moment
      updatedAt := moment
      fencingGeneration := some queue.owner.fencingGeneration
      claimedByServiceInstance := none }]))

/-- The statements of `claim_next`. The row selected is still queued when it is updated, both inside
one transaction. -/
def claimNext (queue : JobQueue) (jobType : Option String) (moment : String) (rows : JobTable π) :
    Except String (Option (JobTable π)) :=
  match rows.nextQueued jobType with
  | none => .ok none
  | some candidate =>
    .ok (some (rows.update candidate.jobId fun row =>
      if row.state = .queued then
        { row with
          state := .claimed
          claimedByServiceInstance := some queue.owner.identity.serviceInstanceId
          fencingGeneration := some queue.owner.fencingGeneration
          updatedAt := moment }
      else row))

/-- The statements of `_transition`. -/
def transition (jobId : String) (toState : JobState) (fromStates : List JobState)
    (attempts : Option Nat) (lastError : Option String) (clearClaim : Bool) (moment : String)
    (rows : JobTable π) : Except String (Option (JobTable π)) :=
  match rows.readJob jobId with
  | none => .error ("no job " ++ reprJobId jobId)
  | some current =>
    if current.state ∉ fromStates then
      .error ("job " ++ reprJobId jobId ++ " is '" ++ current.state.value ++ "'; expected one of [" ++
        ", ".intercalate (fromStates.map fun s => "'" ++ s.value ++ "'") ++ "]")
    else
      .ok (some (rows.update jobId fun row =>
        { row with
          state := toState
          payload := current.payload
          attempts := attempts.getD current.attempts
          lastError
          updatedAt := moment
          claimedByServiceInstance :=
            if clearClaim then none else current.claimedByServiceInstance }))

def complete (jobId moment : String) : JobTable π → Except String (Option (JobTable π)) :=
  transition jobId .succeeded [.claimed] none none false moment

def cancel (jobId moment : String) : JobTable π → Except String (Option (JobTable π)) :=
  transition jobId .cancelled [.queued, .claimed] none none true moment

/-- The statements of `fail`, whose read before the transaction found `seen` attempts. -/
def fail (queue : JobQueue) (jobId error : String) (seen : Nat) (moment : String) :
    JobTable π → Except String (Option (JobTable π)) :=
  let attempts := seen + 1
  let exhausted : Bool := queue.maxAttempts ≤ attempts
  transition jobId (if exhausted then .failed else .queued) [.claimed] (some attempts) (some error)
    (!exhausted) moment

/-- The statements of `recover_stranded`. -/
def recoverStranded (queue : JobQueue) (moment : String) (rows : JobTable π) :
    Except String (Option (JobTable π)) :=
  if rows.any fun row => row.Stranded queue.owner.fencingGeneration then
    .ok (some (rows.map fun row =>
      if row.Stranded queue.owner.fencingGeneration then
        { row with state := .queued, claimedByServiceInstance := none, updatedAt := moment }
      else row))
  else .ok none

end JobQueue

/-! ## Runs -/

/-- An operation of a queue, with what it reads of the clock. -/
inductive JobOperation (π : Type) where
  | enqueue (jobType : String) (payload : π) (jobId moment : String)
  | claimNext (jobType : Option String) (moment : String)
  | complete (jobId moment : String)
  | cancel (jobId moment : String)
  | fail (jobId error : String) (seen : Nat) (moment : String)
  | recoverStranded (moment : String)

/-- The statements of the operation's transaction. -/
def JobQueue.statements (queue : JobQueue) :
    JobOperation π → JobTable π → Except String (Option (JobTable π))
  | .enqueue jobType payload jobId moment => queue.enqueue jobType payload jobId moment
  | .claimNext jobType moment => queue.claimNext jobType moment
  | .complete jobId moment => complete jobId moment
  | .cancel jobId moment => cancel jobId moment
  | .fail jobId error seen moment => queue.fail jobId error seen moment
  | .recoverStranded moment => queue.recoverStranded moment

/-- The job an operation claims from the rows it finds, if it commits. -/
def JobOperation.claims (rows : JobTable π) : JobOperation π → List String
  | .claimNext jobType _ => (rows.nextQueued jobType).toList.map (·.jobId)
  | _ => []

/-- One step on the workspace database: a call on its lease or its guard, or a queue operation of
one of any number of owners. -/
inductive ServedCall (π : Type) where
  | ownership (call : Ownership.Call (JobTable π)) (h : call.fences = false)
  | queue (owner : QueueOwner) (operation : JobOperation π)

/-- `JobQueue._fenced` around the operation's statements. -/
def ServedCall.call (maxAttempts : Int) : ServedCall π → Ownership.Call (JobTable π)
  | .ownership call _ => call
  | .queue owner operation =>
    .fenced owner.identity owner.workspaceId owner.fencingGeneration
      (tableBody ((JobQueue.mk owner maxAttempts).statements operation))

def ServedCall.claims (rows : JobTable π) : ServedCall π → List String
  | .ownership _ _ => []
  | .queue _ operation => operation.claims rows

/-- The database, and the ids of the jobs in the order they were claimed. -/
structure Served (π : Type) where
  database : Database (JobTable π)
  claimed : List String

namespace Served

def rows (s : Served π) : JobTable π := s.database.durable.rows

def claims (s : Served π) (jobId : String) : Nat := s.claimed.count jobId

def start (db : Db (JobTable π)) : Served π := ⟨.idle { db with rows := [] }, []⟩

def step (maxAttempts : Int) (s : Served π) (served : ServedCall π) : Served π :=
  let result := perform s.database (served.call maxAttempts)
  match result.2 with
  | .ok () => ⟨result.1, s.claimed ++ served.claims s.rows⟩
  | .error _ => ⟨result.1, s.claimed⟩

end Served

end OmniviaCore.Service
