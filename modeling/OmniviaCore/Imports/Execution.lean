import OmniviaCore.Jobs.Store

/-!
# Execution of import jobs

`ImportJobExecutor` of `service/import_execution.py`, over the application job store. An execution is four
transactions of one service instance: the claim, the publication of the artifact with its first provenance
event, the projection barrier and the terminal observation. Any step of any other instance, of a user or of
recovery may come between two of them, and the process may end there.

The artifact is looked up by an identifier derived from the staged handle.
-/

namespace OmniviaCore.Imports

open Lib Jobs

/-! ## Rows -/

/-- A row of `omnivia_evidence_artifacts`. Times, digests and statuses are read by nothing here. -/
structure ArtifactRow where
  evidenceId : String
  workspaceId : String
  sourceKind : String
  sourceNativeId : String
  contentChecksum : String
  mediaType : String
  stagedSourceRef : String
  importRunId : Option String

/-- A row of `omnivia_evidence_provenance_events`. -/
structure ProvenanceRow where
  provenanceEventId : String
  evidenceId : String
  provenanceSequence : Nat
  occurredAtUs : Nat
  auditRef : Option String

/-- What an execution holds between its transactions. -/
inductive Executor where
  | idle
  /-- `_next_pending` returned the job -/
  | claimed (jobId : JobId)
  /-- `require_staged_import_source` passed -/
  | validated (jobId : JobId) (source : ImportSourceDescriptor)
  /-- `_publish_evidence` returned -/
  | published (jobId : JobId) (evidenceId : String) (created : Bool)
  /-- `_import` returned -/
  | imported (jobId : JobId) (created : Bool)
  /-- `_import` raised -/
  | refused (jobId : JobId) (error : ApiError)

/-- The workspace, and the executions under way. -/
structure ImportStore where
  store : Store
  artifacts : List ArtifactRow
  provenance : List ProvenanceRow
  executors : Authority → Executor

/-! ## The errors of an attempt -/

/-- `_MESSAGE_NO_CLAIM`. -/
def noClaimError : ApiError where
  code := "internal_non_recoverable"
  message := "this import job has no accepted staged descriptor"
  retryClass := "non_retryable"
  code_valid := by decide
  message_valid := by decide
  retryClass_valid := by decide

/-- What `require_staged_import_source` raises. -/
def sourceUnavailableError : ApiError where
  code := "dependency_unavailable"
  message := "the staged import source is not available with the declared immutable facts"
  retryClass := "retryable_after_delay"
  code_valid := by decide
  message_valid := by decide
  retryClass_valid := by decide

/-- `_MESSAGE_NOT_SEARCHABLE`. -/
def notSearchableError : ApiError where
  code := "internal_recoverable"
  message := "the evidence this import created did not become findable by evidence.search"
  retryClass := "retryable"
  code_valid := recoveryError.code_valid
  message_valid := by decide
  retryClass_valid := recoveryError.retryClass_valid

/-- `_MESSAGE_UNEXPECTED`. -/
def unexpectedError : ApiError where
  code := "internal_non_recoverable"
  message := "this import job could not be executed"
  retryClass := "non_retryable"
  code_valid := by decide
  message_valid := by decide
  retryClass_valid := by decide

/-! ## Identifiers -/

section

variable (sha256 : List UInt8 → String)

/-- `_derived`. -/
def derived (stem : String) (parts : List String) : String :=
  stem ++ "-" ++ String.ofList
    ((sha256 (("|".intercalate parts).toList.flatMap String.utf8EncodeChar)).toList.take 40)

def evidenceIdOf (workspaceId stagedSourceRef : String) : String :=
  derived sha256 "evd" [workspaceId, stagedSourceRef]

def nativeIdOf (workspaceId stagedSourceRef : String) : String :=
  derived sha256 "imp" [workspaceId, stagedSourceRef]

def provenanceEventIdOf (workspaceId stagedSourceRef : String) : String :=
  derived sha256 "prv" [workspaceId, stagedSourceRef, "1"]

namespace ImportStore

variable (s : ImportStore)

/-! ## The transactions -/

/-- A row that `_PENDING_IMPORT_JOBS` selects for an instance. -/
def isPending (authority : Authority) (j : Job) : Bool :=
  j.metadata.jobKind = IMPORT_JOB_KIND &&
    (j.state = .queued || (j.state = .claimed && j.claimedBy = some authority.serviceInstanceId &&
      j.fencingGeneration = authority.fencingGeneration))

/-- `ORDER BY m.created_at_us, j.job_id`. -/
def executedBefore (j k : Job) : Bool :=
  j.metadata.createdAtUs < k.metadata.createdAtUs ||
    (j.metadata.createdAtUs = k.metadata.createdAtUs && j.metadata.jobId.text < k.metadata.jobId.text)

/-- The row of `_PENDING_IMPORT_JOBS`. -/
def pendingImportJob (authority : Authority) : Option Job :=
  let pending := s.store.jobs.filter (isPending authority)
  pending.find? fun j => pending.all fun k => !executedBefore k j

def withExecutor (authority : Authority) (executor : Executor) : ImportStore :=
  { s with executors := fun a => if a = authority then executor else s.executors a }

/-- `_next_pending`. -/
def nextPending (authority : Authority) (nowUs : Nat) : ImportStore :=
  match s.pendingImportJob authority with
  | none => s
  | some j =>
    if j.state = .claimed then s.withExecutor authority (.claimed j.metadata.jobId)
    else
      match s.store.perform authority (.write j.metadata.jobId (.claim nowUs)) with
      | .ok store => { s with store }.withExecutor authority (.claimed j.metadata.jobId)
      | .error _ => s

/-- `read_accepted_import_source` and `require_staged_import_source`. -/
def validate (jobId : JobId) : Executor :=
  match s.store.find jobId with
  | none => .refused jobId noClaimError
  | some j =>
    if j.source ∈ s.store.stagedSources then .validated jobId j.source
    else .refused jobId sourceUnavailableError

/-- The two rows of `_publish_evidence`, unless a primary key or the unique index has them. -/
def insertArtifact (jobId : JobId) (source : ImportSourceDescriptor) (nowUs : Nat) :
    Option ImportStore :=
  let workspaceId := s.store.workspaceId.text
  let artifact : ArtifactRow :=
    { evidenceId := evidenceIdOf sha256 workspaceId source.stagedSourceRef
      workspaceId
      sourceKind := source.sourceKind
      sourceNativeId := nativeIdOf sha256 workspaceId source.stagedSourceRef
      contentChecksum := source.contentChecksum
      mediaType := source.mediaType
      stagedSourceRef := source.stagedSourceRef
      importRunId := some jobId.text }
  let event : ProvenanceRow :=
    { provenanceEventId := provenanceEventIdOf sha256 workspaceId source.stagedSourceRef
      evidenceId := artifact.evidenceId
      provenanceSequence := 1
      occurredAtUs := nowUs
      auditRef := (s.store.find jobId).map (·.metadata.auditRef.text) }
  if s.artifacts.any (fun a => a.workspaceId = workspaceId && a.sourceKind = artifact.sourceKind &&
      a.sourceNativeId = artifact.sourceNativeId) ||
      s.provenance.any (fun e => e.provenanceEventId = event.provenanceEventId) then none
  else some { s with artifacts := s.artifacts ++ [artifact], provenance := s.provenance ++ [event] }

/-- `_publish_evidence`. An instance that lost the fence, or whose rows the schema refuses, ends its
pass. -/
def publishEvidence (authority : Authority) (jobId : JobId) (source : ImportSourceDescriptor)
    (nowUs : Nat) : ImportStore :=
  if authority ≠ s.store.holder then s.withExecutor authority .idle
  else
    let evidenceId := evidenceIdOf sha256 s.store.workspaceId.text source.stagedSourceRef
    match s.artifacts.find? (·.evidenceId = evidenceId) with
    | some existing =>
      s.withExecutor authority (.published jobId evidenceId (existing.importRunId = some jobId.text))
    | none =>
      match s.insertArtifact sha256 jobId source nowUs with
      | some s' => s'.withExecutor authority (.published jobId evidenceId true)
      | none => s.withExecutor authority .idle

/-- `complete_application_job` and `fail_application_job`; the pass ends when they raise. -/
def terminalize (authority : Authority) (jobId : JobId) (outcome : Outcome) (nowUs : Nat) :
    ImportStore :=
  match s.store.perform authority (.write jobId (.terminalize outcome nowUs)) with
  | .ok store => { s with store }.withExecutor authority .idle
  | .error _ => s.withExecutor authority .idle

end ImportStore

/-! ## The machine -/

/-- A completion, which only `_execute` asks for. -/
def completes : Label → Bool
  | .call _ (.write _ (.terminalize (.succeeded _) _)) => true
  | _ => false

/-- A step. -/
inductive ImportLabel where
  /-- a takeover or a call of the job store: `import.start`, a user control, recovery, … -/
  | jobs (label : Label)
  /-- the staged sources of the workspace change -/
  | staged (sources : List ImportSourceDescriptor)
  /-- an instance's executor goes on to its next transaction -/
  | execute (authority : Authority) (nowUs : Nat) (findable : Bool)
  /-- the execution raises something it did not anticipate -/
  | unexpected (authority : Authority)
  /-- the process ends, or its pass does -/
  | crash (authority : Authority)

namespace ImportStore

variable (s : ImportStore)

def execute (authority : Authority) (nowUs : Nat) (findable : Bool) : ImportStore :=
  match s.executors authority with
  | .idle => s.nextPending authority nowUs
  | .claimed jobId => s.withExecutor authority (s.validate jobId)
  | .validated jobId source => s.publishEvidence sha256 authority jobId source nowUs
  | .published jobId _ created =>
    s.withExecutor authority (if findable then .imported jobId created
      else .refused jobId notSearchableError)
  | .imported jobId created => s.terminalize authority jobId (.succeeded created) nowUs
  | .refused jobId error => s.terminalize authority jobId (.failed error) nowUs

/-- The `except Exception` of `_execute`, around `_import`. -/
def unexpected (authority : Authority) : ImportStore :=
  match s.executors authority with
  | .claimed jobId => s.withExecutor authority (.refused jobId unexpectedError)
  | .validated jobId _ => s.withExecutor authority (.refused jobId unexpectedError)
  | .published jobId _ _ => s.withExecutor authority (.refused jobId unexpectedError)
  | _ => s

def step (s : ImportStore) : ImportLabel → ImportStore
  | .jobs label => if completes label then s else { s with store := s.store.step label }
  | .staged sources => { s with store := { s.store with stagedSources := sources } }
  | .execute authority nowUs findable => s.execute sha256 authority nowUs findable
  | .unexpected authority => s.unexpected authority
  | .crash authority => s.withExecutor authority .idle

def empty (workspaceId : WorkspaceId) (holder : Authority)
    (stagedSources : List ImportSourceDescriptor) : ImportStore where
  store := Store.empty workspaceId holder stagedSources
  artifacts := []
  provenance := []
  executors := fun _ => .idle

end ImportStore

end

end OmniviaCore.Imports
