import OmniviaCore.Engineering.SourceEvents
import OmniviaCore.Lib.Machine

/-!
# The invalidation worker

From `storage/engineering_invalidation.py`: one bounded step over one stream, and the machine of a
workspace whose service takes such steps between its other fenced writes and its restarts. A step is one
fenced transaction: it commits as a whole or leaves the store as it was.
-/

namespace OmniviaCore.Engineering

open Lib

structure InvalidationProgress where
  processedSequence : Nat
  coveredSequence : Nat
  pendingDependentAfter : Option DependentKey
  assessed : Nat

/-- `_changed_paths`. -/
def changedPaths (previous : Option Manifest) (current : Manifest) : List String :=
  match previous with
  | none => current.map Prod.fst
  | some previous => ((previous ++ current).map Prod.fst).filter fun path =>
      previous.lookup path ≠ current.lookup path

/-- Whether a set records a whole-file dependency on one of the paths. -/
def DependencySet.dependsOn (set : DependencySet) (paths : List String) : Bool :=
  set.dependencies.any fun d => d.selectorType = .whole_file ∧ d.selector ∈ paths

section Worker

variable (contentDigest : Manifest → String) (store : EngineeringStore)

/-- The keys `_affected_dependents` pages through. -/
def affectedKeys (repositoryId streamId : String) (paths : List String) : List DependentKey :=
  (store.dependencySets.filter fun set =>
    set.dependsOn paths ∧ set.repositoryId = repositoryId ∧ set.streamId = streamId).map (·.key)

/-- `_affected_dependents`. -/
def affectedDependents (repositoryId streamId : String) (paths : List String) (limit : Int)
    (after : Option DependentKey) : List DependentKey :=
  if paths = [] then [] else page (affectedKeys store repositoryId streamId paths) limit after

/-- The manifest before an event: of its predecessor, or none before the first event. -/
def previousManifest (streamId : String) (targetSequence : Nat) :
    Except EngineeringError (Option Manifest) :=
  if targetSequence = 1 then .ok none
  else
    match sequencedEvent contentDigest store streamId (targetSequence - 1) with
    | none => .error (.InvalidationWorkerFault "its predecessor event is unreadable")
    | some previous => .ok (some previous.manifest)

/-- The event a step works on, and the paths it changed. -/
def targetEvent (streamId : String) (targetSequence : Nat) :
    Except EngineeringError (SourceEvent × List String) :=
  match sequencedEvent contentDigest store streamId targetSequence with
  | none => .error (.InvalidationWorkerFault "its event is unreadable")
  | some current => do
    let previous ← previousManifest contentDigest store streamId targetSequence
    pure (current, changedPaths previous current.manifest)

/-- The assessment of one dependent at the target. -/
def assessment (current : SourceEvent) (target : CoveredSnapshot) (evidenceAvailable : DependentKey → Bool)
    (nowUs : Int) (key : DependentKey) : Assessment where
  recordId := (ofLex key).1
  version := (ofLex key).2
  targetSnapshotId := current.snapshotId
  status := evaluateApplicability contentDigest store key (evidenceAvailable key) target
  basis := .deterministic
  assessedAtUs := nowUs
  auditRef := current.auditRef

/-- Where a page leaves the stream: past the event, or at the last key the page reached. -/
def pageProgress (processed : Nat) (dependents : List DependentKey) (batchLimit : Int) :
    Except EngineeringError (Nat × Option DependentKey) :=
  if (dependents.length : Int) < batchLimit then .ok (processed + 1, none)
  else
    match dependents.getLast? with
    | none => .error .IndexError
    | some last => .ok (processed, some last)

/-- The page of one event: every dependent assessed in order, then the stream row. -/
def fanOut (streamId : String) (stream : SourceStream) (batchLimit nowUs : Int)
    (evidenceAvailable : DependentKey → Bool) (current : SourceEvent) (changed : List String)
    (target : CoveredSnapshot) : Except EngineeringError (EngineeringStore × InvalidationProgress) := do
  let dependents := affectedDependents store stream.repositoryId streamId changed batchLimit
    stream.pendingDependent
  let assessed ← dependents.foldlM (fun fenced key => recordAssessment fenced
    (assessment contentDigest fenced current target evidenceAvailable nowUs key)) store
  let (processed, after) ← pageProgress stream.processedSequence dependents batchLimit
  let written : SourceStream := {
    stream with
    processedSequence := processed
    pendingDependent := after
    updatedAtUs := max nowUs stream.updatedAtUs
    auditRef := current.auditRef }
  pure (assessed.setStream streamId written, {
    processedSequence := processed
    coveredSequence := stream.coveredSequence
    pendingDependentAfter := after
    assessed := dependents.length })

/-- `advance_invalidation` on a stream with covered work left. -/
def advancePending (streamId : String) (stream : SourceStream) (batchLimit nowUs : Int)
    (evidenceAvailable : DependentKey → Bool) :
    Except EngineeringError (EngineeringStore × InvalidationProgress) := do
  let (current, changed) ← targetEvent contentDigest store streamId (stream.processedSequence + 1)
  match coveredSnapshot contentDigest store current.snapshotId stream.repositoryId with
  | none => .error (.InvalidationWorkerFault "its snapshot is not")
  | some target =>
    fanOut contentDigest store streamId stream batchLimit nowUs evidenceAvailable current changed target

/-- `advance_invalidation`, inside its fence. -/
def advanceInvalidation (streamId : String) (batchLimit nowUs : Int)
    (evidenceAvailable : DependentKey → Bool) :
    Except EngineeringError (EngineeringStore × Option InvalidationProgress) :=
  match store.streams streamId with
  | none => .ok (store, none)
  | some stream =>
    if stream.coveredSequence ≤ stream.processedSequence then
      .ok (store, some {
        processedSequence := stream.processedSequence
        coveredSequence := stream.coveredSequence
        pendingDependentAfter := stream.pendingDependent
        assessed := 0 })
    else
      (advancePending contentDigest store streamId stream batchLimit nowUs evidenceAvailable).map
        fun (advanced, progress) => (advanced, some progress)

end Worker

/-! ## The machine -/

/-- What commits next: a step of the worker, one of the writers beside it, or a restart that takes a
new fencing generation. -/
inductive EngineeringLabel where
  | advance (streamId : String) (batchLimit nowUs : Int) (evidenceAvailable : DependentKey → Bool)
  | recordSource (settlement : MutationSettlement) (principalId : String) (record : SourceRecord)
  | commitCapture (settlement : MutationSettlement) (principalId installationId : String)
      (request : CapturedSourceCommit)
  | sealCapture (snapshotId : String) (capture : SnapshotCapture)
  | recordDependencies (set : DependencySet)
  | carryDependencies (recordId sourceVersion targetVersion : String)
  | reviewRecord (recordId version targetSnapshotId : String) (status : AssessmentStatus)
      (settlement : MutationSettlement)

section Machine

variable (contentDigest : Manifest → String) (capturedDigest : CapturedSourceCommit → SnapshotCapture → String)

/-- The body of one fenced transaction. -/
def perform (store : EngineeringStore) : EngineeringLabel → Except EngineeringError EngineeringStore
  | .advance streamId batchLimit nowUs evidenceAvailable =>
    (advanceInvalidation contentDigest store streamId batchLimit nowUs evidenceAvailable).map Prod.fst
  | .recordSource settlement principalId record =>
    (recordSourceEvent store contentDigest settlement principalId record).map Prod.fst
  | .commitCapture settlement principalId installationId request =>
    (recordCapturedSourceEvent store capturedDigest settlement principalId installationId request).map
      Prod.fst
  | .sealCapture snapshotId capture => Engineering.sealCapture store snapshotId capture
  | .recordDependencies set => recordDependencySet store set
  | .carryDependencies recordId sourceVersion targetVersion =>
    (carryDependencySet store recordId sourceVersion targetVersion).map Prod.fst
  | .reviewRecord recordId version targetSnapshotId status settlement =>
    recordAssessment store {
      recordId
      version
      targetSnapshotId
      status
      basis := .review
      assessedAtUs := settlement.settledAtUs
      auditRef := settlement.auditRef }

/-- `fenced_transaction`: a superseded generation is refused, and a body that raises is rolled back. -/
def fenced (store : EngineeringStore) (fencingGeneration : Nat) (label : EngineeringLabel) :
    Except EngineeringError EngineeringStore := do
  require (fencingGeneration = store.fencingGeneration) .StaleGeneration
  perform contentDigest capturedDigest store label

/-- A restart, or a transaction tried under a generation. -/
inductive ServiceStep where
  | restart
  | transaction (fencingGeneration : Nat) (label : EngineeringLabel)

def EngineeringStore.step (store : EngineeringStore) : ServiceStep → EngineeringStore
  | .restart => { store with fencingGeneration := store.fencingGeneration + 1 }
  | .transaction fencingGeneration label =>
    match fenced contentDigest capturedDigest store fencingGeneration label with
    | .ok committed => committed
    | .error _ => store

end Machine

end OmniviaCore.Engineering
