import OmniviaCore.Engineering.Records

/-!
# Source events and dependency sets

The writers the invalidation worker runs beside, from `storage/engineering_source.py`: a source event
or a sealed capture is appended to its stream and the coverage barrier drained along the contiguous
predecessor chain, and a record version's dependencies are sealed with their set row.
-/

namespace OmniviaCore.Engineering

open Lib

def PENDING_WINDOW : Nat := 64

inductive EngineeringError where
  | StaleGeneration
  | SourceStreamForeignPrincipal (streamId : String)
  | SourceConflict (message : String)
  | SourceWindowExceeded (streamId : String)
  | CapturedSourceNotFound (snapshotId : String)
  | CapturedSourceUnauthorized (message : String)
  | CapturedSourcePreconditionFailed (snapshotId : String)
  | DependencyBaselineUnavailable (snapshotId : String)
  | InvalidationWorkerFault (message : String)
  | AssertionError
  | IndexError
  /-- A statement a constraint of the schema aborts. -/
  | IntegrityError

structure MutationSettlement where
  settledAtUs : Int
  auditRef : String

/-- A validated source event. -/
structure SourceRecord where
  repositoryId : String
  streamId : String
  sequence : Nat
  predecessorSnapshotId : Option String
  snapshotId : String
  captureStatus : CaptureStatus
  manifest : Manifest
  eventDigest : String

/-- A request to bind a sealed capture into a stream. -/
structure CapturedSourceCommit where
  repositoryId : String
  streamId : String
  sequence : Nat
  predecessorSnapshotId : Option String
  snapshotId : String
  expectedManifestDigest : Option String

inductive Disposition where
  | recorded | already_recorded
  deriving DecidableEq

variable (store : EngineeringStore)

/-- The loop of `_advance_coverage`. -/
def advanceCoverageFrom (streamId : String) : Nat → Nat → Option String → Nat
  | 0, covered, _ => covered
  | window + 1, covered, previous =>
    match store.event streamId (covered + 1) with
    | none => covered
    | some following =>
      if following.predecessorSnapshotId ≠ previous then covered
      else advanceCoverageFrom streamId window (covered + 1) (some following.snapshotId)

/-- `_advance_coverage`. -/
def advanceCoverage (streamId : String) (covered : Nat) : Except EngineeringError Nat :=
  if covered = 0 then .ok (advanceCoverageFrom store streamId PENDING_WINDOW 0 none)
  else
    match store.event streamId covered with
    | none => .error .AssertionError
    | some head =>
      .ok (advanceCoverageFrom store streamId PENDING_WINDOW covered (some head.snapshotId))

/-- Whether an event disagrees with a stored neighbour of its predecessor chain. -/
def disagrees (e : SourceEvent) : Bool :=
  (store.event e.streamId (e.sequence - 1)).any (fun before =>
    e.predecessorSnapshotId ≠ some before.snapshotId) ||
  (store.event e.streamId (e.sequence + 1)).any fun after =>
    after.predecessorSnapshotId ≠ some e.snapshotId

/-- The constraints of an event row on its place in the chain, and that a stream bound to a captured
origin takes no flat event. -/
def wellPlaced (e : SourceEvent) : Bool :=
  decide (0 < e.sequence) && (e.sequence == 1) == e.predecessorSnapshotId.isNone &&
    (e.manifestFormat != .flat_v1 || (store.origins e.streamId).isNone)

/-- The row of a stream once its newest head is announced: opened by its first event, or advanced. -/
def announced (stream : Option SourceStream) (repositoryId principalId : String) (e : SourceEvent) :
    SourceStream :=
  match stream with
  | none => {
      repositoryId
      principalId
      announcedSequence := e.sequence
      coveredSequence := 0
      processedSequence := 0
      pendingDependent := none
      updatedAtUs := e.recordedAtUs
      auditRef := e.auditRef }
  | some stream => {
      stream with
      announcedSequence := max stream.announcedSequence e.sequence
      updatedAtUs := max stream.updatedAtUs e.recordedAtUs
      auditRef := e.auditRef }

/-- The part `record_source_event` and `record_captured_source_event` share: the pending window, the
stored neighbours, the announced head, the event and the coverage barrier. -/
def appendEvent (repositoryId principalId : String) (e : SourceEvent) :
    Except EngineeringError EngineeringStore := do
  let stream := announced (store.streams e.streamId) repositoryId principalId e
  require (e.sequence ≤ stream.coveredSequence + PENDING_WINDOW) (.SourceWindowExceeded e.streamId)
  require (disagrees store e = false) (.SourceConflict "the event disagrees with its stored neighbours")
  require (wellPlaced store e = true) .IntegrityError
  let store := { store with events := store.events ++ [e] }
  let covered ← advanceCoverage store e.streamId stream.coveredSequence
  pure (store.setStream e.streamId { stream with coveredSequence := covered })

section RecordSourceEvent

variable (contentDigest : Manifest → String)

/-- The event a source record appends. -/
def SourceRecord.event (record : SourceRecord) (settlement : MutationSettlement) : SourceEvent where
  streamId := record.streamId
  sequence := record.sequence
  snapshotId := record.snapshotId
  predecessorSnapshotId := record.predecessorSnapshotId
  manifest := record.manifest
  manifestDigest := contentDigest record.manifest
  manifestFormat := .flat_v1
  eventDigest := record.eventDigest
  recordedAtUs := settlement.settledAtUs
  auditRef := settlement.auditRef

/-- `record_source_event` for a sequence the stream does not hold. -/
def recordNewSourceEvent (settlement : MutationSettlement) (principalId : String)
    (record : SourceRecord) : Except EngineeringError (EngineeringStore × Disposition) := do
  require (store.snapshots record.snapshotId = none)
    (.SourceConflict "the snapshot identity is already recorded")
  let snapshot : Snapshot := {
    repositoryId := record.repositoryId
    manifestDigest := contentDigest record.manifest
    captureStatus := record.captureStatus }
  let snapshots := Function.update store.snapshots record.snapshotId (some snapshot)
  let appended ← appendEvent { store with snapshots } record.repositoryId principalId
    (record.event contentDigest settlement)
  pure (appended, .recorded)

/-- `record_source_event`. -/
def recordSourceEvent (settlement : MutationSettlement) (principalId : String)
    (record : SourceRecord) : Except EngineeringError (EngineeringStore × Disposition) :=
  match store.streams record.streamId with
  | none => recordNewSourceEvent store contentDigest settlement principalId record
  | some stream => do
    require (stream.principalId = principalId) (.SourceStreamForeignPrincipal record.streamId)
    require (stream.repositoryId = record.repositoryId)
      (.SourceConflict "the stream is bound to another repository")
    match store.event record.streamId record.sequence with
    | none => recordNewSourceEvent store contentDigest settlement principalId record
    | some existing => do
      require (existing.eventDigest = record.eventDigest)
        (.SourceConflict "the stream sequence already holds another event")
      pure (store, .already_recorded)

end RecordSourceEvent

section RecordCapturedSourceEvent

variable (capturedDigest : CapturedSourceCommit → SnapshotCapture → String)

/-- The event a captured commit appends: the empty manifest stands for the captured one. -/
def CapturedSourceCommit.event (request : CapturedSourceCommit) (capture : SnapshotCapture)
    (settlement : MutationSettlement) : SourceEvent where
  streamId := request.streamId
  sequence := request.sequence
  snapshotId := request.snapshotId
  predecessorSnapshotId := request.predecessorSnapshotId
  manifest := []
  manifestDigest := capture.richManifestDigest
  manifestFormat := .captured_v1
  eventDigest := capturedDigest request capture
  recordedAtUs := settlement.settledAtUs
  auditRef := settlement.auditRef

def SnapshotCapture.origin (capture : SnapshotCapture) : StreamOrigin where
  repositoryId := capture.repositoryId
  installationId := capture.installationId
  checkoutId := capture.checkoutId

/-- `_sealed_capture`: the seal, if the snapshot row it freezes still agrees with it. -/
def sealedCapture (snapshotId : String) : Except EngineeringError SnapshotCapture :=
  match store.captures snapshotId with
  | none => .error (.CapturedSourceNotFound snapshotId)
  | some capture => do
    require (store.snapshots snapshotId = some {
        repositoryId := capture.repositoryId
        manifestDigest := capture.richManifestDigest
        captureStatus := capture.captureStatus })
      (.SourceConflict "the sealed capture relations no longer agree")
    pure capture

/-- `record_captured_source_event` for a sequence the stream does not hold. -/
def recordNewCapturedEvent (settlement : MutationSettlement) (principalId : String)
    (request : CapturedSourceCommit) (capture : SnapshotCapture) :
    Except EngineeringError (EngineeringStore × Disposition) := do
  require (store.snapshotEvent request.snapshotId = none)
    (.SourceConflict "the snapshot identity is already recorded")
  let origins := Function.update store.origins request.streamId (some capture.origin)
  let appended ← appendEvent { store with origins } capture.repositoryId principalId
    (request.event capturedDigest capture settlement)
  pure (appended, .recorded)

/-- What a captured commit demands of the origin of a registered stream. -/
def validateOrigin (streamId installationId : String) (capture : SnapshotCapture) :
    Except EngineeringError Unit :=
  match store.origins streamId with
  | none => .error (.SourceConflict "a legacy source stream has no captured origin")
  | some origin => do
    require (origin.installationId = installationId)
      (.CapturedSourceUnauthorized "the stream belongs to another installation")
    require (origin = capture.origin)
      (.SourceConflict "the stream is bound to another captured origin")

/-- `record_captured_source_event` on its sealed capture. -/
def recordCapture (settlement : MutationSettlement) (principalId installationId : String)
    (request : CapturedSourceCommit) (capture : SnapshotCapture) :
    Except EngineeringError (EngineeringStore × Disposition) :=
  match store.streams request.streamId with
  | none => recordNewCapturedEvent store capturedDigest settlement principalId request capture
  | some stream => do
    require (stream.principalId = principalId) (.SourceStreamForeignPrincipal request.streamId)
    require (stream.repositoryId = capture.repositoryId)
      (.SourceConflict "the stream is bound to another repository")
    validateOrigin store request.streamId installationId capture
    match store.event request.streamId request.sequence with
    | none => recordNewCapturedEvent store capturedDigest settlement principalId request capture
    | some existing => do
      require (existing.eventDigest = capturedDigest request capture ∧
          existing.manifestFormat = .captured_v1)
        (.SourceConflict "the stream sequence already holds another event")
      pure (store, .already_recorded)

/-- `record_captured_source_event`. -/
def recordCapturedSourceEvent (settlement : MutationSettlement) (principalId installationId : String)
    (request : CapturedSourceCommit) : Except EngineeringError (EngineeringStore × Disposition) := do
  let capture ← sealedCapture store request.snapshotId
  require (capture.repositoryId = request.repositoryId)
    (.SourceConflict "the capture belongs to another repository")
  require (capture.installationId = installationId)
    (.CapturedSourceUnauthorized "the capture belongs to another installation")
  require (∀ stated ∈ request.expectedManifestDigest, stated = capture.richManifestDigest)
    (.CapturedSourcePreconditionFailed request.snapshotId)
  recordCapture store capturedDigest settlement principalId installationId request capture

end RecordCapturedSourceEvent

/-! ## Snapshots, dependency sets and reviews -/

/-- A snapshot captured and sealed, by `engineering.snapshot.capture`. -/
def sealCapture (snapshotId : String) (capture : SnapshotCapture) :
    Except EngineeringError EngineeringStore := do
  require (store.snapshots snapshotId = none) .IntegrityError
  let snapshot : Snapshot := {
    repositoryId := capture.repositoryId
    manifestDigest := capture.richManifestDigest
    captureStatus := capture.captureStatus }
  pure {
    store with
    snapshots := Function.update store.snapshots snapshotId (some snapshot)
    captures := Function.update store.captures snapshotId (some capture) }

/-- Whether a set's baseline is a recorded source event of its repository and stream. -/
def baselineRecorded (set : DependencySet) : Bool :=
  (store.snapshotEvent set.snapshotId).any (fun e => e.streamId = set.streamId) &&
  (store.streams set.streamId).any fun stream => stream.repositoryId = set.repositoryId

/-- `_seal_dependency_set`: a version is sealed once. -/
def sealDependencySet (set : DependencySet) : Except EngineeringError EngineeringStore := do
  require (∀ sealedSet ∈ store.dependencySets, sealedSet.key ≠ set.key) .IntegrityError
  pure { store with dependencySets := store.dependencySets ++ [set] }

/-- `record_dependency_set`. -/
def recordDependencySet (set : DependencySet) : Except EngineeringError EngineeringStore := do
  require (baselineRecorded store set = true) (.DependencyBaselineUnavailable set.snapshotId)
  sealDependencySet store set

/-- `carry_dependency_set`: the set of a version under the version a transition minted, if it has
one. -/
def carryDependencySet (recordId sourceVersion targetVersion : String) :
    Except EngineeringError (EngineeringStore × Bool) :=
  match store.dependencySets.find? fun set => set.key = toLex (recordId, sourceVersion) with
  | none => .ok (store, false)
  | some set =>
    if baselineRecorded store set = false then .ok (store, false)
    else do
      let carried ← sealDependencySet store { set with version := targetVersion }
      pure (carried, true)

/-- `record_assessment`. -/
def recordAssessment (row : Assessment) : Except EngineeringError EngineeringStore := do
  require (0 < row.assessedAtUs) .IntegrityError
  pure { store with assessments := store.assessments ++ [row] }

end OmniviaCore.Engineering
