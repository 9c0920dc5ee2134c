import OmniviaCore.Lib.SortBy
import OmniviaCore.Lib.Rows
import OmniviaCore.Lib.Check

/-!
# The engineering source tables

The rows of one workspace that `storage/engineering_source.py` and
`storage/engineering_invalidation.py` read and write, and the reads of them: an event by its stream and
sequence, a covered snapshot, and the evaluator of one record version at a target. A manifest is the
association list of its paths, and the digest of a manifest's canonical document is `contentDigest`.
-/

namespace OmniviaCore.Engineering

open Lib

inductive ManifestFormat where
  | flat_v1 | captured_v1
  deriving DecidableEq

inductive CaptureStatus where
  | complete | incomplete
  deriving DecidableEq

inductive SelectorType where
  | whole_file | source_span | symbol | config_key | schema_contract | external_evidence
  deriving DecidableEq

/-- What a change of a dependency means for its record. -/
inductive Meaning where
  | must_match | requires_revalidation_on_change | context_only
  deriving DecidableEq

inductive DependencyCoverage where
  | complete | partial_
  deriving DecidableEq

inductive AssessmentStatus where
  | matched | potentially_stale | invalid | unknown
  deriving DecidableEq

inductive AssessmentBasis where
  | deterministic | review
  deriving DecidableEq

/-- The digest of each indexed path. -/
abbrev Manifest := List (String × String)

/-- `(record_id, version)`, in the order of the dependency cursor. -/
abbrev DependentKey := Lex (String × String)

/-- How far a stream was announced, covered and processed, and the dependent a pass stopped at. -/
structure SourceStream where
  repositoryId : String
  principalId : String
  announcedSequence : Nat
  coveredSequence : Nat
  processedSequence : Nat
  pendingDependent : Option DependentKey
  updatedAtUs : Int
  auditRef : String
  deriving DecidableEq

/-- One recorded change of a stream, from the snapshot before it. -/
structure SourceEvent where
  streamId : String
  sequence : Nat
  snapshotId : String
  predecessorSnapshotId : Option String
  manifest : Manifest
  manifestDigest : String
  manifestFormat : ManifestFormat
  eventDigest : String
  recordedAtUs : Int
  auditRef : String
  deriving DecidableEq

structure Snapshot where
  repositoryId : String
  manifestDigest : String
  captureStatus : CaptureStatus
  deriving DecidableEq

/-- The sealed header of a captured snapshot and its indexed files. -/
structure SnapshotCapture where
  repositoryId : String
  installationId : String
  checkoutId : String
  richManifestDigest : String
  captureStatus : CaptureStatus
  files : Manifest

/-- The checkout that a captured stream is bound to. -/
structure StreamOrigin where
  repositoryId : String
  installationId : String
  checkoutId : String
  deriving DecidableEq

/-- What a record relies on, and the digest it had when it was sealed. -/
structure Dependency where
  selectorType : SelectorType
  selector : String
  meaning : Meaning
  expectedDigest : Option String
  deriving DecidableEq

/-- A set row with the dependency rows it seals. -/
structure DependencySet where
  recordId : String
  version : String
  repositoryId : String
  streamId : String
  snapshotId : String
  coverage : DependencyCoverage
  dependencies : List Dependency
  deriving DecidableEq

/-- What was found of one record version at a target. -/
structure Assessment where
  recordId : String
  version : String
  targetSnapshotId : String
  status : AssessmentStatus
  basis : AssessmentBasis
  assessedAtUs : Int
  auditRef : String

def DependencySet.key (set : DependencySet) : DependentKey := toLex (set.recordId, set.version)

def Assessment.key (row : Assessment) : DependentKey := toLex (row.recordId, row.version)

/-- The rows of one workspace, and the generation its writer holds. -/
structure EngineeringStore where
  fencingGeneration : Nat
  streams : String → Option SourceStream
  origins : String → Option StreamOrigin
  events : List SourceEvent
  snapshots : String → Option Snapshot
  captures : String → Option SnapshotCapture
  dependencySets : List DependencySet
  assessments : List Assessment

namespace EngineeringStore

def empty : EngineeringStore where
  fencingGeneration := 0
  streams _ := none
  origins _ := none
  events := []
  snapshots _ := none
  captures _ := none
  dependencySets := []
  assessments := []

variable (store : EngineeringStore)

/-- `_event`. -/
def event (streamId : String) (sequence : Nat) : Option SourceEvent :=
  store.events.find? fun e => e.streamId = streamId ∧ e.sequence = sequence

/-- The event that recorded a snapshot. -/
def snapshotEvent (snapshotId : String) : Option SourceEvent :=
  store.events.find? fun e => e.snapshotId = snapshotId

/-- The write of one stream row. -/
def setStream (streamId : String) (stream : SourceStream) : EngineeringStore :=
  { store with streams := Function.update store.streams streamId (some stream) }

end EngineeringStore

/-- A snapshot the stream has covered, as the evaluator reads it. -/
structure CoveredSnapshot where
  repositoryId : String
  streamId : String
  sequence : Nat
  snapshotId : String
  captureStatus : CaptureStatus
  manifestDigest : String
  manifest : Manifest
  representation : ManifestFormat

section Reads

variable (contentDigest : Manifest → String) (store : EngineeringStore)

/-- `sequenced_event`: the stored event, if its snapshot is recorded and its body has its digest. -/
def sequencedEvent (streamId : String) (sequence : Nat) : Option SourceEvent := do
  let e ← store.event streamId sequence
  let _ ← store.snapshots e.snapshotId
  if contentDigest e.manifest = e.manifestDigest then some e else none

/-- The manifest of a covered event by its format: the stored body, or none of it for a captured one
whose sealed header agrees. -/
def coveredManifest (stream : SourceStream) (e : SourceEvent) (snapshot : Snapshot) : Option Manifest :=
  match e.manifestFormat with
  | .flat_v1 => if contentDigest e.manifest = e.manifestDigest then some e.manifest else none
  | .captured_v1 => do
    let header ← store.captures e.snapshotId
    if header.repositoryId = stream.repositoryId ∧ header.richManifestDigest = e.manifestDigest ∧
        header.captureStatus = snapshot.captureStatus then some [] else none

/-- `covered_snapshot`, with the repository stated. -/
def coveredSnapshot (snapshotId repositoryId : String) : Option CoveredSnapshot := do
  let e ← store.snapshotEvent snapshotId
  let stream ← store.streams e.streamId
  let snapshot ← store.snapshots snapshotId
  if stream.coveredSequence < e.sequence ∨ repositoryId ≠ stream.repositoryId then none
  else
    let manifest ← coveredManifest contentDigest store stream e snapshot
    some {
      repositoryId := stream.repositoryId
      streamId := e.streamId
      sequence := e.sequence
      snapshotId
      captureStatus := snapshot.captureStatus
      manifestDigest := e.manifestDigest
      manifest
      representation := e.manifestFormat }

/-! ## The evaluator -/

/-- The findings of `decide` so far: `invalid`, `stale`, `unknown` and the count of required
dependencies. -/
structure Findings where
  invalid : Bool
  stale : Bool
  unknown : Bool
  required : Nat

/-- One turn of `decide`'s loop. -/
def Findings.add (baseline target : CoveredSnapshot) (found : Findings) (dependency : Dependency) :
    Findings :=
  if dependency.selectorType ≠ .whole_file then { found with unknown := true }
  else if dependency.meaning = .context_only then found
  else
    let found := { found with required := found.required + 1 }
    if dependency.expectedDigest = none ∨
        baseline.manifest.lookup dependency.selector ≠ dependency.expectedDigest then
      { found with unknown := true }
    else
      let observed := target.manifest.lookup dependency.selector
      if observed = dependency.expectedDigest then found
      else if observed.isSome then { found with stale := true }
      else if target.captureStatus = .complete then { found with invalid := true }
      else { found with unknown := true }

/-- `decide`. -/
def decideApplicability (dependencies : List Dependency) (baseline target : CoveredSnapshot)
    (qualified : Bool) : AssessmentStatus :=
  let found := dependencies.foldl (Findings.add baseline target) {
    invalid := false
    stale := false
    unknown := !qualified || baseline.captureStatus != .complete || target.captureStatus != .complete
    required := 0 }
  if found.invalid then .invalid
  else if found.stale then .potentially_stale
  else if found.unknown || found.required == 0 then .unknown
  else .matched

/-- `captured_manifest_lookup`: the indexed files of a captured snapshot; a flat one has its manifest. -/
def hydrated (snapshot : CoveredSnapshot) : CoveredSnapshot :=
  match snapshot.representation with
  | .flat_v1 => snapshot
  | .captured_v1 =>
    { snapshot with manifest := ((store.captures snapshot.snapshotId).map (·.files)).getD [] }

/-- `evaluate_applicability`. -/
def evaluateApplicability (key : DependentKey) (evidenceAvailable : Bool) (target : CoveredSnapshot) :
    AssessmentStatus :=
  match store.dependencySets.find? fun set => set.key = key with
  | none => .unknown
  | some set =>
    if set.repositoryId ≠ target.repositoryId ∨ set.streamId ≠ target.streamId then .unknown
    else
      match coveredSnapshot contentDigest store set.snapshotId set.repositoryId with
      | none => .unknown
      | some baseline =>
        if baseline.streamId ≠ target.streamId then .unknown
        else
          decideApplicability set.dependencies (hydrated store baseline) (hydrated store target)
            (evidenceAvailable && set.coverage == .complete)

end Reads

end OmniviaCore.Engineering
