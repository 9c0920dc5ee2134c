import OmniviaCore.Connector.Cursors

/-!
# Admitting a batch

`validate_batch` of `connector/host.py`. A batch is admitted or refused as a whole and in memory: the
deadline and the ceilings, each observation's shape, the duplicates, the material a run resolved, and
last the successor, against the record the host presented.
-/

namespace OmniviaCore.Connector

open Lib

/-! ## Values -/

def ERROR_CODE_DEADLINE_EXCEEDED : String := "deadline_exceeded"

def ERROR_CODE_INVALID_REQUEST : String := "invalid_request"

def ERROR_CONNECTOR_SECRET_EXPOSED : String := "connector_secret_exposed"

def MAX_METADATA_DEPTH : Int := 16

/-- `IdentityStability`. -/
inductive IdentityStability where
  | sourceNative
  | locatorDerived
  deriving DecidableEq

/-- `DeletionSignal`. -/
inductive DeletionSignal where
  | none
  | explicitDelete
  | absentFromWindow
  deriving DecidableEq

/-- `Observation`, of which the instants are read by nothing here. -/
structure Observation where
  sourceNativeId : String
  sourceLocator : String
  metadataBytes : Nat
  contentChecksum : Option String
  mediaType : Option String
  sourceVersion : Option String
  permissionLabels : List String
  deletionSignal : DeletionSignal
  metadataJson : String
  content : Option Bytes
  deriving DecidableEq

/-- `ItemFailure`. -/
structure ItemFailure where
  sourceNativeId : String
  error : String
  detail : String
  deriving DecidableEq

/-- `Batch`. -/
structure Batch where
  observations : List Observation
  successorCursor : CursorState
  itemFailures : List ItemFailure

/-- `PollContext` with its `PollLimits` and `Deadline`: what admission reads. -/
structure PollContext where
  workspaceId : String
  maxBatchItems : Nat
  maxItemMetadataBytes : Nat
  maxRunBytes : Nat
  expiresAtUs : Nat
  workspaceId_valid : isAsciiIdentifier workspaceId = true

/-- `ConnectorDescriptor`: what admission reads. -/
structure ConnectorDescriptor where
  connectorId : String
  identityStability : IdentityStability
  connectorId_valid : isAsciiIdentifier connectorId = true

/-- `BatchVerdict`. -/
structure BatchVerdict where
  outcome : String
  observations : List Observation
  itemFailures : List ItemFailure
  successor : CursorRecord
  parentDigest : Bytes
  runBytesAfter : Nat

/-! ## Resolved material -/

/-- A character of a base64 alphabet, of which the last two are given. -/
def base64Byte (c62 c63 : UInt8) (n : Nat) : UInt8 :=
  if n < 26 then UInt8.ofNat (65 + n)
  else if n < 52 then UInt8.ofNat (97 + (n - 26))
  else if n < 62 then UInt8.ofNat (48 + (n - 52))
  else if n = 62 then c62 else c63

/-- `b64encode`. -/
def base64Encode (c62 c63 : UInt8) : Bytes → Bytes
  | a :: b :: c :: rest =>
    let n := a.toNat * 65536 + b.toNat * 256 + c.toNat
    base64Byte c62 c63 (n / 262144) :: base64Byte c62 c63 (n / 4096 % 64) ::
      base64Byte c62 c63 (n / 64 % 64) :: base64Byte c62 c63 (n % 64) :: base64Encode c62 c63 rest
  | [a, b] =>
    let n := a.toNat * 65536 + b.toNat * 256
    [base64Byte c62 c63 (n / 262144), base64Byte c62 c63 (n / 4096 % 64),
      base64Byte c62 c63 (n / 64 % 64), 61]
  | [a] =>
    let n := a.toNat * 65536
    [base64Byte c62 c63 (n / 262144), base64Byte c62 c63 (n / 4096 % 64), 61, 61]
  | [] => []

/-- A hexadecimal digit, whose letters start at a byte. -/
def hexByte (letters : UInt8) (n : Nat) : UInt8 :=
  if n < 10 then UInt8.ofNat (48 + n) else letters + UInt8.ofNat (n - 10)

/-- `hexlify`. -/
def hexlify (letters : UInt8) (material : Bytes) : Bytes :=
  material.flatMap fun byte => [hexByte letters (byte.toNat / 16), hexByte letters (byte.toNat % 16)]

/-- `declared_encodings`. -/
def declaredEncodings (material : Bytes) : List Bytes :=
  [material, ((base64Encode 45 95 material).reverse.dropWhile (· = 61)).reverse,
    base64Encode 43 47 material, hexlify 97 material, hexlify 65 material]

/-- `contains_known_material`. -/
def containsKnownMaterial (haystack : Bytes) (resolved : List Bytes) : Bool :=
  resolved.any fun material =>
    (declaredEncodings material).any fun form => form ≠ [] && form <:+: haystack

/-! ## Observations -/

/-- The state of the scan of `metadata_depth`. -/
structure DepthScan where
  depth : Int
  deepest : Int
  inString : Bool
  escaped : Bool

def DepthScan.read (scan : DepthScan) (c : Char) : DepthScan :=
  if scan.inString then
    if scan.escaped then { scan with escaped := false }
    else if c = '\\' then { scan with escaped := true }
    else if c = '"' then { scan with inString := false }
    else scan
  else if c = '"' then { scan with inString := true }
  else if c = '\x7b' ∨ c = '[' then
    { scan with depth := scan.depth + 1, deepest := max scan.deepest (scan.depth + 1) }
  else if c = '\x7d' ∨ c = ']' then { scan with depth := scan.depth - 1 }
  else scan

/-- `metadata_depth`. -/
def metadataDepth (document : String) : Int :=
  (document.toList.foldl DepthScan.read ⟨0, 0, false, false⟩).deepest

/-- `_locator_defect`: a parent-directory segment. -/
def locatorDefect (locator : String) : Bool :=
  ((locator.toList.map fun c => if c = '\\' then '/' else c).splitOn '/').any (· = ['.', '.'])

variable (sha256 : Bytes → Bytes)

/-- `"sha256:" + hashlib.sha256(content).hexdigest()`. -/
def contentChecksumOf (content : Bytes) : String :=
  String.ofList ("sha256:".toList ++ (hexlify 97 (sha256 content)).map fun b => Char.ofNat b.toNat)

/-- What `validate_batch` asks of the content of an observation. -/
def validateContent (observation : Observation) : Except ConnectorRefused Unit :=
  match observation.content with
  | none => pure ()
  | some content => require (observation.contentChecksum = some (contentChecksumOf sha256 content))
      ⟨ERROR_CODE_INVALID_REQUEST, "content_checksum"⟩

/-- What `validate_batch` asks of each observation. -/
def validateObservation (acceptedPermissionLabels : Option (List String)) (observation : Observation) :
    Except ConnectorRefused Unit := do
  require (locatorDefect observation.sourceLocator = false)
    ⟨ERROR_CODE_INVALID_REQUEST, "source_locator"⟩
  require (metadataDepth observation.metadataJson ≤ MAX_METADATA_DEPTH)
    ⟨ERROR_CODE_INVALID_REQUEST, "metadata_json"⟩
  validateContent sha256 observation
  require (∀ accepted ∈ acceptedPermissionLabels, ∀ label ∈ observation.permissionLabels,
      label ∈ accepted)
    ⟨ERROR_CODE_INVALID_REQUEST, "a source grant maps to no accepted permission label"⟩

/-- The loop of `validate_batch` that collapses duplicates: what is admitted, and the items over the
metadata ceiling. -/
def admitObservations (ctx : PollContext) (reconciliationAuthorized : Bool) :
    List (String × Option String) → List Observation → List Observation × List ItemFailure
  | _, [] => ([], [])
  | seen, observation :: rest =>
    let key := (observation.sourceNativeId, observation.contentChecksum)
    if ctx.maxItemMetadataBytes < observation.metadataBytes then
      let (admitted, failures) := admitObservations ctx reconciliationAuthorized seen rest
      (admitted, ⟨observation.sourceNativeId, ERROR_CODE_SIZE_LIMIT_EXCEEDED,
        "item metadata exceeds the declared ceiling"⟩ :: failures)
    else if key ∈ seen then admitObservations ctx reconciliationAuthorized seen rest
    else if observation.deletionSignal = .absentFromWindow ∧ reconciliationAuthorized = false then
      admitObservations ctx reconciliationAuthorized (key :: seen) rest
    else
      let (admitted, failures) := admitObservations ctx reconciliationAuthorized (key :: seen) rest
      (observation :: admitted, failures)

/-- The binding `validate_batch` takes from its own context and descriptor. -/
def contextBinding (ctx : PollContext) (descriptor : ConnectorDescriptor) : CursorBinding where
  workspaceId := ctx.workspaceId
  connectorId := descriptor.connectorId
  workspaceId_valid := ctx.workspaceId_valid
  connectorId_valid := descriptor.connectorId_valid

/-- The outcome of an admitted batch. -/
def batchOutcome (descriptor : ConnectorDescriptor) (record : CursorRecord) (successor : CursorState)
    (admitted : List Observation) (failures : List ItemFailure) : String :=
  if descriptor.identityStability = .locatorDerived ∧ admitted ≠ [] then "deferred_to_reconciliation"
  else if admitted = [] ∧ failures = [] ∧ successor.witnessSeq = record.state.witnessSeq then
    "no_change"
  else if failures ≠ [] ∧ admitted = [] then "dead_lettered"
  else "accepted"

/-- `validate_batch`. -/
def validateBatch (batch : Batch) (ctx : PollContext) (record : CursorRecord)
    (descriptor : ConnectorDescriptor) (nowUs runBytesSpent : Nat) (resolvedMaterial : List Bytes)
    (acceptedPermissionLabels : Option (List String)) (reconciliationAuthorized : Bool) :
    Except ConnectorRefused BatchVerdict := do
  require (nowUs ≤ ctx.expiresAtUs)
    ⟨ERROR_CODE_DEADLINE_EXCEEDED, "the poll deadline expired before commit"⟩
  require (batch.observations.length ≤ ctx.maxBatchItems) ⟨ERROR_CODE_SIZE_LIMIT_EXCEEDED,
    s!"batch declares {batch.observations.length} items over the {ctx.maxBatchItems} ceiling"⟩
  batch.observations.forM (validateObservation sha256 acceptedPermissionLabels)
  let (admitted, oversized) := admitObservations ctx reconciliationAuthorized [] batch.observations
  let failures := batch.itemFailures ++ oversized
  let runBytesAfter := runBytesSpent + (admitted.map Observation.metadataBytes).sum
  require (runBytesAfter ≤ ctx.maxRunBytes)
    ⟨ERROR_CODE_SIZE_LIMIT_EXCEEDED, "the run byte ceiling would be exceeded"⟩
  let authored := batch.successorCursor.payload ::
    (batch.observations.map fun item => encodeText item.sourceLocator) ++
      failures.map fun item => encodeText item.detail
  require (∀ candidate ∈ authored, containsKnownMaterial candidate resolvedMaterial = false)
    ⟨ERROR_CONNECTOR_SECRET_EXPOSED, "connector-authored bytes carry material this run resolved"⟩
  let parentDigest ← validateSuccessor sha256 record batch.successorCursor (contextBinding ctx descriptor)
  let outcome := batchOutcome descriptor record batch.successorCursor admitted failures
  pure
    { outcome
      observations := if outcome = "no_change" then [] else admitted
      itemFailures := if outcome = "no_change" then [] else failures
      successor := ⟨contextBinding ctx descriptor, batch.successorCursor⟩
      parentDigest
      runBytesAfter }

end OmniviaCore.Connector
