import OmniviaCore.CanonicalJson.PlainLoads
import OmniviaCore.CanonicalJson.Reordering
import OmniviaCore.Connector.Batches

/-!
# Cursor checkpoints

`storage/connectors.py`: a cursor is a checkpoint of its run, written as canonical JSON with a digest. Two
document shapes share the checkpoint kind, the cursor of two fields and the record of a binding and a state,
and the reader takes the last checkpoint over all runs of the connector.
-/

namespace OmniviaCore.Connector

open CanonicalJson Lib

abbrev Chars := List Char

def CURSOR_CHECKPOINT_KIND : Chars := "connector.cursor".toList

def LEGACY_CURSOR_KEYS : List Chars := ["state_version", "token"].map String.toList

def SPI_CURSOR_KEYS : List Chars := ["binding", "state"].map String.toList

def SPI_CURSOR_KEYS_WITH_MIGRATION : List Chars :=
  ["binding", "state", "migration_evidence"].map String.toList

def SPI_BINDING_KEYS : List Chars := ["workspace_id", "connector_id"].map String.toList

def SPI_STATE_KEYS : List Chars :=
  ["state_version", "payload", "witness_seq", "predecessor_digest"].map String.toList

def SPI_MIGRATION_KEYS : List Chars := ["before_digest", "after_digest"].map String.toList

/-- `ConnectorCursor`. -/
structure ConnectorCursor where
  stateVersion : ℕ
  token : Str
  stateVersion_pos : 1 ≤ stateVersion
  stateVersion_le : stateVersion ≤ 2 ^ 31 - 1
  token_ne_nil : token ≠ []
  token_length : token.length ≤ 4096
  token_nul : CodePoint.scalar '\x00' ∉ token

/-- Sixty-four digits of lowercase hex. -/
def isDigestText (text : Chars) : Bool :=
  text.length == 64 && text.all fun c => c.isDigit || ('a' ≤ c && c ≤ 'f')

/-- The digests a migration is witnessed by. -/
structure MigrationEvidence where
  beforeDigest : Chars
  afterDigest : Chars
  beforeDigest_valid : isDigestText beforeDigest = true
  afterDigest_valid : isDigestText afterDigest = true

/-! ## Tables -/

/-- A row of `omnivia_connector_sync_runs`. -/
structure SyncRun where
  workspaceId : Chars
  connectorId : Chars
  syncSequence : ℕ
  runId : Chars
  deriving DecidableEq

def SyncRun.key (run : SyncRun) : Chars × Chars × ℕ := (run.workspaceId, run.connectorId, run.syncSequence)

/-- A row of `omnivia_job_checkpoints`. -/
structure Checkpoint where
  workspaceId : Chars
  jobId : Chars
  checkpointSequence : ℕ
  checkpointKind : Chars
  checkpointJson : Chars
  checkpointDigest : Chars

/-- The two tables, with the primary key of the runs. -/
structure CheckpointStore where
  runs : List SyncRun
  checkpoints : List Checkpoint
  runs_nodup : (runs.map SyncRun.key).Nodup

/-! ## Writing -/

/-- `.decode("ascii")`. -/
def decodeAscii (bytes : Bytes) : Chars := bytes.map fun b => Char.ofNat b.toNat

/-- `.hex()`. -/
def hexText (bytes : Bytes) : Chars := decodeAscii (hexlify 97 bytes)

/-- `bytes.fromhex`. -/
def bytesOfHex : Chars → Bytes
  | a :: b :: rest => UInt8.ofNat ((hexValue a).getD 0 * 16 + (hexValue b).getD 0) :: bytesOfHex rest
  | _ => []

def namedMembers (members : List (Chars × Value)) : Value := .mapping (members.map withName)

def charsValue (text : Chars) : Value := .str (ofChars text)

def predecessorToWire : Option Bytes → Value
  | none => .none
  | some digest => charsValue (hexText digest)

/-- `_spi_state_to_wire`. -/
def spiStateToWire (state : CursorState) : Value :=
  namedMembers
    [("state_version".toList, .int state.stateVersion),
      ("payload".toList, charsValue (decodeAscii state.payload)),
      ("witness_seq".toList, .int state.witnessSeq),
      ("predecessor_digest".toList, predecessorToWire state.predecessorDigest)]

def bindingToWire (binding : CursorBinding) : Value :=
  namedMembers
    [("workspace_id".toList, charsValue binding.workspaceId.toList),
      ("connector_id".toList, charsValue binding.connectorId.toList)]

def evidenceToWire (evidence : MigrationEvidence) : Value :=
  namedMembers
    [("before_digest".toList, charsValue evidence.beforeDigest),
      ("after_digest".toList, charsValue evidence.afterDigest)]

/-- A checkpoint document, with or without a member for the evidence. -/
def checkpointDocument (record : CursorRecord) (evidence : Option Value) : Value :=
  namedMembers
    ([("binding".toList, bindingToWire record.binding), ("state".toList, spiStateToWire record.state)] ++
      evidence.toList.map fun value => ("migration_evidence".toList, value))

/-- The payload `write_spi_cursor_checkpoint` stores. -/
def spiCheckpointText (record : CursorRecord) (evidence : Option MigrationEvidence) :
    Except DumpsError Chars :=
  dumps (checkpointDocument record (evidence.map evidenceToWire))

/-- `ConnectorCursor.to_wire`. -/
def ConnectorCursor.toWire (cursor : ConnectorCursor) : Value :=
  .mapping [(.name (ofChars "state_version".toList), .int cursor.stateVersion),
    (.name (ofChars "token".toList), .str cursor.token)]

/-- `next_checkpoint_sequence`. -/
def nextCheckpointSequence (store : CheckpointStore) (workspaceId runId : Chars) : ℕ :=
  ((store.checkpoints.filter fun c => c.workspaceId = workspaceId ∧ c.jobId = runId).map
    fun c => c.checkpointSequence + 1).foldl max 0

variable (sha256 : Bytes → Bytes)

/-- `_digest`. -/
def digestOf (document : Chars) : Chars :=
  (contentChecksumOf sha256 (encodeText (String.ofList document))).toList

/-- The checkpoint of a payload. -/
def newCheckpoint (store : CheckpointStore) (workspaceId runId payload : Chars) : Checkpoint :=
  ⟨workspaceId, runId, nextCheckpointSequence store workspaceId runId, CURSOR_CHECKPOINT_KIND, payload,
    digestOf sha256 payload⟩

def insertCheckpoint (store : CheckpointStore) (checkpoint : Checkpoint) : CheckpointStore :=
  { store with checkpoints := store.checkpoints ++ [checkpoint] }

/-- `write_spi_cursor_checkpoint`. -/
def writeSpiCursorCheckpoint (store : CheckpointStore) (workspaceId runId : Chars) (record : CursorRecord)
    (evidence : Option MigrationEvidence) : Except DumpsError (ℕ × CheckpointStore) := do
  let payload ← spiCheckpointText record evidence
  let checkpoint := newCheckpoint sha256 store workspaceId runId payload
  pure (checkpoint.checkpointSequence, insertCheckpoint store checkpoint)

/-- `write_cursor_checkpoint`. -/
def writeCursorCheckpoint (store : CheckpointStore) (workspaceId runId : Chars) (cursor : ConnectorCursor) :
    Except DumpsError (ℕ × CheckpointStore) := do
  let document ← dumps cursor.toWire
  let checkpoint := newCheckpoint sha256 store workspaceId runId document
  pure (checkpoint.checkpointSequence, insertCheckpoint store checkpoint)

/-! ## Reading -/

/-- A `str` member, without surrogates: one with a lone surrogate passes none of the checks of its text. -/
def textMember (members : List (Key × Value)) (name : String) : Option Chars :=
  match lookup members name.toList with
  | some (.str s) => toChars s
  | _ => none

/-- `CursorBinding`, when its identifiers are in their domain. -/
def makeBinding (workspaceId connectorId : Chars) : Option CursorBinding :=
  if h : isAsciiIdentifier (String.ofList workspaceId) = true ∧
      isAsciiIdentifier (String.ofList connectorId) = true then
    some ⟨String.ofList workspaceId, String.ofList connectorId, h.1, h.2⟩
  else none

def bindingFromWire : Value → Option CursorBinding
  | .mapping members => do
    guard (hasMembers members SPI_BINDING_KEYS = true)
    let workspaceId ← textMember members "workspace_id"
    let connectorId ← textMember members "connector_id"
    makeBinding workspaceId connectorId
  | _ => none

/-- `.encode("ascii")`. -/
def encodeAscii (text : Chars) : Option Bytes :=
  if text.all (fun c => c.toNat < 128) then some (text.map fun c => UInt8.ofNat c.toNat) else none

def predecessorFromWire : Value → Option (Option Bytes)
  | .none => some none
  | .str s => ((toChars s).filter isDigestText).map fun text => some (bytesOfHex text)
  | _ => none

/-- `CursorState`, when its fields are in their domain. -/
def makeState (stateVersion : ℤ) (payload : Bytes) (witnessSeq : ℤ) (predecessorDigest : Option Bytes) :
    Option CursorState :=
  if h : (stateVersion.toNat ≤ MAX_UNSIGNED ∧ classifyPayload payload = none ∧
      witnessSeq.toNat ≤ MAX_UNSIGNED ∧ ∀ digest ∈ predecessorDigest, digest.length = 32) ∧
      0 ≤ stateVersion ∧ 0 ≤ witnessSeq then
    some ⟨stateVersion.toNat, payload, witnessSeq.toNat, predecessorDigest, h.1.1, h.1.2.1, h.1.2.2.1,
      h.1.2.2.2⟩
  else none

/-- An `int` member that is no `bool`. -/
def intMember (members : List (Key × Value)) (name : String) : Option ℤ :=
  match lookup members name.toList with
  | some (.int n) => some n
  | _ => none

/-- `_spi_state_from_wire`. -/
def spiStateFromWire : Value → Option CursorState
  | .mapping members => do
    guard (hasMembers members SPI_STATE_KEYS = true)
    let stateVersion ← intMember members "state_version"
    let payload ← (textMember members "payload").bind encodeAscii
    let witnessSeq ← intMember members "witness_seq"
    let predecessor ← (lookup members "predecessor_digest".toList).bind predecessorFromWire
    makeState stateVersion payload witnessSeq predecessor
  | _ => none

def makeEvidence (beforeDigest afterDigest : Chars) : Option MigrationEvidence :=
  if h : isDigestText beforeDigest = true ∧ isDigestText afterDigest = true then
    some ⟨beforeDigest, afterDigest, h.1, h.2⟩
  else none

/-- The migration evidence of a document, which may be missing or `null`. -/
def evidenceFromWire (members : List (Key × Value)) : Option (Option MigrationEvidence) :=
  match lookup members "migration_evidence".toList with
  | none => some none
  | some .none => some none
  | some (.mapping migration) => do
    guard (hasMembers migration SPI_MIGRATION_KEYS = true)
    let beforeDigest ← textMember migration "before_digest"
    let afterDigest ← textMember migration "after_digest"
    some <$> makeEvidence beforeDigest afterDigest
  | some _ => none

/-- The guarded part of the reader. -/
def recordFromWire : Value → Option CursorRecord
  | .mapping members => do
    guard (hasMembers members SPI_CURSOR_KEYS = true ∨ hasMembers members SPI_CURSOR_KEYS_WITH_MIGRATION = true)
    let _ ← evidenceFromWire members
    let binding ← (lookup members "binding".toList).bind bindingFromWire
    let state ← (lookup members "state".toList).bind spiStateFromWire
    pure ⟨binding, state⟩
  | _ => none

/-- `frozenset(document) == _LEGACY_CURSOR_KEYS`. -/
def isLegacyDocument : Value → Bool
  | .mapping members => hasMembers members LEGACY_CURSOR_KEYS
  | _ => false

/-- How the reader fails: `ConnectorRefused`, or an exception of `json.loads` that it does not catch. -/
inductive ReadFailure where
  | refused (refusal : ConnectorRefused)
  | valueError
  | recursionError

/-- The interpreter, with room on its stack for more nested documents than a checkpoint has. -/
structure Interpreter where
  room : ℕ
  two_le : 2 ≤ room

/-- `json.loads`, its `JSONDecodeError` refused. -/
def loadsOrRefuse (interpreter : Interpreter) (payload : Chars) : Except ReadFailure Value :=
  match plainLoads interpreter.room payload with
  | .ok document => pure document
  | .error .jsonDecode =>
    throw (.refused ⟨ERROR_CONNECTOR_STATE_INVALID, "persisted cursor checkpoint is not JSON"⟩)
  | .error .valueError => throw .valueError
  | .error .recursionError => throw .recursionError

/-- A checkpoint is read. -/
def readCheckpoint (interpreter : Interpreter) (checkpoint : Checkpoint) :
    Except ReadFailure (Option CursorRecord) := do
  let payload := checkpoint.checkpointJson
  require (checkpoint.checkpointDigest = digestOf sha256 payload) (.refused ⟨ERROR_CONNECTOR_STATE_INVALID,
    "persisted cursor checkpoint digest does not verify"⟩)
  let document ← loadsOrRefuse interpreter payload
  if isLegacyDocument document then pure none
  else
    match recordFromWire document with
    | some record => pure (some record)
    | none => throw (.refused ⟨ERROR_CONNECTOR_STATE_INVALID,
        "persisted SPI cursor checkpoint is malformed"⟩)

/-- The checkpoints of a connector, each with its run. -/
def cursorRows (store : CheckpointStore) (workspaceId connectorId : Chars) : List (SyncRun × Checkpoint) :=
  (store.runs.filter fun run => run.workspaceId = workspaceId ∧ run.connectorId = connectorId).flatMap
    fun run => (store.checkpoints.filter fun c => c.workspaceId = run.workspaceId ∧ c.jobId = run.runId ∧
      c.checkpointKind = CURSOR_CHECKPOINT_KIND).map fun c => (run, c)

/-- `ORDER BY r.sync_sequence DESC, c.checkpoint_sequence DESC`, read from the end. -/
def rowKey (row : SyncRun × Checkpoint) : ℕ ×ₗ ℕ := toLex (row.1.syncSequence, row.2.checkpointSequence)

/-- The last checkpoint of a connector. -/
def latestCheckpoint (store : CheckpointStore) (workspaceId connectorId : Chars) : Option Checkpoint :=
  (sortBy rowKey (cursorRows store workspaceId connectorId)).getLast?.map Prod.snd

/-- `read_spi_resume_cursor`. -/
def readSpiResumeCursor (interpreter : Interpreter) (store : CheckpointStore)
    (workspaceId connectorId : Chars) : Except ReadFailure (Option CursorRecord) :=
  match latestCheckpoint store workspaceId connectorId with
  | none => pure none
  | some checkpoint => readCheckpoint sha256 interpreter checkpoint

end OmniviaCore.Connector
