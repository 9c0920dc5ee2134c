import OmniviaCore.Lib.Check
import OmniviaCore.Lib.PrefixCode

/-!
# Connector cursors

`connector/spi.py` and `connector/host.py`: the state a connector names its position with, the digest
the host binds a successor to its parent by, and the checks of a successor and of a migration. Bytes
are lists, and SHA-256 is the argument `sha256`.
-/

namespace OmniviaCore.Connector

open Lib

abbrev Bytes := List UInt8

/-- `ConnectorRefused`. -/
structure ConnectorRefused where
  error : String
  detail : String
  deriving DecidableEq

def ERROR_CONNECTOR_CURSOR_FOREIGN : String := "connector_cursor_foreign"

def ERROR_CONNECTOR_CURSOR_NOT_MONOTONIC : String := "connector_cursor_not_monotonic"

def ERROR_CONNECTOR_CURSOR_UNMIGRATABLE : String := "connector_cursor_unmigratable"

def ERROR_CONNECTOR_STATE_INVALID : String := "connector_state_invalid"

def ERROR_CODE_SIZE_LIMIT_EXCEEDED : String := "size_limit_exceeded"

def MAX_UNSIGNED : Nat := 2 ^ 63 - 1

def MAX_CURSOR_PAYLOAD_BYTES : Nat := 4096

/-- `IDENTIFIER_PATTERN`, which is ASCII and bounded. -/
def isAsciiIdentifier (text : String) : Bool :=
  match text.toList with
  | [] => false
  | c :: rest => c.isAlphanum && rest.length ≤ 127 &&
    rest.all fun d => d.isAlphanum || d ∈ ['.', '_', ':', '-']

/-- A byte of `BASE64URL_ALPHABET`. -/
def isBase64url (byte : UInt8) : Bool :=
  (65 ≤ byte && byte ≤ 90) || (97 ≤ byte && byte ≤ 122) || (48 ≤ byte && byte ≤ 57) || byte = 95 ||
    byte = 45

/-- `classify_payload`. -/
def classifyPayload (payload : Bytes) : Option String :=
  if MAX_CURSOR_PAYLOAD_BYTES < payload.length then some ERROR_CODE_SIZE_LIMIT_EXCEEDED
  else if payload.all isBase64url = false then some ERROR_CONNECTOR_STATE_INVALID
  else if payload.length % 4 = 1 then some ERROR_CONNECTOR_STATE_INVALID
  else none

/-- `CursorState`. -/
structure CursorState where
  stateVersion : Nat
  payload : Bytes
  witnessSeq : Nat
  predecessorDigest : Option Bytes
  stateVersion_le : stateVersion ≤ MAX_UNSIGNED
  payload_valid : classifyPayload payload = none
  witnessSeq_le : witnessSeq ≤ MAX_UNSIGNED
  predecessorDigest_length : ∀ digest ∈ predecessorDigest, digest.length = 32
  deriving DecidableEq

/-- `CursorBinding`. -/
structure CursorBinding where
  workspaceId : String
  connectorId : String
  workspaceId_valid : isAsciiIdentifier workspaceId = true
  connectorId_valid : isAsciiIdentifier connectorId = true
  deriving DecidableEq

/-- `CursorRecord`. -/
structure CursorRecord where
  binding : CursorBinding
  state : CursorState
  deriving DecidableEq

/-! ## The digest -/

/-- `len(value).to_bytes(4, "big")`. -/
def lengthBytes (n : Nat) : Bytes :=
  [UInt8.ofNat (n / 2 ^ 24), UInt8.ofNat (n / 2 ^ 16), UInt8.ofNat (n / 2 ^ 8), UInt8.ofNat n]

/-- `_frame`. -/
def frame (value : Bytes) : Bytes := lengthBytes value.length ++ value

/-- `.encode("ascii")`. -/
def encodeText (text : String) : Bytes := text.toList.flatMap String.utf8EncodeChar

def CURSOR_DIGEST_DOMAIN_TAG : Bytes := encodeText "omnivia.connector.cursor-state.v2"

/-- The fields of the digest, in the order `CURSOR_DIGEST_FIELD_ORDER` frames them. -/
def cursorDigestFields (binding : CursorBinding) (state : CursorState) : List Bytes :=
  [CURSOR_DIGEST_DOMAIN_TAG, encodeText binding.workspaceId, encodeText binding.connectorId,
    encodeText (Nat.repr state.stateVersion), state.payload, encodeText (Nat.repr state.witnessSeq),
    state.predecessorDigest.getD []]

/-- `cursor_digest_preimage`. -/
def cursorDigestPreimage (binding : CursorBinding) (state : CursorState) : Bytes :=
  (cursorDigestFields binding state).flatMap frame

variable (sha256 : Bytes → Bytes)

/-- `canonical_cursor_digest`. -/
def canonicalCursorDigest (binding : CursorBinding) (state : CursorState) : Bytes :=
  sha256 (cursorDigestPreimage binding state)

/-! ## Successors and migrations -/

/-- `validate_successor`. -/
def validateSuccessor (record : CursorRecord) (successor : CursorState)
    (currentBinding : CursorBinding) : Except ConnectorRefused Bytes := do
  require (record.binding = currentBinding) ⟨ERROR_CONNECTOR_CURSOR_FOREIGN,
    "the persisted cursor was frozen under a different workspace or connector"⟩
  let expected := canonicalCursorDigest sha256 record.binding record.state
  require (successor.predecessorDigest = some expected) ⟨ERROR_CONNECTOR_STATE_INVALID,
    "the successor does not name the exact state the host presented"⟩
  require (record.state.witnessSeq ≤ successor.witnessSeq) ⟨ERROR_CONNECTOR_CURSOR_NOT_MONOTONIC,
    s!"witness regressed from {record.state.witnessSeq} to {successor.witnessSeq}"⟩
  pure expected

/-- `MigrationAudit`. -/
structure MigrationAudit where
  before : CursorState
  after : CursorState
  predecessorDigestBefore : Bytes
  predecessorDigestAfter : Bytes

/-- `validate_migration`. -/
def validateMigration (record : CursorRecord) (migrated : CursorState)
    (supportedStateVersions : List Nat) : Except ConnectorRefused MigrationAudit := do
  require (record.state.stateVersion < migrated.stateVersion) ⟨ERROR_CONNECTOR_STATE_INVALID,
    "a migrated state version must strictly increase"⟩
  require (migrated.stateVersion ∈ supportedStateVersions) ⟨ERROR_CONNECTOR_STATE_INVALID,
    "a migrated state version must land in the supported set"⟩
  require (migrated.witnessSeq = record.state.witnessSeq) ⟨ERROR_CONNECTOR_STATE_INVALID,
    "migration re-encodes a known position; the witness must be unchanged"⟩
  require (migrated.predecessorDigest = record.state.predecessorDigest)
    ⟨ERROR_CONNECTOR_STATE_INVALID,
      "migration never re-parents the chain; the predecessor must be identical"⟩
  pure
    { before := record.state
      after := migrated
      predecessorDigestBefore := canonicalCursorDigest sha256 record.binding record.state
      predecessorDigestAfter := canonicalCursorDigest sha256 record.binding migrated }

/-- What a call of `migrate_cursor` comes to: a state, a value of another type, or a refusal. -/
inductive MigrateAnswer where
  | state (state : CursorState)
  | other
  | refused (refusal : ConnectorRefused)
  deriving DecidableEq

/-- `MigrationOutcome`. -/
structure MigrationOutcome where
  outcome : String
  error : Option String
  audit : Option MigrationAudit
  detail : String

/-- A refusal of a connector, classified. -/
def refusedMigration (refusal : ConnectorRefused) : MigrationOutcome :=
  if refusal.error = ERROR_CONNECTOR_CURSOR_UNMIGRATABLE then
    ⟨"resync_required", some ERROR_CONNECTOR_CURSOR_UNMIGRATABLE, none, refusal.detail⟩
  else ⟨"refused", some refusal.error, none, refusal.detail⟩

/-- `run_cursor_migration`, on what the two calls of the connector come to. -/
def runCursorMigration (first second : MigrateAnswer) (record : CursorRecord)
    (supportedStateVersions : List Nat) : MigrationOutcome :=
  match first, second with
  | .refused refusal, _ => refusedMigration refusal
  | _, .refused refusal => refusedMigration refusal
  | .state migrated, _ =>
    if first ≠ second then
      ⟨"refused", some ERROR_CONNECTOR_STATE_INVALID, none, "migration is not deterministic"⟩
    else
      match validateMigration sha256 record migrated supportedStateVersions with
      | .ok audit => ⟨"accepted", none, some audit, ""⟩
      | .error refusal => ⟨"refused", some refusal.error, none, refusal.detail⟩
  | .other, _ =>
    ⟨"refused", some ERROR_CONNECTOR_STATE_INVALID, none, "migration is not deterministic"⟩

/-! ## The preimage -/

variable {sha256}

theorem lengthBytes_inj {m n : Nat} (hm : m < 2 ^ 32) (hn : n < 2 ^ 32)
    (h : lengthBytes m = lengthBytes n) : m = n := by
  simp only [lengthBytes, List.cons.injEq, and_true] at h
  obtain ⟨h₃, h₂, h₁, h₀⟩ := h
  have h₃' := congrArg UInt8.toNat h₃
  have h₂' := congrArg UInt8.toNat h₂
  have h₁' := congrArg UInt8.toNat h₁
  have h₀' := congrArg UInt8.toNat h₀
  simp only [UInt8.toNat_ofNat'] at h₃' h₂' h₁' h₀'
  omega

theorem encodeText_injective : Function.Injective encodeText := fun _ _ h =>
  String.toList_injective (utf8EncodeChar_prefixCode.flatMap_injective h)

/-- A frame says where it ends. -/
theorem frame_append_inj {a b : Bytes} (ha : a.length < 2 ^ 32) (hb : b.length < 2 ^ 32)
    {x y : Bytes} (h : frame a ++ x = frame b ++ y) : a = b ∧ x = y := by
  simp only [frame, List.append_assoc] at h
  obtain ⟨hlength, hrest⟩ := List.append_inj h rfl
  exact List.append_inj hrest (lengthBytes_inj ha hb hlength)

theorem flatMap_frame_inj {as bs : List Bytes} (ha : ∀ a ∈ as, a.length < 2 ^ 32)
    (hb : ∀ b ∈ bs, b.length < 2 ^ 32) (h : as.flatMap frame = bs.flatMap frame) : as = bs := by
  induction as generalizing bs with
  | nil =>
    cases bs with
    | nil => rfl
    | cons b bs => simp [frame, lengthBytes] at h
  | cons a as ih =>
    cases bs with
    | nil => simp [frame, lengthBytes] at h
    | cons b bs =>
      rw [List.flatMap_cons, List.flatMap_cons] at h
      obtain ⟨hhead, htail⟩ := frame_append_inj (ha a List.mem_cons_self) (hb b List.mem_cons_self) h
      rw [hhead, ih (fun c hc => ha c (List.mem_cons_of_mem a hc))
        (fun c hc => hb c (List.mem_cons_of_mem b hc)) htail]

end OmniviaCore.Connector
