import OmniviaCore.CanonicalJson.Serialize
import OmniviaCore.Connector.Snapshots

/-!
# The filesystem connector

`connector/filesystem.py`: a scan of the tree under the root, the reading of one file, and a poll. A tree
is what the calls of one poll find: the listings of the walk in its order, and for each file what
`is_symlink`, `resolve`, `stat` and the reads come to. What Python says of a text is the argument `py`.
-/

namespace OmniviaCore.Connector

open Lib CanonicalJson

/-- What the `str` methods and `repr` come to. -/
structure PyText where
  isPrintable : List Char → Bool
  lower : List Char → List Char
  repr : List Char → List Char

/-! ## The tree -/

/-- What `resolve(strict=True)` comes to: an error, another path, or the path itself. -/
inductive Resolution where
  | failed | elsewhere | inPlace
  deriving DecidableEq

structure FileStatus where
  regular : Bool
  size : Nat

/-- The two `stat`s around `read_bytes`: whether every fact compared is the same and the file still a
regular one; the bytes; and the modification time in microseconds. -/
structure Reading where
  stable : Bool
  raw : Bytes
  modifiedAtUs : Int
  deriving DecidableEq

structure FileEntry where
  relative : Str
  symlink : Bool
  resolution : Resolution
  status : Option FileStatus
  reading : Option Reading

/-- One directory of the walk: its directories, each a symlink or not, and its files. -/
structure Listing where
  directories : List (Str × Bool)
  files : List FileEntry

def Listing.paths (listing : Listing) : List Str :=
  listing.directories.map Prod.fst ++ listing.files.map (·.relative)

/-- A walk, in which a directory that cannot be enumerated is `none`. A path names one entry. -/
structure Tree where
  walk : List (Option Listing)
  distinct : ((walk.flatMap Option.toList).flatMap Listing.paths).Nodup
  named : ∀ path ∈ (walk.flatMap Option.toList).flatMap Listing.paths, path ≠ []

/-! ## The connector -/

/-- The configuration of the connector, with the limits its constructor takes. -/
structure FilesystemConnector where
  connectorId : String
  stateVersion : Nat
  supportedStateVersions : List Nat
  maxItemBytes : Nat
  maxPathLength : Nat
  maxFiles : Nat
  maxTreeBytes : Nat
  connectorId_valid : isAsciiIdentifier connectorId = true

def MAX_LOCATOR_LENGTH : Nat := 2048

def MAX_MESSAGE_LENGTH : Nat := 2048

def MAX_OBSERVATION_CONTENT_BYTES : Nat := 1048576

def ERROR_CODE_CANCELLED : String := "cancelled"

/-- `ACCEPTED_MEDIA_TYPES`. -/
def ACCEPTED_MEDIA_TYPES : List (List Char × String) :=
  [(".txt".toList, "text/plain"), (".md".toList, "text/markdown"),
    (".markdown".toList, "text/markdown"), (".json".toList, "application/json")]

section Scan

variable (py : PyText) (sha256 : Bytes → Bytes) (connector : FilesystemConnector)

/-- `_native_id`. A path with a lone surrogate has no UTF-8. -/
def nativeId (path : RelativePath) : String :=
  String.ofList ("fs-".toList ++
    (hexlify 97 (sha256 (path.flatMap String.utf8EncodeChar))).map fun b => Char.ofNat b.toNat)

/-- The path `_native_id` can encode. -/
def encodable (relative : Str) : Except PollError RelativePath :=
  match toChars relative with
  | none => .error .unicodeEncodeError
  | some path => .ok path

/-- `ItemFailure`. -/
def fail (path : RelativePath) (error : String) (detail : List Char) : Except PollError ItemFailure := do
  require (isAsciiIdentifier (nativeId sha256 path) = true)
    (.contractError "source_native_id is outside the accepted identifier domain")
  require (detail.length ≤ MAX_MESSAGE_LENGTH ∧ '\x00' ∉ detail)
    (.contractError "detail is outside the accepted domain")
  pure ⟨nativeId sha256 path, error, String.ofList detail⟩

/-- A file that may be read, with what reading it will find. -/
structure ScannedFile where
  relativePath : RelativePath
  size : Nat
  reading : Option Reading
  deriving DecidableEq

/-- What a scan makes of one file. -/
inductive Scanned where
  | file (scanned : ScannedFile)
  | unresolved (path : RelativePath) (failure : ItemFailure)

namespace Scanned

def file? : Scanned → Option ScannedFile
  | .file scanned => some scanned
  | .unresolved _ _ => none

def unresolved? : Scanned → Option RelativePath
  | .file _ => none
  | .unresolved path _ => some path

def failure? : Scanned → Option ItemFailure
  | .file _ => none
  | .unresolved _ failure => some failure

end Scanned

/-- What a scan found: files to read, failures, and the paths it could not resolve. -/
structure ScanResult where
  files : List ScannedFile
  failures : List ItemFailure
  unresolved : List RelativePath
  deriving DecidableEq

/-- A symlinked directory is a failure; another one is descended into. -/
def scanDirectory (directory : Str × Bool) :
    Except PollError (Option (RelativePath × ItemFailure)) :=
  if directory.2 = false then .ok none
  else do
    let path ← encodable directory.1
    let failure ← fail sha256 path "filesystem_item_symlink_directory"
      "symlinked directories are not descended into".toList
    pure (some (path, failure))

/-- The structural check a file fails first, if any: its error and detail. -/
def structuralFailure (path : RelativePath) (entry : FileEntry) : Option (String × String) :=
  if connector.maxPathLength < path.length ∨ MAX_LOCATOR_LENGTH < path.length then
    some ("filesystem_item_path_too_long", "path exceeds the ceiling")
  else if entry.symlink then some ("filesystem_item_symlink", "symlinks are not followed")
  else
    match entry.resolution with
    | .failed => some ("filesystem_item_unreadable", "path could not be resolved")
    | .elsewhere => some ("filesystem_item_escape", "path resolves outside the root")
    | .inPlace =>
      match entry.status with
      | none => some ("filesystem_item_unreadable", "path could not be stat'd")
      | some status =>
        if status.regular then none
        else some ("filesystem_item_special_file", "not a regular file")

def scanFile (entry : FileEntry) : Except PollError Scanned := do
  let path ← encodable entry.relative
  match structuralFailure connector path entry with
  | some (error, detail) => do
    let failure ← fail sha256 path error detail.toList
    pure (.unresolved path failure)
  | none =>
    pure (.file { relativePath := path, size := (entry.status.map (·.size)).getD 0, reading := entry.reading })

/-- `sorted(…)` on the names of one directory. -/
def sortNames {α : Type} (name : α → Str) (entries : List α) : List α :=
  sortBy (fun entry => (name entry).map fun
    | .scalar c => c.toNat
    | .surrogate n => 0xD800 + n.val) entries

/-- What one directory adds to a scan. -/
def ScanResult.add (directories : List (Option (RelativePath × ItemFailure))) (files : List Scanned)
    (rest : ScanResult) : ScanResult where
  files := files.filterMap Scanned.file? ++ rest.files
  failures := directories.filterMap (·.map Prod.snd) ++ files.filterMap Scanned.failure? ++
    rest.failures
  unresolved := directories.filterMap (·.map Prod.fst) ++ files.filterMap Scanned.unresolved? ++
    rest.unresolved

/-- The loop of `_scan` over the walk, with the entries seen before. -/
def scanFrom : Nat → List (Option Listing) → Except PollError ScanResult
  | _, [] => .ok ⟨[], [], []⟩
  | _, none :: _ => .error (.refused ⟨"filesystem_item_unreadable",
      "a directory could not be enumerated completely"⟩)
  | entriesSeen, some listing :: walk => do
    let seen := entriesSeen + listing.directories.length + listing.files.length
    require (seen ≤ connector.maxFiles) (.refused ⟨ERROR_CODE_SIZE_LIMIT_EXCEEDED,
      s!"tree carries more than {connector.maxFiles} filesystem entries"⟩)
    let directories ← (sortNames Prod.fst listing.directories).mapM (scanDirectory sha256)
    let files ← (sortNames (·.relative) listing.files).mapM (scanFile sha256 connector)
    let rest ← scanFrom seen walk
    pure (rest.add directories files)

/-- `_scan`. -/
def scan (tree : Tree) : Except PollError ScanResult := do
  let result ← scanFrom sha256 connector 0 tree.walk
  pure { result with
    files := sortBy (fun file => file.relativePath.map Char.toNat) result.files }

/-! ## Reading one file -/

/-- `Path(…).suffix`: from the last dot of the last component, unless that begins or ends it. -/
def suffix (path : RelativePath) : List Char :=
  let name := ((path.reverse.takeWhile (· ≠ '/')).reverse)
  let extension := (name.reverse.takeWhile (· ≠ '.')).reverse
  if extension.length + 1 < name.length ∧ extension ≠ [] then '.' :: extension else []

/-- `Observation`: the checks its constructor makes of what this connector fills in. The media types are
constants that pass theirs. -/
def observe (path : RelativePath) (observedAtUs : Int) (mediaType : Option String) (content : Option Bytes)
    (deletionSignal : DeletionSignal) : Except PollError Observation := do
  require (isAsciiIdentifier (nativeId sha256 path) = true)
    (.contractError "source_native_id is outside the accepted identifier domain")
  require (0 < path.length ∧ path.length ≤ MAX_LOCATOR_LENGTH ∧ py.isPrintable path = true)
    (.contractError "source_locator is outside the accepted domain")
  require (0 ≤ observedAtUs ∧ observedAtUs ≤ MAX_UNSIGNED)
    (.contractError "observed_at_us is outside the accepted unsigned domain")
  require (∀ bytes ∈ content, (sha256 bytes).length = 32)
    (.contractError "content_checksum must be sha256:<64 lowercase hex>")
  require (∀ bytes ∈ content, bytes.length ≤ MAX_OBSERVATION_CONTENT_BYTES)
    (.contractError "content must be absent or at most 1048576 bytes")
  pure {
    sourceNativeId := nativeId sha256 path
    sourceLocator := String.ofList path
    metadataBytes := 0
    contentChecksum := content.map (contentChecksumOf sha256)
    mediaType
    sourceVersion := none
    permissionLabels := []
    deletionSignal
    metadataJson := ""
    content }

/-- What `_read_item` refuses the bytes of a file for, if anything. -/
def contentFailure (scanned : ScannedFile) (reading : Reading) : Option (String × String) :=
  if reading.stable = false then
    some ("filesystem_item_changed_while_reading", "file changed while it was being read")
  else if reading.raw.length ≠ scanned.size then
    some ("filesystem_item_changed_while_reading", "file changed while it was being read")
  else if 0 ∈ reading.raw then some ("filesystem_item_nul_byte", "content carries a NUL byte")
  else if decodeUtf8 reading.raw = none then
    some ("filesystem_item_invalid_utf8", "content is not valid UTF-8")
  else none

/-- `_read_item` on a file of an accepted type within the size ceiling. -/
def readContent (scanned : ScannedFile) (mediaType : Option String) :
    Except PollError (Observation ⊕ ItemFailure) :=
  match scanned.reading with
  | none => .inr <$> fail sha256 scanned.relativePath "filesystem_item_unreadable" "read failed".toList
  | some reading =>
    match contentFailure scanned reading with
    | some (error, detail) => .inr <$> fail sha256 scanned.relativePath error detail.toList
    | none => .inl <$> observe py sha256 scanned.relativePath reading.modifiedAtUs mediaType
        (some reading.raw) .none

/-- `_read_item`. -/
def readItem (scanned : ScannedFile) : Except PollError (Observation ⊕ ItemFailure) :=
  let extension := py.lower (suffix scanned.relativePath)
  let mediaType := ACCEPTED_MEDIA_TYPES.lookup extension
  if mediaType = none then
    .inr <$> fail sha256 scanned.relativePath "filesystem_item_unsupported_type"
      ("unsupported extension ".toList ++ py.repr extension)
  else if connector.maxItemBytes < scanned.size then
    .inr <$> fail sha256 scanned.relativePath ERROR_CODE_SIZE_LIMIT_EXCEEDED
      "item exceeds the configured ceiling".toList
  else readContent py sha256 scanned mediaType

/-! ## A poll -/

/-- What one poll is called with and finds: the workspace, whether it is cancelled before the scan or
during it, whether the root is a symlink, and the tree. -/
structure PollInput where
  workspaceId : String
  cancelledBefore : Bool
  cancelledDuring : Bool
  rootSymlink : Bool
  tree : Tree
  workspaceId_valid : isAsciiIdentifier workspaceId = true

/-- The constructor of `CursorState`. -/
def makeCursor (stateVersion : Nat) (payload : Bytes) (witnessSeq : Nat) (digest : Option Bytes) :
    Except PollError CursorState :=
  if hversion : stateVersion ≤ MAX_UNSIGNED then
    if hwitness : witnessSeq ≤ MAX_UNSIGNED then
      match hpayload : classifyPayload payload with
      | some defect => .error (.refused ⟨defect, "cursor payload"⟩)
      | none =>
        if hdigest : ∀ bytes ∈ digest, bytes.length = 32 then
          .ok ⟨stateVersion, payload, witnessSeq, digest, hversion, hpayload, hwitness, hdigest⟩
        else .error (.contractError
          "predecessor_digest is absent or exactly 32 bytes; there is no other genesis")
    else .error (.contractError "witness_seq is outside the accepted unsigned domain")
  else .error (.contractError "state_version is outside the accepted unsigned domain")

def PollInput.binding (input : PollInput) : CursorBinding where
  workspaceId := input.workspaceId
  connectorId := connector.connectorId
  workspaceId_valid := input.workspaceId_valid
  connectorId_valid := connector.connectorId_valid

/-- The state a poll is made from: the cursor, or the empty one of a first poll. -/
def polledFrom (cursor : Option CursorState) : Except PollError CursorState :=
  match cursor, connector.supportedStateVersions with
  | some state, _ => .ok state
  | none, version :: _ => makeCursor version [] 0 none
  | none, [] => .error (.contractError "tuple index out of range")

/-- `_decode_snapshot` of the cursor a poll is given. -/
def previousPaths (cursor : Option CursorState) : Except PollError (List RelativePath) :=
  match cursor with
  | none => .ok []
  | some state => decodeSnapshot state.payload

/-- The deletions of a poll: the paths of the previous snapshot that are neither present nor
unresolved. -/
def missingPaths (previous : List RelativePath) (scanned : ScanResult) : List RelativePath :=
  sortPaths (previous.dedup.filter fun path =>
    path ∉ scanned.files.map (·.relativePath) ∧ path ∉ scanned.unresolved)

/-- The successor cursor of a poll. -/
def successorCursor (input : PollInput) (cursor : Option CursorState) (current : List RelativePath) :
    Except PollError CursorState := do
  let payload := encodeSnapshot current
  require (payload.length ≤ MAX_CURSOR_PAYLOAD_BYTES) (.refused ⟨ERROR_CODE_SIZE_LIMIT_EXCEEDED,
    s!"snapshot of {current.length} paths encodes to {payload.length} bytes, over the {MAX_CURSOR_PAYLOAD_BYTES}-byte cursor ceiling"⟩)
  let parent ← polledFrom connector cursor
  makeCursor connector.stateVersion payload ((cursor.map (·.witnessSeq + 1)).getD 0)
    (some (canonicalCursorDigest sha256 (input.binding connector) parent))

/-- `poll`, from its scan on. -/
def pollScanned (input : PollInput) (cursor : Option CursorState) (previous : List RelativePath)
    (scanned : ScanResult) : Except PollError Batch := do
  require (scanned.files.length ≤ connector.maxFiles) (.refused ⟨ERROR_CODE_SIZE_LIMIT_EXCEEDED,
    s!"tree carries {scanned.files.length} files over the {connector.maxFiles} ceiling"⟩)
  let treeBytes := (scanned.files.map (·.size)).sum
  require (treeBytes ≤ connector.maxTreeBytes) (.refused ⟨ERROR_CODE_SIZE_LIMIT_EXCEEDED,
    s!"tree carries {treeBytes} bytes over the {connector.maxTreeBytes} ceiling"⟩)
  require (input.cancelledDuring = false)
    (.refused ⟨ERROR_CODE_CANCELLED, "poll was cancelled during the scan"⟩)
  let items ← scanned.files.mapM (readItem py sha256 connector)
  let deletions ← (missingPaths previous scanned).mapM fun path =>
    observe py sha256 path 0 none none .explicitDelete
  let successor ← successorCursor sha256 connector input cursor (scanned.files.map (·.relativePath))
  pure {
    observations := items.filterMap Sum.getLeft? ++ deletions
    successorCursor := successor
    itemFailures := scanned.failures ++ items.filterMap Sum.getRight? }

/-- `poll`. -/
def poll (input : PollInput) (cursor : Option CursorState) : Except PollError Batch := do
  require (input.cancelledBefore = false)
    (.refused ⟨ERROR_CODE_CANCELLED, "poll was cancelled before it started"⟩)
  require (input.rootSymlink = false) (.refused ⟨ERROR_CODE_INVALID_REQUEST, "root is a symlink"⟩)
  require (∀ state ∈ cursor, state.stateVersion ∈ connector.supportedStateVersions)
    (.refused ⟨ERROR_CONNECTOR_STATE_INVALID, "state version is not supported; resync required"⟩)
  let previous ← previousPaths cursor
  let scanned ← scan sha256 connector input.tree
  pollScanned py sha256 connector input cursor previous scanned

/-- The polls of a run, each from the successor of the one before. -/
def pollRun (cursor : Option CursorState) : List PollInput → Except PollError (List Batch)
  | [] => .ok []
  | input :: rest => do
    let batch ← poll py sha256 connector input cursor
    let batches ← pollRun (some batch.successorCursor) rest
    pure (batch :: batches)

end Scan

end OmniviaCore.Connector
