import OmniviaCore.CanonicalJson.Rewriting
import OmniviaCore.Lib.Machine
import OmniviaCore.SemanticRegistry.Application

/-!
# Published versions

`ModelVersion` of `semantic_registry/models.py`, its digest of `semantic_registry/canonical.py`, and what
`storage/semantic_registry.py` does with it: `publish_version`, `read_versions` and
`verify_version_digests`. A stored version is kept with the rows of its elements and parents. The fence, the
size of an outbox fact and SQLite's own `json()` can refuse a publication for reasons no digest depends on;
they are left out, and so are the publication record and the fact.
-/

namespace OmniviaCore.SemanticRegistry

open Lib CanonicalJson

/-! ## Versions -/

def isDigit : CodePoint → Bool
  | .scalar c => c.isDigit
  | .surrogate _ => false

/-- `major.minor.patch`. The table refuses the digits of other scripts, which `str.isdigit` knows too. -/
def isVersionLabel (label : Str) : Bool :=
  let parts := label.splitOn (.scalar '.')
  parts.length = 3 && parts.all fun part => part ≠ [] && part.all isDigit

/-- A `ModelVersion`. -/
structure ModelVersion where
  modelVersionId : Str
  modelId : Str
  versionSequence : ℕ
  versionLabel : Str
  contentDigest : String
  parentVersionIds : List Str
  metaModelVersion : Str
  elements : List Element

/-- The default of `meta_model_version`. -/
def META_MODEL_VERSION : Str := ofChars "1.0.0".toList

namespace ModelVersion

/-- `__post_init__`. -/
def postInit (v : ModelVersion) : Except ElementError Unit := do
  require (v.modelVersionId.all isSpace = false) (.semantic .missingField "model_version_id is required")
  require (v.modelId.all isSpace = false) (.semantic .missingField "model_id is required")
  require (1 ≤ v.versionSequence) (.semantic .invalidField "version_sequence must be a positive integer")
  require (isVersionLabel v.versionLabel) (.semantic .invalidField "version_label must be major.minor.patch")
  require ((ofChars v.contentDigest.toList).all isSpace = false)
    (.semantic .missingField "content_digest is required")
  require (v.modelVersionId ∉ v.parentVersionIds)
    (.semantic .invalidField "a version cannot be its own parent")
  require v.parentVersionIds.Nodup (.semantic .duplicateId "parent_version_ids must not repeat an id")
  require (v.elements.map Element.elementId).Nodup
    (.semantic .duplicateId "elements must not repeat an id")

end ModelVersion

section Canonical

variable (nfc : Str → Str) (sha256 : List UInt8 → String)

/-- `_plain` of an element: its fields under their names. -/
def plainElement (element : Element) : Except ElementError Value := do
  let members ← element.fields.mapM fun f => do
    let value ← plain nfc f.2
    pure (Key.name (ofChars f.1.toList), value)
  pure (.mapping members)

/-- The text of `canonical_bytes`, of a value `_plain` has lowered. -/
def registryText (value : Value) : Except ElementError (List Char) :=
  match canonicalize value [] with
  | .ok text => .ok text
  | .error (.contract error) => .error (.canonical error)
  | .error .valueError => .error .valueError

/-- `canonical_text` of a JSON value. -/
def canonicalText (value : Value) : Except ElementError (List Char) := do
  let value ← plainValue nfc value
  registryText value

/-- `content_digest` of a JSON value. -/
def valueDigest (value : Value) : Except ElementError String := do
  let text ← canonicalText nfc value
  pure ("sha256:" ++ sha256 (text.flatMap String.utf8EncodeChar))

/-- `model_version_payload`. -/
def modelVersionPayload (version : ModelVersion) : Except ElementError Value := do
  let elements ← (sortBy (fun e => codePoints (Element.elementId e)) version.elements).mapM (plainElement nfc)
  pure (mappingOf [("model_id", .str version.modelId),
    ("meta_model_version", .str version.metaModelVersion), ("elements", .sequence elements)])

/-- `model_version_digest`. -/
def modelVersionDigest (version : ModelVersion) : Except ElementError String := do
  let payload ← modelVersionPayload nfc version
  valueDigest nfc sha256 payload

/-! ## Rows -/

/-- The names of `ELEMENT_TYPES`. -/
def ElementKind.typeName : ElementKind → String
  | .actionType => "action_type"
  | .alias => "alias"
  | .concept => "concept"
  | .constraint => "constraint"
  | .property => "property"
  | .relationship => "relationship"
  | .vocabularyMember => "vocabulary_member"

/-- `ELEMENT_TYPES`. -/
def ELEMENT_TYPES : List (String × ElementKind) :=
  [ElementKind.actionType, .alias, .concept, .constraint, .property, .relationship, .vocabularyMember].map
    fun kind => (kind.typeName, kind)

/-- `_element_document`, lowered. -/
def plainDocument (element : Element) : Except ElementError Value := do
  let value ← plainElement nfc element
  pure (.mapping [(.name (nfc (ofChars "kind".toList)), .str (nfc (ofChars element.kind.typeName.toList))),
    (.name (nfc (ofChars "element".toList)), value)])

/-- A row of `omnivia_semantic_version_elements`. -/
structure ElementRow where
  elementId : Str
  elementJson : List Char
  elementDigest : String

/-- A row of `omnivia_semantic_model_versions`, with the rows of its elements and of its parents. -/
structure StoredVersion where
  modelId : Str
  versionId : Str
  label : Str
  sequence : ℕ
  contentDigest : String
  contentJson : List Char
  elements : List ElementRow
  parents : List Str

/-- `GLOB '[A-Za-z0-9]*'`, and no character outside `[A-Za-z0-9._:-]`. -/
def isStoredIdentifier (text : Str) : Bool :=
  text.length ≤ 128 &&
    match text with
    | .scalar c :: _ => c.isAlphanum && text.all fun
      | .scalar c => c.isAlphanum || c ∈ ['.', '_', ':', '-']
      | .surrogate _ => false
    | _ => false

def isStoredDocument (text : List Char) : Bool :=
  2 ≤ (text.flatMap String.utf8EncodeChar).length && (text.flatMap String.utf8EncodeChar).length ≤ 1048576

/-- What the tables ask of a new version. -/
structure Admits (stored : List StoredVersion) (row : StoredVersion) : Prop where
  identifiers : ∀ text ∈ [row.modelId, row.versionId, row.label] ++ row.parents ++
    row.elements.map ElementRow.elementId, isStoredIdentifier text
  documents : ∀ text ∈ row.contentJson :: row.elements.map ElementRow.elementJson, isStoredDocument text
  keys : (row.elements.map ElementRow.elementId).Nodup ∧ row.parents.Nodup
  unique : ∀ other ∈ stored, other.modelId = row.modelId → other.versionId ≠ row.versionId ∧
    other.label ≠ row.label ∧ other.sequence ≠ row.sequence ∧ other.contentDigest ≠ row.contentDigest
  contiguous : row.sequence = (stored.filter fun other => other.modelId = row.modelId).length
  parents : ∀ parent ∈ row.parents, parent ≠ row.versionId ∧
    ∃ other ∈ stored, other.modelId = row.modelId ∧ other.versionId = parent

instance (stored : List StoredVersion) (row : StoredVersion) : Decidable (Admits stored row) :=
  decidable_of_iff ((∀ text ∈ [row.modelId, row.versionId, row.label] ++ row.parents ++
      row.elements.map ElementRow.elementId, isStoredIdentifier text) ∧
    (∀ text ∈ row.contentJson :: row.elements.map ElementRow.elementJson, isStoredDocument text) ∧
    ((row.elements.map ElementRow.elementId).Nodup ∧ row.parents.Nodup) ∧
    (∀ other ∈ stored, other.modelId = row.modelId → other.versionId ≠ row.versionId ∧
      other.label ≠ row.label ∧ other.sequence ≠ row.sequence ∧
      other.contentDigest ≠ row.contentDigest) ∧
    row.sequence = (stored.filter fun other => other.modelId = row.modelId).length ∧
    ∀ parent ∈ row.parents, parent ≠ row.versionId ∧
      ∃ other ∈ stored, other.modelId = row.modelId ∧ other.versionId = parent)
    ⟨fun ⟨h₁, h₂, h₃, h₄, h₅, h₆⟩ => ⟨h₁, h₂, h₃, h₄, h₅, h₆⟩,
      fun ⟨h₁, h₂, h₃, h₄, h₅, h₆⟩ => ⟨h₁, h₂, h₃, h₄, h₅, h₆⟩⟩

/-! ## Publishing -/

/-- What publishing raises: an error of the canonicalizer, or an `IntegrityError`. -/
inductive PublishError where
  | canonical (error : ElementError)
  | integrity

def elementRow (element : Element) : Except ElementError ElementRow := do
  let document ← plainDocument nfc element
  let text ← registryText document
  pure ⟨element.elementId, text, "sha256:" ++ sha256 (text.flatMap String.utf8EncodeChar)⟩

/-- `publish_version`. -/
def publishVersion (stored : List StoredVersion) (version : ModelVersion) (sequence : ℕ) :
    Except PublishError (List StoredVersion) := do
  let payload ← (modelVersionPayload nfc version).mapError .canonical
  let text ← (canonicalText nfc payload).mapError .canonical
  let elements ← (version.elements.mapM (elementRow nfc sha256)).mapError .canonical
  let row : StoredVersion := {
    modelId := version.modelId
    versionId := version.modelVersionId
    label := version.versionLabel
    sequence := sequence
    contentDigest := version.contentDigest
    contentJson := text
    elements := elements
    parents := version.parentVersionIds }
  require (Admits stored row) .integrity
  pure (stored ++ [row])

/-- A version and the sequence it is published at. -/
structure Publication where
  version : ModelVersion
  sequence : ℕ

/-- A publication that is refused leaves the tables as they were. -/
def publish (stored : List StoredVersion) (p : Publication) : List StoredVersion :=
  match publishVersion nfc sha256 stored p.version p.sequence with
  | .ok stored' => stored'
  | .error _ => stored

/-! ## Reading -/

/-- What reading a stored version raises. -/
inductive ReadError where
  | loads (failure : LoadsFailure)
  | unknownKind
  | keyError
  | attributeError
  | element (error : ElementError)

/-- `element_type(**values)`. -/
def Element.ofFields (kind : ElementKind) (values : Fields) : Except ElementError Element := do
  require (∀ v ∈ values, v.1 ∈ kind.fieldNames) .typeError
  require (∀ d ∈ kind.declared, d.2 = none → (values.lookup d.1).isSome) .typeError
  Element.build kind (Element.given kind values) (Element.map_fst_given kind values)

/-- The element of a document, its kind looked up in `ELEMENT_TYPES`. -/
def elementOfDocument (document : JsonMapping) : Except ReadError Element := do
  let kind ← (hashed (document.get "kind")).mapError .element
  match ELEMENT_TYPES.find? fun entry => kind = .text (ofChars entry.1.toList) with
  | none => throw .unknownKind
  | some (_, kind) =>
    match lookup document "element".toList with
    | none => throw .keyError
    | some (.mapping members) =>
      let values ← (coerceElementFields members).mapError .element
      (Element.ofFields kind values).mapError .element
    | some _ => throw .attributeError

/-- `_element_from_json`. -/
def elementFromJson (room : ℕ) (text : List Char) : Except ReadError Element := do
  match ← (plainLoads room text).mapError .loads with
  | .mapping document => elementOfDocument document
  | _ => throw .attributeError

/-- A `VersionRow`. -/
structure VersionRow where
  versionId : Str
  modelId : Str
  label : Str
  sequence : ℕ
  contentDigest : String
  contentJson : List Char
  parentVersionIds : List Str
  elements : List Element

/-- `_version_row`. -/
def versionRow (room : ℕ) (row : StoredVersion) : Except ReadError VersionRow := do
  let elements ← (sortBy (fun e => codePoints e.elementId) row.elements).mapM fun element =>
    elementFromJson room element.elementJson
  pure ⟨row.versionId, row.modelId, row.label, row.sequence, row.contentDigest, row.contentJson,
    sortBy codePoints row.parents, elements⟩

/-- `read_versions`. -/
def readVersions (room : ℕ) (stored : List StoredVersion) (modelId : Str) :
    Except ReadError (List VersionRow) :=
  (sortBy StoredVersion.sequence (stored.filter fun row => row.modelId = modelId)).mapM (versionRow room)

/-- `version_of`. -/
def versionOf (row : VersionRow) : Except ElementError ModelVersion := do
  let version : ModelVersion := {
    modelVersionId := row.versionId
    modelId := row.modelId
    versionSequence := row.sequence + 1
    versionLabel := row.label
    contentDigest := row.contentDigest
    parentVersionIds := row.parentVersionIds
    metaModelVersion := META_MODEL_VERSION
    elements := row.elements }
  version.postInit
  pure version

/-- Both digests of a stored version are the one it was stored under. -/
def digestsHold (room : ℕ) (row : VersionRow) : Except ReadError Bool := do
  let snapshot ← (plainLoads room row.contentJson).mapError .loads
  let snapshotDigest ← (valueDigest nfc sha256 snapshot).mapError .element
  let version ← (versionOf row).mapError .element
  let rebuiltDigest ← (modelVersionDigest nfc sha256 version).mapError .element
  pure (snapshotDigest = row.contentDigest ∧ rebuiltDigest = row.contentDigest)

/-- `verify_version_digests`. -/
def verifyVersionDigests (room : ℕ) (stored : List StoredVersion) (modelId : Str) :
    Except ReadError (List Str) := do
  let versions ← readVersions room stored modelId
  let held ← versions.mapM (digestsHold nfc sha256 room)
  pure (((versions.zip held).filter fun v => v.2 = false).map fun v => v.1.versionId)

end Canonical

end OmniviaCore.SemanticRegistry
