import OmniviaCore.SemanticRegistry.Application
import OmniviaCore.CanonicalJson.TextSets
import OmniviaCore.Knowledge.Positions

/-!
# Literal values

The JSON value of a `KnowledgeAssertion` (`semantic_registry/assertions.py`) and of an
`ObservationFeature` (`semantic_registry/observations.py`). What a caller hands over is validated, frozen
and kept; the payload that is digested holds what was kept. Freezing makes a tuple of every list, and
`_plain` of `semantic_registry/canonical.py` tells the two apart: a list keeps its order, a tuple of texts
is a set and is sorted. Unicode normalization and the platform's `strftime` are parameters.
-/

namespace OmniviaCore.SemanticRegistry

open Lib CanonicalJson
open Knowledge (TemporalInstant TemporalPrecision TemporalProvenance EndBoundaryState Classification)

/-! ## Values as they are held -/

/-- A value as Python holds it. -/
inductive Held where
  | none
  | bool (b : Bool)
  | int (n : Int)
  | float (x : Binary64)
  | str (s : Str)
  | mapping (members : List (Key × Held))
  | list (items : List Held)
  | tuple (items : List Held)
  | other (typeName : String)

@[elab_as_elim]
theorem Held.induct {motive : Held → Prop} (none : motive .none) (bool : ∀ b, motive (.bool b))
    (int : ∀ n, motive (.int n)) (float : ∀ x, motive (.float x)) (str : ∀ s, motive (.str s))
    (other : ∀ typeName, motive (.other typeName))
    (mapping : ∀ members : List (Key × Held), (∀ m ∈ members, motive m.2) → motive (.mapping members))
    (list : ∀ items : List Held, (∀ item ∈ items, motive item) → motive (.list items))
    (tuple : ∀ items : List Held, (∀ item ∈ items, motive item) → motive (.tuple items))
    (value : Held) : motive value :=
  @Held.rec motive (fun members => ∀ m ∈ members, motive m.2) (fun items => ∀ item ∈ items, motive item)
    (fun m => motive m.2) none bool int float str mapping list tuple other
    (fun _ h => absurd h List.not_mem_nil)
    (fun _ _ hhead htail _ h => (List.mem_cons.1 h).elim (fun heq => heq ▸ hhead) (htail _))
    (fun _ h => absurd h List.not_mem_nil)
    (fun _ _ hhead htail _ h => (List.mem_cons.1 h).elim (fun heq => heq ▸ hhead) (htail _))
    (fun _ _ h => h) value

mutual

/-- The JSON value that is held: an array is a list or a tuple. -/
def Held.json : Held → Value
  | .none => .none
  | .bool b => .bool b
  | .int n => .int n
  | .float x => .float x
  | .str s => .str s
  | .mapping members => .mapping (jsonMembers members)
  | .list items => .sequence (jsonItems items)
  | .tuple items => .sequence (jsonItems items)
  | .other typeName => .other typeName

def jsonMembers : List (Key × Held) → List (Key × Value)
  | [] => []
  | (key, item) :: members => (key, item.json) :: jsonMembers members

def jsonItems : List Held → List Value
  | [] => []
  | item :: items => item.json :: jsonItems items

end

/-! ## Validation -/

/-- What is raised about a value, under the name of the field it is in: that it is not finite, that it is
a `float`, that a key is not a text, that it is not a JSON value; that an id is missing, that an entity
has a literal or a literal an entity; or the canonicalizer's error. -/
inductive LiteralError where
  | notFinite (fieldName : Str)
  | notFixedPoint (fieldName : Str)
  | keyNotString (fieldName : Str)
  | notJson (fieldName : Str)
  | required (fieldName : String)
  | entityWithLiteral
  | literalWithObjectId
  | canonical (error : ElementError)

section Validate

variable (checkFloat : Str → Binary64 → Except LiteralError Unit)

mutual

/-- A value under the name of its field, with the check of a `float`. -/
def validateValue (fieldName : Str) : Held → Except LiteralError Unit
  | .none => .ok ()
  | .bool _ => .ok ()
  | .int _ => .ok ()
  | .float x => checkFloat fieldName x
  | .str _ => .ok ()
  | .mapping members => validateMembers fieldName members
  | .list items => validateItems fieldName 0 items
  | .tuple items => validateItems fieldName 0 items
  | .other _ => .error (.notJson fieldName)

def validateMembers (fieldName : Str) : List (Key × Held) → Except LiteralError Unit
  | [] => .ok ()
  | (key, item) :: members =>
    match key with
    | .other _ => .error (.keyNotString fieldName)
    | .name name => do
      validateValue (fieldName ++ .scalar '.' :: name) item
      validateMembers fieldName members

def validateItems (fieldName : Str) (index : ℕ) : List Held → Except LiteralError Unit
  | [] => .ok ()
  | item :: items => do
    validateValue (fieldName ++ ofChars ('[' :: (Nat.toDigits 10 index ++ [']']))) item
    validateItems fieldName (index + 1) items

end

end Validate

def requireFinite (fieldName : Str) : Binary64 → Except LiteralError Unit
  | .finite _ _ => .ok ()
  | _ => .error (.notFinite fieldName)

def refuseFloat (fieldName : Str) (_ : Binary64) : Except LiteralError Unit :=
  .error (.notFixedPoint fieldName)

/-- `_validate_json_safe`. -/
def validateJsonSafe (fieldName : String) (value : Held) : Except LiteralError Unit :=
  validateValue requireFinite (ofChars fieldName.toList) value

/-- `_validate_feature_value`. -/
def validateFeatureValue (fieldName : String) (value : Held) : Except LiteralError Unit :=
  validateValue refuseFloat (ofChars fieldName.toList) value

mutual

/-- `_freeze_json_safe`, and `_freeze_feature_value`: every array becomes a tuple. -/
def freeze : Held → Held
  | .mapping members => .mapping (freezeMembers members)
  | .list items => .tuple (freezeItems items)
  | .tuple items => .tuple (freezeItems items)
  | value => value

def freezeMembers : List (Key × Held) → List (Key × Held)
  | [] => []
  | (key, item) :: members => (key, freeze item) :: freezeMembers members

def freezeItems : List Held → List Held
  | [] => []
  | item :: items => freeze item :: freezeItems items

end

/-- `_require_id`. -/
def requireId (fieldName : String) (value : Str) : Except LiteralError Unit :=
  require (value.all isSpace = false) (.required fieldName)

/-! ## Lowering -/

section Canonical

variable (nfc : Str → Str)

mutual

/-- `_plain`. -/
def plainHeld : Held → Except ElementError Value
  | .none => .ok .none
  | .bool b => .ok (.bool b)
  | .int n => .ok (.int n)
  | .float x => .ok (.float x)
  | .str s => .ok (.str (nfc s))
  | .mapping members => do
    let members ← plainHeldMembers [] members
    pure (.mapping members)
  | .list items => do
    let items ← plainHeldItems items
    pure (.sequence items)
  | .tuple items => do
    let items ← plainHeldItems items
    pure (.sequence (sortedTexts items))
  | .other typeName => .ok (.other typeName)

def plainHeldMembers : List Str → List (Key × Held) → Except ElementError (List (Key × Value))
  | _, [] => .ok []
  | seen, (key, item) :: members =>
    match key with
    | .other typeName => .error (.keyType typeName)
    | .name name => do
      let name := nfc name
      require (name ∉ seen) (.keysCollide name)
      let item ← plainHeld item
      let members ← plainHeldMembers (name :: seen) members
      pure ((.name name, item) :: members)

def plainHeldItems : List Held → Except ElementError (List Value)
  | [] => .ok []
  | item :: items => do
    let item ← plainHeld item
    let items ← plainHeldItems items
    pure (item :: items)

end

/-- `canonical_bytes`. -/
def heldBytes (value : Held) : Except ElementError (List UInt8) := do
  let value ← plainHeld nfc value
  registryBytes value

end Canonical

/-! ## Records -/

def heldText (s : String) : Held := .str (ofChars s.toList)

def field (name : String) (value : Held) : Key × Held := (.name (ofChars name.toList), value)

/-- `None`, or what is held. -/
def heldOption {α : Type} (hold : α → Held) : Option α → Held
  | none => .none
  | some a => hold a

def precisionValue : TemporalPrecision → String
  | .year => "year"
  | .month => "month"
  | .day => "day"
  | .hour => "hour"
  | .minute => "minute"
  | .second => "second"

def provenanceValue : TemporalProvenance → String
  | .stated => "stated"
  | .evidenceAttested => "evidence_attested"
  | .ingestionFallback => "ingestion_fallback"

def endStateValue : EndBoundaryState → String
  | .stated => "stated"
  | .unknown => "unknown"
  | .open => "open"

def classificationValue : Classification → String
  | .public => "public"
  | .internal => "internal"
  | .confidential => "confidential"
  | .restricted => "restricted"

/-- `KnowledgeObjectKind`. -/
inductive KnowledgeObjectKind where
  | entity
  | literal
  deriving DecidableEq

def KnowledgeObjectKind.value : KnowledgeObjectKind → String
  | .entity => "entity"
  | .literal => "literal"

/-- A `confidence`: an `int` or a `float`. -/
inductive Confidence where
  | int (n : Int)
  | float (x : Binary64)

def Confidence.held : Confidence → Held
  | .int n => .int n
  | .float x => .float x

/-- `KnowledgeAssertion`. -/
structure KnowledgeAssertion where
  assertionId : Str
  workspaceId : Str
  subjectId : Str
  predicateElementId : Str
  modelVersionId : Str
  objectKind : KnowledgeObjectKind
  confidence : Confidence
  attestedFrom : TemporalInstant
  validToState : EndBoundaryState
  recordedAt : TemporalInstant
  classification : Classification
  objectId : Option Str
  literalValue : Held
  validFrom : Option TemporalInstant
  validTo : Option TemporalInstant
  attestedTo : Option TemporalInstant
  recordedUntil : Option TemporalInstant

/-- The branch of `__post_init__` on the kind of the object: a literal value is validated and kept
frozen. -/
def KnowledgeAssertion.checkObject (assertion : KnowledgeAssertion) :
    Except LiteralError KnowledgeAssertion :=
  match assertion.objectKind with
  | .entity => do
    requireId "object_id" (assertion.objectId.getD [])
    match assertion.literalValue with
    | .none => pure assertion
    | _ => throw .entityWithLiteral
  | .literal => do
    require (assertion.objectId = none) .literalWithObjectId
    validateJsonSafe "literal_value" assertion.literalValue
    pure { assertion with literalValue := freeze assertion.literalValue }

/-- `ObservationFeature`. -/
structure ObservationFeature where
  workspaceId : Str
  observationId : Str
  featureName : Str
  value : Held
  policyVersion : Str
  calculationVersion : Str

/-- `ASSERTION_SCHEMA_VERSION` and `OBSERVATION_SCHEMA_VERSION`. -/
def SCHEMA_VERSION : String := "1.0.0"

section Payloads

variable (nfc : Str → Str) (strftime : Instant → String)

/-- `ObservationFeature.__post_init__`. -/
def ObservationFeature.postInit (feature : ObservationFeature) : Except LiteralError ObservationFeature := do
  requireId "workspace_id" feature.workspaceId
  requireId "observation_id" feature.observationId
  requireId "feature_name" feature.featureName
  requireId "policy_version" feature.policyVersion
  requireId "calculation_version" feature.calculationVersion
  validateFeatureValue "value" feature.value
  let _ ← (heldBytes nfc (freeze feature.value)).mapError .canonical
  pure { feature with value := freeze feature.value }

/-- `instant_payload`. -/
def instantPayload (instant : TemporalInstant) : Held :=
  .mapping ([field "value" (heldText (strftime instant.value)),
    field "precision" (heldText (precisionValue instant.precision)),
    field "provenance" (heldText (provenanceValue instant.provenance))] ++
    instant.originalSourceText.toList.map (fun text => field "original_source_text" (heldText text)) ++
    instant.sourceTimezone.toList.map fun name => field "source_timezone" (heldText name))

/-- `assertion_payload`. -/
def assertionPayload (assertion : KnowledgeAssertion) : Held :=
  .mapping [field "assertion_id" (.str assertion.assertionId),
    field "workspace_id" (.str assertion.workspaceId),
    field "subject_id" (.str assertion.subjectId),
    field "predicate_element_id" (.str assertion.predicateElementId),
    field "model_version_id" (.str assertion.modelVersionId),
    field "object_kind" (heldText assertion.objectKind.value),
    field "object_id" (heldOption .str assertion.objectId),
    field "literal_value" assertion.literalValue,
    field "confidence" assertion.confidence.held,
    field "valid_from" (heldOption (instantPayload strftime) assertion.validFrom),
    field "valid_to_state" (heldText (endStateValue assertion.validToState)),
    field "valid_to" (heldOption (instantPayload strftime) assertion.validTo),
    field "attested_from" (instantPayload strftime assertion.attestedFrom),
    field "attested_to" (heldOption (instantPayload strftime) assertion.attestedTo),
    field "recorded_at" (instantPayload strftime assertion.recordedAt),
    field "recorded_until" (heldOption (instantPayload strftime) assertion.recordedUntil),
    field "classification" (heldText (classificationValue assertion.classification)),
    field "schema_version" (heldText SCHEMA_VERSION)]

/-- `observation_feature_payload`. -/
def observationFeaturePayload (feature : ObservationFeature) : Held :=
  .mapping [field "workspace_id" (.str feature.workspaceId),
    field "observation_id" (.str feature.observationId),
    field "feature_name" (.str feature.featureName),
    field "value" feature.value,
    field "policy_version" (.str feature.policyVersion),
    field "calculation_version" (.str feature.calculationVersion),
    field "schema_version" (heldText SCHEMA_VERSION)]

end Payloads

end OmniviaCore.SemanticRegistry
