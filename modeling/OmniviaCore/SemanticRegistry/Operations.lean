import OmniviaCore.SemanticRegistry.Elements

/-!
# Change operations

`ChangeOperation` of `semantic_registry/operations.py`: one typed change against a base snapshot, of one
of eighteen kinds. `__post_init__` asks of a kind which of the two identifiers it carries and which
keys of `after` it requires; a key it does not require it does not look at.
-/

namespace OmniviaCore.SemanticRegistry

open Lib CanonicalJson

inductive OperationKind where
  | addConcept | addProperty | addRelationship | addConstraint | addAlias | addVocabularyMember
  | addActionType | changeLabel | changeDescription | changeHierarchy | changeDomainRange
  | changeCardinality | changeEquivalence | changeDisjointness | changeActionContract
  | deprecateElement | replaceElement | removeElement
  deriving DecidableEq

namespace OperationKind

def value : OperationKind → String
  | addConcept => "AddConcept"
  | addProperty => "AddProperty"
  | addRelationship => "AddRelationship"
  | addConstraint => "AddConstraint"
  | addAlias => "AddAlias"
  | addVocabularyMember => "AddVocabularyMember"
  | addActionType => "AddActionType"
  | changeLabel => "ChangeLabel"
  | changeDescription => "ChangeDescription"
  | changeHierarchy => "ChangeHierarchy"
  | changeDomainRange => "ChangeDomainRange"
  | changeCardinality => "ChangeCardinality"
  | changeEquivalence => "ChangeEquivalence"
  | changeDisjointness => "ChangeDisjointness"
  | changeActionContract => "ChangeActionContract"
  | deprecateElement => "DeprecateElement"
  | replaceElement => "ReplaceElement"
  | removeElement => "RemoveElement"

/-- `_ADD_KINDS`, with the element type each mints (`_ADDED_ELEMENT_KINDS`). -/
def added : OperationKind → Option ElementKind
  | addConcept => some .concept
  | addProperty => some .property
  | addRelationship => some .relationship
  | addConstraint => some .constraint
  | addAlias => some .alias
  | addVocabularyMember => some .vocabularyMember
  | addActionType => some .actionType
  | _ => none

/-- `_REQUIRED_AFTER_KEYS`, in order. -/
def requiredAfterKeys : OperationKind → List String
  | addConcept => ["label"]
  | addProperty => ["label", "value_kind"]
  | addRelationship => ["label", "object_concept_id", "subject_concept_id"]
  | addConstraint => ["constraint_kind", "target_element_id"]
  | addAlias => ["target_element_id", "value"]
  | addVocabularyMember => ["value", "vocabulary_element_id"]
  | addActionType => ["label", "parameter_schema_digest", "subject_concept_id"]
  | changeLabel => ["label"]
  | changeDescription => ["description"]
  | changeHierarchy => ["parent_concept_ids"]
  | changeDomainRange => ["domain_id", "range_id"]
  | changeCardinality => ["max_cardinality", "min_cardinality"]
  | changeEquivalence => ["equivalent_element_id"]
  | changeDisjointness => ["disjoint_with_element_id"]
  | changeActionContract => ["parameter_schema_digest"]
  | deprecateElement => ["reason_code"]
  | replaceElement => ["replacement_element_id"]
  | removeElement => []

/-- `_ANY_OF_KINDS`. -/
def anyOf : OperationKind → Bool
  | changeDomainRange | changeCardinality => true
  | _ => false

end OperationKind

/-- The members of an operation, as it is built. -/
structure OperationMembers where
  operationId : Str
  kind : OperationKind
  after : JsonMapping
  targetElementId : Option Str
  proposedElementId : Option Str
  basePayloadDigest : Option String
  before : Option JsonMapping
  dependsOnOperationIds : List Str

/-- `_validate_json_mapping`. -/
def validateJsonMapping (value : JsonMapping) : Except ElementError Unit :=
  match canonicalize (.mapping value) [] with
  | .ok _ => .ok ()
  | .error (.contract error) => .error (.canonical error)
  | .error .valueError => .error .valueError

/-- The keys of `after` a kind asks for are there. -/
def OperationMembers.carriesRequired (op : OperationMembers) : Prop :=
  if op.kind = .removeElement then op.after = []
  else if op.kind.anyOf then ∃ key ∈ op.kind.requiredAfterKeys, op.after.has key
  else ∀ key ∈ op.kind.requiredAfterKeys, op.after.has key

instance (op : OperationMembers) : Decidable op.carriesRequired := by
  unfold OperationMembers.carriesRequired
  infer_instance

/-- What a payload without its required keys is refused for. -/
def OperationKind.missingKeys (kind : OperationKind) : ElementError :=
  let listed := "[" ++ ", ".intercalate (kind.requiredAfterKeys.map fun key => "'" ++ key ++ "'") ++ "]"
  if kind = .removeElement then
    .semantic .invalidField s!"{kind.value} must carry an empty after payload"
  else if kind.anyOf then
    .semantic .missingField s!"{kind.value} requires at least one of {listed} in after"
  else .semantic .missingField s!"{kind.value} requires all of {listed} in after"

/-- An operation that adds proposes an identifier, any other one targets one. -/
def OperationMembers.requireIdentifier (op : OperationMembers) : Except ElementError Unit :=
  if op.kind.added.isSome then
    require (op.proposedElementId.isSome ∧ op.targetElementId = none) (.semantic .invalidField
      s!"{op.kind.value} must set proposed_element_id and not target_element_id")
  else
    require (op.targetElementId.isSome ∧ op.proposedElementId = none) (.semantic .invalidField
      s!"{op.kind.value} must set target_element_id and not proposed_element_id")

def validateOptional : Option JsonMapping → Except ElementError Unit
  | some value => validateJsonMapping value
  | none => .ok ()

/-- `ChangeOperation.__post_init__`. -/
def OperationMembers.postInit (op : OperationMembers) : Except ElementError Unit := do
  require (op.operationId.all isSpace = false) (.semantic .missingField "operation_id is required")
  op.requireIdentifier
  validateJsonMapping op.after
  validateOptional op.before
  require op.carriesRequired op.kind.missingKeys
  require op.dependsOnOperationIds.Nodup
    (.semantic .duplicateId "depends_on_operation_ids must not repeat an id")
  require (op.operationId ∉ op.dependsOnOperationIds)
    (.semantic .cyclicDependency "an operation cannot depend on itself")

/-- An admissible operation. -/
structure ChangeOperation extends OperationMembers where
  valid : toOperationMembers.postInit = .ok ()

end OmniviaCore.SemanticRegistry
