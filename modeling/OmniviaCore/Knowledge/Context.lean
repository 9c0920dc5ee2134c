import OmniviaCore.CanonicalJson.Documents
import OmniviaCore.Knowledge.Positions

/-!
# Task profiles, Context Packs and selection manifests

The values `assemble_stage1_context` of `governed_knowledge/context.py` reads and writes, and the content of
a manifest with its digest (`governed_knowledge/profile_content.py`). The three values the assembly builds
are records whose checks are run when they are built. SHA-256 is the argument `sha256`; how the platform
spells an instant is the argument `strftime`.
-/

namespace OmniviaCore.Knowledge

open Lib CanonicalJson

/-- What an assembly raises: what the layer raises, or what the canonicalizer does. -/
inductive AssemblyRaised where
  | knowledge (e : Knowledge.Raised)
  | canonical (e : CanonicalJson.Raised)

/-! ## Checks -/

/-- `_require_id`. -/
def requireId (fieldName value : String) : Except Raised Unit :=
  require (isBlank value = false) (.validation .missingField s!"{fieldName} is required")

/-- `_require_str_tuple`. -/
def requireStrTuple (fieldName : String) (values : List String) : Except Raised Unit :=
  values.zipIdx.forM fun (item, index) =>
    require (isBlank item = false)
      (.validation .invalidField s!"{fieldName}[{index}] must be a non-empty string")

/-! ## Consumers and profiles -/

/-- `ConsumerKind`. -/
inductive ConsumerKind where
  | app
  | workflow
  | insight
  | connector
  | agentContract
  | policy
  | projection
  | externalApi
  deriving DecidableEq

/-- `Consumer`. -/
structure Consumer where
  consumerId : String
  kind : ConsumerKind
  owner : String
  deploymentIdentity : String
  criticality : String
  lifecycleState : String
  valid : ∀ text ∈ [consumerId, owner, deploymentIdentity], isBlank text = false

/-- `KnowledgeConsumerDependency`, as far as an assembly looks at it. -/
structure KnowledgeConsumerDependency where
  consumer : Consumer

/-- `ContextFreshnessPolicy`. -/
inductive ContextFreshnessPolicy where
  | strict
  | permissiveWithWarning
  deriving DecidableEq

def ContextFreshnessPolicy.value : ContextFreshnessPolicy → String
  | .strict => "strict"
  | .permissiveWithWarning => "permissive_with_warning"

/-- `TaskContextProfile`, whose profile version is the one the contract has. -/
structure TaskContextProfile where
  profileId : String
  versionRef : String
  purpose : String
  workspaceId : String
  allowedConsumerKinds : List ConsumerKind
  requiredScopeRefs : List String
  requiredFactRefs : List String
  knowledgeDomainRefs : List String
  selectionStageRefs : List String
  freshnessPolicy : ContextFreshnessPolicy
  maxBytes : ℕ
  maxItems : Option ℕ
  inclusionPriorityRefs : List String
  responseShape : String
  valid : ∀ text ∈ [profileId, versionRef, purpose, workspaceId, responseShape] ++ requiredScopeRefs ++
    requiredFactRefs ++ knowledgeDomainRefs ++ selectionStageRefs ++ inclusionPriorityRefs,
    isBlank text = false
  maxBytes_pos : 0 < maxBytes
  maxItems_pos : ∀ n ∈ maxItems, 0 < n

/-! ## Context Packs -/

/-- `ContextPackAuthorizationContext`, as far as an assembly looks at it. -/
structure ContextPackAuthorizationContext where
  workspaceId : String
  scopes : List String
  purpose : String

/-- `RecordVersionReference`. -/
structure RecordVersionReference where
  recordId : String
  version : String

/-- `ContextPackReproducibility`, as far as an assembly looks at it. -/
structure ContextPackReproducibility where
  authorizationContext : ContextPackAuthorizationContext
  evidenceVersions : List Value
  recordVersions : List RecordVersionReference
  projectionWatermarks : Dict String String
  tokenizerVersion : String
  artifactChecksum : String

/-- `ContextPackBuildResult`, as far as an assembly looks at it, with the document `to_wire` renders. -/
structure ContextPackBuildResult where
  packId : String
  omissions : List Value
  reproducibility : ContextPackReproducibility
  freshAuthorizationRequired : Bool
  wire : Value

/-! ## Selections -/

/-- `SelectionAuthorityClass`. -/
inductive SelectionAuthorityClass where
  | admittedKnowledge
  | supportingEvidence
  | pendingAssertion
  | historicalKnowledge
  | authenticatedInstruction
  | generatedInterpretation
  deriving DecidableEq

def SelectionAuthorityClass.value : SelectionAuthorityClass → String
  | .admittedKnowledge => "admitted_knowledge"
  | .supportingEvidence => "supporting_evidence"
  | .pendingAssertion => "pending_assertion"
  | .historicalKnowledge => "historical_knowledge"
  | .authenticatedInstruction => "authenticated_instruction"
  | .generatedInterpretation => "generated_interpretation"

/-- `SelectedContextItem`. -/
structure SelectedContextItem where
  itemVersionRef : String
  authorityClass : SelectionAuthorityClass
  selectionReason : String
  sourceSpanRefs : List String
  applicabilityResultRef : Option String

/-- `SelectedContextItem.__post_init__`. -/
def SelectedContextItem.build (item : SelectedContextItem) : Except Raised SelectedContextItem := do
  requireId "item_version_ref" item.itemVersionRef
  requireId "selection_reason" item.selectionReason
  requireStrTuple "source_span_refs" item.sourceSpanRefs
  item.applicabilityResultRef.toList.forM (requireId "applicability_result_ref")
  pure item

/-- `ManifestOmission`. -/
structure ManifestOmission where
  reasonCode : String
  safeReason : String
  itemVersionRef : Option String

/-- `ManifestOmission.__post_init__`. -/
def ManifestOmission.build (omission : ManifestOmission) : Except Raised ManifestOmission := do
  requireId "reason_code" omission.reasonCode
  requireId "safe_reason" omission.safeReason
  omission.itemVersionRef.toList.forM (requireId "item_version_ref")
  pure omission

/-- `ContextSelectionManifest`, whose manifest version is the one the contract has. -/
structure ContextSelectionManifest where
  manifestId : String
  profileVersionRef : String
  workspaceId : String
  purpose : String
  consumerRef : String
  requestRef : String
  semanticModelVersionRef : String
  validAt : TemporalInstant
  recordedAsOf : TemporalInstant
  queryTime : TemporalInstant
  consumerDeploymentRef : String
  checkpointRefs : List String
  selectedItemRefs : List String
  selectedItems : List SelectedContextItem
  applicabilityResults : List ApplicabilityResult
  selectionReasons : List String
  transformationNotes : List String
  coverageNote : String
  partialCoverage : Bool
  retrievalMechanisms : List String
  omissions : List ManifestOmission
  effectiveByteBound : ℕ
  measuredBytes : Option ℕ
  byteCountIsEstimated : Bool
  tokenizerVersion : Option String
  policyVersion : String
  freshnessPolicy : ContextFreshnessPolicy
  reviewOverdueItemRefs : List String
  recheckConditions : List String
  issuerClass : String
  integrityAlgorithm : String
  packIdentity : Option String
  packDigest : Option String
  integrityDigest : Option String

/-- `ContextSelectionManifest.__post_init__`. -/
def ContextSelectionManifest.build (m : ContextSelectionManifest) :
    Except Raised ContextSelectionManifest := do
  requireId "manifest_id" m.manifestId
  requireId "profile_version_ref" m.profileVersionRef
  requireId "workspace_id" m.workspaceId
  requireId "purpose" m.purpose
  requireId "consumer_ref" m.consumerRef
  requireId "consumer_deployment_ref" m.consumerDeploymentRef
  requireId "request_ref" m.requestRef
  requireId "semantic_model_version_ref" m.semanticModelVersionRef
  requireId "policy_version" m.policyVersion
  requireStrTuple "checkpoint_refs" m.checkpointRefs
  requireStrTuple "selected_item_refs" m.selectedItemRefs
  requireStrTuple "selection_reasons" m.selectionReasons
  requireStrTuple "transformation_notes" m.transformationNotes
  requireStrTuple "review_overdue_item_refs" m.reviewOverdueItemRefs
  requireStrTuple "retrieval_mechanisms" m.retrievalMechanisms
  requireStrTuple "recheck_conditions" m.recheckConditions
  require (0 < m.effectiveByteBound)
    (.validation .invalidField "effective_byte_bound must be a positive integer")
  require (m.issuerClass = "core_issued")
    (.validation .unsupportedValue "selection manifest issuer_class must be core_issued")
  requireId "integrity_algorithm" m.integrityAlgorithm
  pure m

/-! ## The content of a manifest -/

def TemporalPrecision.value : TemporalPrecision → String
  | .year => "year"
  | .month => "month"
  | .day => "day"
  | .hour => "hour"
  | .minute => "minute"
  | .second => "second"

def TemporalProvenance.value : TemporalProvenance → String
  | .stated => "stated"
  | .evidenceAttested => "evidence_attested"
  | .ingestionFallback => "ingestion_fallback"

/-- A text, or `None`. -/
def optionalText : Option String → Value
  | none => .none
  | some text => textValue text

def textList (texts : List String) : Value := .sequence (texts.map textValue)

def APPLICABILITY_CONTRACT_VERSION : String := "governed-knowledge-applicability-v1"

def CONTEXT_SELECTION_MANIFEST_VERSION : String := "governed-knowledge-selection-manifest-v1"

/-- An element of `selected_items`. -/
def SelectedContextItem.content (item : SelectedContextItem) : Value :=
  mappingOf
    [("item_version_ref", textValue item.itemVersionRef),
      ("authority_class", textValue item.authorityClass.value),
      ("selection_reason", textValue item.selectionReason),
      ("source_span_refs", textList item.sourceSpanRefs),
      ("applicability_result_ref", optionalText item.applicabilityResultRef)]

/-- An element of `omissions`. -/
def ManifestOmission.content (omission : ManifestOmission) : Value :=
  mappingOf
    [("reason_code", textValue omission.reasonCode),
      ("safe_reason", textValue omission.safeReason),
      ("item_version_ref", optionalText omission.itemVersionRef)]

/-- `encode_applicability_result`. -/
def encodeApplicabilityResult (result : ApplicabilityResult) : Value :=
  mappingOf
    [("outcome", textValue result.outcome.value),
      ("fact_snapshot_ref", textValue result.factSnapshotRef),
      ("position_version_ref", textValue result.positionVersionRef),
      ("evaluator_version", textValue APPLICABILITY_CONTRACT_VERSION),
      ("authorized_fact_refs", textList result.authorizedFactRefs),
      ("reasons", textList result.reasons),
      ("fact_provenance_classes", .sequence (result.factProvenanceClasses.map fun entry =>
        mappingOf [("fact_ref", textValue entry.1), ("provenance_class", textValue entry.2)]))]

section

variable (strftime : Instant → String)

/-- `encode_instant`. -/
def encodeInstant (instant : TemporalInstant) : Value :=
  mappingOf
    [("value", textValue (strftime instant.value)),
      ("precision", textValue instant.precision.value),
      ("provenance", textValue instant.provenance.value),
      ("original_source_text", optionalText instant.originalSourceText),
      ("source_timezone", optionalText instant.sourceTimezone)]

/-- `selection_manifest_to_content`. -/
def selectionManifestToContent (m : ContextSelectionManifest) : List (String × Value) :=
  [("profile_version", textValue CONTEXT_SELECTION_MANIFEST_VERSION),
    ("manifest_id", textValue m.manifestId),
    ("profile_version_ref", textValue m.profileVersionRef),
    ("workspace_id", textValue m.workspaceId),
    ("purpose", textValue m.purpose),
    ("consumer_ref", textValue m.consumerRef),
    ("consumer_deployment_ref", textValue m.consumerDeploymentRef),
    ("request_ref", textValue m.requestRef),
    ("semantic_model_version_ref", textValue m.semanticModelVersionRef),
    ("valid_at", encodeInstant strftime m.validAt),
    ("recorded_as_of", encodeInstant strftime m.recordedAsOf),
    ("query_time", encodeInstant strftime m.queryTime),
    ("checkpoint_refs", textList m.checkpointRefs),
    ("selected_item_refs", textList m.selectedItemRefs),
    ("selected_items", .sequence (m.selectedItems.map SelectedContextItem.content)),
    ("applicability_results", .sequence (m.applicabilityResults.map encodeApplicabilityResult)),
    ("selection_reasons", textList m.selectionReasons),
    ("transformation_notes", textList m.transformationNotes),
    ("coverage_note", textValue m.coverageNote),
    ("partial_coverage", .bool m.partialCoverage),
    ("retrieval_mechanisms", textList m.retrievalMechanisms),
    ("omissions", .sequence (m.omissions.map ManifestOmission.content)),
    ("effective_byte_bound", .int m.effectiveByteBound),
    ("measured_bytes", m.measuredBytes.elim .none fun n => .int n),
    ("byte_count_is_estimated", .bool m.byteCountIsEstimated),
    ("tokenizer_version", optionalText m.tokenizerVersion),
    ("policy_version", textValue m.policyVersion),
    ("freshness_policy", textValue m.freshnessPolicy.value),
    ("review_overdue_item_refs", textList m.reviewOverdueItemRefs),
    ("recheck_conditions", textList m.recheckConditions),
    ("issuer_class", textValue m.issuerClass),
    ("integrity_algorithm", textValue m.integrityAlgorithm),
    ("pack_identity", optionalText m.packIdentity),
    ("pack_digest", optionalText m.packDigest),
    ("integrity_digest", optionalText m.integrityDigest)]

-- The hexadecimal digest of some bytes.
variable (sha256 : List UInt8 → String)

/-- `compute_selection_manifest_digest`. -/
def computeSelectionManifestDigest (m : ContextSelectionManifest) :
    Except CanonicalJson.Raised String := do
  let content := (selectionManifestToContent strftime m).filter fun member =>
    member.1 ≠ "manifest_id" ∧ member.1 ≠ "integrity_digest"
  let canonical ← canonicalBytes (mappingOf content) []
  pure ("sha256:" ++ sha256 canonical)

/-- `verify_selection_manifest_digest`. -/
def verifySelectionManifestDigest (m : ContextSelectionManifest) :
    Except CanonicalJson.Raised Bool := do
  let digest ← computeSelectionManifestDigest strftime sha256 m
  pure (m.integrityDigest = some digest)

end

end OmniviaCore.Knowledge
