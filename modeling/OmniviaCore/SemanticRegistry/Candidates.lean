import OmniviaCore.SemanticRegistry.Literals
import OmniviaCore.SemanticRegistry.Ordering

/-!
# Candidates

The records a semantic candidate is made of: evidence and observations (`semantic_registry/evidence.py`,
`semantic_registry/observations.py`), and the contributions, weights and bands of
`semantic_registry/candidates.py`. A digest is taken over the canonical bytes of a payload; Unicode
normalization, `str.casefold`, the platform's `strftime` and SHA-256 are parameters.
-/

namespace OmniviaCore.SemanticRegistry.Aggregation

open Lib CanonicalJson
open Knowledge (TemporalInstant Classification)

/-! ## Errors -/

/-- What is raised: that a field is missing, that a rule version is not implemented, that an identifier
normalizes to nothing, what is wrong with an item of evidence or an observation, that contributions do
not go together, or the canonicalizer's error. -/
inductive CandidateError where
  | required (fieldName : String)
  | unsupportedAggregation (version : Str)
  | unsupportedNormalization (version : Str)
  | emptyIdentifier
  | evidenceKey (key : Str)
  | evidenceWorkspace (key : Str)
  | observationWorkspace
  | unknownEvidence (evidenceId : Str)
  | noObservation
  | weight
  | mixedContributions
  | duplicateContribution (observationId : Str)
  | canonical (error : ElementError)
  | keyError (key : Str)
  deriving DecidableEq

/-- `_require_id`. -/
def requireId (fieldName : String) (value : Str) : Except CandidateError Unit :=
  require (value.all isSpace = false) (.required fieldName)

def text (s : String) : Str := ofChars s.toList

/-- `d[key]`. -/
def index {α : Type} (d : Dict Str α) (key : Str) : Except CandidateError α :=
  match d.get key with
  | some a => .ok a
  | none => .error (.keyError key)

def AGGREGATION_RULE_VERSION : Str := text "candidate-aggregation-v1"

def NORMALIZATION_RULE_VERSION : Str := text "observation-normalization-v1"

/-! ## Evidence and observations -/

inductive EvidenceSupportRole where
  | support
  | contradict
  deriving DecidableEq

/-- `EvidenceSource`: which source, in which version. -/
structure EvidenceSource where
  sourceId : Str
  version : Str

/-- `EvidenceItem`: what tells one item from another. -/
structure EvidenceItem where
  evidenceId : Str
  workspaceId : Str
  source : EvidenceSource
  contentDigest : Str

/-- `EvidenceLink`. -/
structure EvidenceLink where
  evidenceId : Str
  role : EvidenceSupportRole

inductive ObservationStatus where
  | recorded
  | superseded
  | retracted
  deriving DecidableEq

inductive ObservationGeneration where
  | manual
  | deterministicRule

inductive ObservationValueKind where
  | text
  | identifier
  | relationship
  | constraint

def ObservationStatus.value : ObservationStatus → String
  | .recorded => "recorded"
  | .superseded => "superseded"
  | .retracted => "retracted"

def ObservationGeneration.value : ObservationGeneration → String
  | .manual => "manual"
  | .deterministicRule => "deterministic_rule"

def ObservationValueKind.value : ObservationValueKind → String
  | .text => "text"
  | .identifier => "identifier"
  | .relationship => "relationship"
  | .constraint => "constraint"

/-- `SemanticObservation`; of the checks of `__post_init__`, the one on its identifier. -/
structure SemanticObservation where
  observationId : Str
  workspaceId : Str
  kind : Str
  valueKind : ObservationValueKind
  originalForm : Str
  normalizedForm : Str
  proposedSemanticRole : Str
  classification : Classification
  generation : ObservationGeneration
  recordedAt : TemporalInstant
  status : ObservationStatus
  sourceTime : Option TemporalInstant
  supersedesObservationId : Option Str
  ruleVersion : Option Str
  required : observationId.all isSpace = false

/-- `ObservationBundle`: an observation, linked to one item of evidence at least. -/
structure ObservationBundle where
  observation : SemanticObservation
  evidenceLinks : List EvidenceLink
  linked : evidenceLinks ≠ []

def ObservationBundle.isActive (bundle : ObservationBundle) : Bool :=
  bundle.observation.status ≠ .retracted

/-- Some linked evidence contradicts the observation. -/
def ObservationBundle.contradicts (bundle : ObservationBundle) : Bool :=
  bundle.evidenceLinks.any fun link => link.role = .contradict

/-- A `ChangeOperation` with the evidence it refers to. -/
structure ProposedOperation extends ChangeOperation where
  evidenceRefs : List Str

/-! ## Normal forms -/

section Normalize

variable (nfc casefold : Str → Str)

/-- `str.split()`. -/
def splitWords (value : Str) : List Str := (value.splitOnP isSpace).filter (· ≠ [])

/-- `separator.join`. -/
def joinWords (separator : Char) (words : List Str) : Str := [CodePoint.scalar separator].intercalate words

/-- `normalise_text`. -/
def normaliseText (value : Str) : Str := casefold (joinWords ' ' (splitWords (nfc value)))

/-- `normalize_text`. -/
def normalizeText (value version : Str) : Except CandidateError Str := do
  requireId "normalization_version" version
  require (version = NORMALIZATION_RULE_VERSION) (.unsupportedNormalization version)
  pure (normaliseText nfc casefold value)

/-- `normalize_identifier`. -/
def normalizeIdentifier (value version : Str) : Except CandidateError Str := do
  requireId "value" value
  let separated := value.map fun c => if c = .scalar '_' ∨ c = .scalar '-' then .scalar ' ' else c
  let words := splitWords (← normalizeText nfc casefold separated version)
  require (0 < words.length) .emptyIdentifier
  pure (joinWords '-' words)

end Normalize

/-! ## Digests -/

section Digests

variable (nfc : Str → Str) (strftime : Instant → String) (sha256 : List UInt8 → String)

/-- `content_digest`. -/
def contentDigest (value : Held) : Except CandidateError String := do
  let bytes ← (heldBytes nfc value).mapError .canonical
  pure ("sha256:" ++ sha256 bytes)

/-- `evidence_dedup_signature`. -/
def evidenceDedupSignature (item : EvidenceItem) (ruleVersion : Str) : Except CandidateError String := do
  requireId "rule_version" ruleVersion
  contentDigest nfc sha256 (.mapping [field "workspace_id" (.str item.workspaceId),
    field "source_id" (.str item.source.sourceId), field "source_version" (.str item.source.version),
    field "content_digest" (.str item.contentDigest), field "rule_version" (.str ruleVersion)])

/-- `observation_payload`. -/
def observationPayload (observation : SemanticObservation) : Held :=
  .mapping [field "observation_id" (.str observation.observationId),
    field "workspace_id" (.str observation.workspaceId),
    field "kind" (.str observation.kind),
    field "value_kind" (heldText observation.valueKind.value),
    field "original_form" (.str observation.originalForm),
    field "normalized_form" (.str observation.normalizedForm),
    field "proposed_semantic_role" (.str observation.proposedSemanticRole),
    field "classification" (heldText (classificationValue observation.classification)),
    field "generation" (heldText observation.generation.value),
    field "status" (heldText observation.status.value),
    field "recorded_at" (instantPayload strftime observation.recordedAt),
    field "source_time" (heldOption (instantPayload strftime) observation.sourceTime),
    field "supersedes_observation_id" (heldOption .str observation.supersedesObservationId),
    field "rule_version" (heldOption .str observation.ruleVersion),
    field "schema_version" (heldText SCHEMA_VERSION)]

/-- `observation_digest`. -/
def observationDigest (observation : SemanticObservation) : Except CandidateError String :=
  contentDigest nfc sha256 (observationPayload strftime observation)

/-- The fields of an operation that its payload keeps. -/
def ProposedOperation.fields (op : ProposedOperation) : Fields :=
  [("operation_id", .json (.str op.operationId)), ("kind", .json (textValue op.kind.value)),
    ("after", .json (.mapping op.after)),
    ("target_element_id", .json ((op.targetElementId.map .str).getD .none)),
    ("proposed_element_id", .json ((op.proposedElementId.map .str).getD .none)),
    ("base_payload_digest", .json ((op.basePayloadDigest.map textValue).getD .none)),
    ("before", .json ((op.before.map .mapping).getD .none)),
    ("depends_on_operation_ids", .tuple (op.dependsOnOperationIds.map .str)),
    ("evidence_refs", .tuple (op.evidenceRefs.map .str)),
    ("schema_version", .json (textValue SCHEMA_VERSION))]

/-- `operation_payload`. -/
def operationPayload (op : ProposedOperation) : Except ElementError Value := do
  let members ← op.fields.mapM fun f => do
    let value ← plain nfc f.2
    pure (Key.name (ofChars f.1.toList), value)
  pure (.mapping members)

/-- The `content_digest` of an operation's payload. -/
def operationDigest (op : ProposedOperation) : Except CandidateError String := do
  let bytes ← (do
    let payload ← operationPayload nfc op
    let value ← plainValue nfc payload
    registryBytes value).mapError .canonical
  pure ("sha256:" ++ sha256 bytes)

/-- `candidate_equivalence_signature`. -/
def candidateEquivalenceSignature (workspaceId candidateKind targetModelId : Str)
    (op : ProposedOperation) (normalizationVersion aggregationVersion : Str) :
    Except CandidateError String := do
  requireId "workspace_id" workspaceId
  requireId "candidate_kind" candidateKind
  requireId "target_model_id" targetModelId
  requireId "normalization_version" normalizationVersion
  requireId "aggregation_version" aggregationVersion
  let digest ← operationDigest nfc sha256 op
  contentDigest nfc sha256 (.mapping [field "workspace_id" (.str workspaceId),
    field "candidate_kind" (.str candidateKind), field "target_model_id" (.str targetModelId),
    field "proposed_operation_digest" (heldText digest),
    field "normalization_version" (.str normalizationVersion),
    field "aggregation_version" (.str aggregationVersion)])

end Digests

/-! ## Contributions -/

inductive ContributionRole where
  | support
  | contradict
  | novelty
  deriving DecidableEq

/-- `CandidateContribution`. -/
structure CandidateContribution where
  workspaceId : Str
  candidateId : Str
  observationId : Str
  role : ContributionRole
  weight : ℕ
  observationDigest : String

/-- `CandidateContribution.__post_init__`. -/
def CandidateContribution.postInit (contribution : CandidateContribution) :
    Except CandidateError Unit := do
  requireId "workspace_id" contribution.workspaceId
  requireId "candidate_id" contribution.candidateId
  requireId "observation_id" contribution.observationId
  require (contribution.weight ≤ 10000) .weight
  requireId "observation_digest" (text contribution.observationDigest)

/-- `CandidateBand`, by strength. -/
inductive CandidateBand where
  | low
  | medium
  | high
  deriving DecidableEq

def CandidateBand.rank : CandidateBand → ℕ
  | .low => 0
  | .medium => 1
  | .high => 2

inductive CandidateRiskBand where
  | low
  | standard
  | high
  | critical
  deriving DecidableEq

/-- `_band_from_weight`. -/
def bandFromWeight (weight : ℕ) : CandidateBand :=
  if weight ≤ 999 then .low else if weight ≤ 4999 then .medium else .high

/-- `_risk_band_from_weight`. -/
def riskBandFromWeight (weight : ℕ) : CandidateRiskBand :=
  if weight = 0 then .low
  else if weight ≤ 999 then .standard
  else if weight ≤ 4999 then .high
  else .critical

/-- `CandidateFeatureSummary`. -/
structure CandidateFeatureSummary where
  supportCount : ℕ
  supportWeight : ℕ
  contradictCount : ℕ
  contradictWeight : ℕ
  noveltyCount : ℕ
  noveltyWeight : ℕ
  supportBand : CandidateBand
  noveltyBand : CandidateBand
  riskBand : CandidateRiskBand
  aggregationVersion : Str

/-- The loop of `_require_consistent_contributions`. -/
def requireConsistentContributions :
    Option (Str × Str) → List Str → List CandidateContribution → Except CandidateError Unit
  | _, _, [] => .ok ()
  | seenCandidate, seenObservationIds, contribution :: contributions => do
    let candidateKey := (contribution.workspaceId, contribution.candidateId)
    require (candidateKey = seenCandidate.getD candidateKey) .mixedContributions
    require (contribution.observationId ∉ seenObservationIds)
      (.duplicateContribution contribution.observationId)
    requireConsistentContributions (some (seenCandidate.getD candidateKey))
      (contribution.observationId :: seenObservationIds) contributions

def inRole (role : ContributionRole) (contributions : List CandidateContribution) :
    List CandidateContribution :=
  contributions.filter fun contribution => contribution.role = role

def weightIn (role : ContributionRole) (contributions : List CandidateContribution) : ℕ :=
  ((inRole role contributions).map CandidateContribution.weight).sum

/-- `aggregate_candidate_features`. -/
def aggregateCandidateFeatures (contributions : List CandidateContribution) (aggregationVersion : Str) :
    Except CandidateError CandidateFeatureSummary := do
  requireId "aggregation_version" aggregationVersion
  requireConsistentContributions none [] contributions
  pure {
    supportCount := (inRole .support contributions).length
    supportWeight := weightIn .support contributions
    contradictCount := (inRole .contradict contributions).length
    contradictWeight := weightIn .contradict contributions
    noveltyCount := (inRole .novelty contributions).length
    noveltyWeight := weightIn .novelty contributions
    supportBand := bandFromWeight (weightIn .support contributions)
    noveltyBand := bandFromWeight (weightIn .novelty contributions)
    riskBand := riskBandFromWeight (weightIn .contradict contributions)
    aggregationVersion }

end OmniviaCore.SemanticRegistry.Aggregation
