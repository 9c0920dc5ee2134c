import OmniviaCore.SemanticRegistry.Candidates

/-!
# Building a candidate

`build_candidate` of `semantic_registry/aggregation.py`. The evidence and the observations a caller hands
over are checked one after the other, the observations that were not retracted are kept, and each is
weighed by the items of evidence it is linked to: of items with one deduplication signature, the one with
the lowest identifier stands for all.
-/

namespace OmniviaCore.SemanticRegistry.Aggregation

open Lib CanonicalJson
open Knowledge (TemporalInstant)

def WEIGHT_PER_EVIDENCE : ℕ := 500

def WEIGHT_PER_EXTRA_SOURCE : ℕ := 500

def MAX_CONTRIBUTION_WEIGHT : ℕ := 10000

/-- `ModelVersion`: the base a change is proposed against. -/
structure ModelVersion where
  modelVersionId : Str
  modelId : Str
  elements : Snapshot

/-- The arguments of `build_candidate`. -/
structure Request where
  candidateId : Str
  candidateKind : Str
  workspaceId : Str
  base : ModelVersion
  proposedOperation : ProposedOperation
  bundles : List ObservationBundle
  evidence : Dict Str EvidenceItem
  createdAt : TemporalInstant
  aggregationVersion : Str
  normalizationVersion : Str

/-- `SemanticCandidate`, in the state `draft`, without a rejection signature. -/
structure SemanticCandidate where
  candidateId : Str
  workspaceId : Str
  candidateKind : Str
  targetModelId : Str
  proposedOperation : ProposedOperation
  supportBand : CandidateBand
  noveltyBand : CandidateBand
  riskBand : CandidateRiskBand
  aggregationVersion : Str
  normalizationVersion : Str
  baseVersionId : Str
  evidenceSnapshotDigest : String
  createdAt : TemporalInstant

/-- `CandidateEvidenceFeatures`. -/
structure CandidateEvidenceFeatures where
  summary : CandidateFeatureSummary
  independentEvidenceCount : ℕ
  independentSourceCount : ℕ
  normalizationVersion : Str

/-- `CandidateAggregation`. -/
structure CandidateAggregation where
  candidate : SemanticCandidate
  contributions : List CandidateContribution
  features : CandidateEvidenceFeatures
  equivalenceSignature : String

/-- `SemanticCandidate.__post_init__`. -/
def SemanticCandidate.postInit (candidate : SemanticCandidate) : Except CandidateError Unit := do
  requireId "candidate_id" candidate.candidateId
  requireId "workspace_id" candidate.workspaceId
  requireId "candidate_kind" candidate.candidateKind
  requireId "target_model_id" candidate.targetModelId
  requireId "aggregation_version" candidate.aggregationVersion
  requireId "normalization_version" candidate.normalizationVersion
  requireId "base_version_id" candidate.baseVersionId
  requireId "evidence_snapshot_digest" (text candidate.evidenceSnapshotDigest)

/-- `require_supported_versions`. -/
def requireSupportedVersions (aggregationVersion normalizationVersion : Str) :
    Except CandidateError Unit := do
  requireId "aggregation_version" aggregationVersion
  requireId "normalization_version" normalizationVersion
  require (aggregationVersion = AGGREGATION_RULE_VERSION) (.unsupportedAggregation aggregationVersion)
  require (normalizationVersion = NORMALIZATION_RULE_VERSION)
    (.unsupportedNormalization normalizationVersion)

/-- `_is_novel`: an empty target is no target. -/
def isNovel (base : ModelVersion) (op : ProposedOperation) : Bool :=
  match if op.targetElementId.getD [] = [] then op.proposedElementId else op.targetElementId with
  | none => false
  | some target => target ∉ base.elements.elements.map Element.elementId

/-! ## The two loops -/

def checkEvidence (workspaceId : Str) (entry : Str × EvidenceItem) : Except CandidateError Unit := do
  require (entry.2.evidenceId = entry.1) (.evidenceKey entry.1)
  require (entry.2.workspaceId = workspaceId) (.evidenceWorkspace entry.1)

/-- What the loop over the observations gathers. -/
structure Scan where
  active : List ObservationBundle
  referenced : List EvidenceItem
  seenEvidence : List Str

section Scan

variable (workspaceId : Str) (evidence : Dict Str EvidenceItem)

/-- The body of the loop over the links of an observation. -/
def scanLink (scan : Scan) (link : EvidenceLink) : Except CandidateError Scan :=
  match evidence.get link.evidenceId with
  | none => .error (.unknownEvidence link.evidenceId)
  | some item =>
    .ok (if link.evidenceId ∈ scan.seenEvidence then scan
      else { scan with
        referenced := scan.referenced ++ [item]
        seenEvidence := scan.seenEvidence ++ [link.evidenceId] })

def scanBundle (scan : Scan) (bundle : ObservationBundle) : Except CandidateError Scan := do
  require (bundle.observation.workspaceId = workspaceId) .observationWorkspace
  if bundle.isActive then
    bundle.evidenceLinks.foldlM (scanLink evidence) { scan with active := scan.active ++ [bundle] }
  else pure scan

def scanBundles (bundles : List ObservationBundle) : Except CandidateError Scan :=
  bundles.foldlM (scanBundle workspaceId evidence) ⟨[], [], []⟩

end Scan

/-! ## Deduplication -/

section Dedup

variable (nfc : Str → Str) (sha256 : List UInt8 → String)

def signed (ruleVersion : Str) (item : EvidenceItem) : Except CandidateError (Str × String) := do
  let signature ← evidenceDedupSignature nfc sha256 item ruleVersion
  pure (item.evidenceId, signature)

def leastBySignature (items : List (Str × String)) : Dict String Str :=
  items.foldl (fun least item =>
    match least.get item.2 with
    | none => least.set item.2 item.1
    | some current =>
      if codePoints item.1 < codePoints current then least.set item.2 item.1 else least)
    ⟨[], List.nodup_nil⟩

/-- `_dedup_representatives`. -/
def dedupRepresentatives (items : List EvidenceItem) (ruleVersion : Str) :
    Except CandidateError (Dict Str Str) := do
  let items ← items.mapM (signed nfc sha256 ruleVersion)
  let least := leastBySignature items
  pure (items.foldl (fun representatives item =>
    match least.get item.2 with
    | none => representatives
    | some least => representatives.set item.1 least) ⟨[], List.nodup_nil⟩)

/-- `evidence_snapshot_digest`. -/
def evidenceSnapshotDigest (items : List EvidenceItem) (ruleVersion : Str) :
    Except CandidateError String := do
  requireId "rule_version" ruleVersion
  let signatures ← items.mapM fun item => evidenceDedupSignature nfc sha256 item ruleVersion
  contentDigest nfc sha256 (.mapping [field "rule_version" (.str ruleVersion),
    field "signatures" (.list ((sortBy String.toList signatures.dedup).map heldText))])

end Dedup

/-! ## The candidate -/

/-- The weight of an observation with that many representatives from that many sources. -/
def weightOf (evidenceCount sourceCount : ℕ) : ℕ :=
  min MAX_CONTRIBUTION_WEIGHT
    (WEIGHT_PER_EVIDENCE * evidenceCount + WEIGHT_PER_EXTRA_SOURCE * (sourceCount - 1))

/-- What one observation adds: the representatives it is linked to, their sources, its contribution. -/
structure Part where
  evidenceIds : List Str
  sourceIds : List Str
  contribution : CandidateContribution

section Build

variable (nfc casefold : Str → Str) (strftime : Instant → String) (sha256 : List UInt8 → String)

def roleOf (novel : Bool) (bundle : ObservationBundle) : ContributionRole :=
  if bundle.contradicts then .contradict else if novel then .novelty else .support

/-- The body of the loop over the observations that count. -/
def contribute (request : Request) (representative : Dict Str Str) (novel : Bool)
    (bundle : ObservationBundle) : Except CandidateError Part := do
  let representatives ← bundle.evidenceLinks.mapM fun link => index representative link.evidenceId
  let evidenceIds := representatives.dedup
  let sources ← evidenceIds.mapM fun evidenceId => do
    let item ← index request.evidence evidenceId
    pure item.source.sourceId
  let sourceIds := sources.dedup
  let digest ← observationDigest nfc strftime sha256 bundle.observation
  let contribution : CandidateContribution := {
    workspaceId := request.workspaceId
    candidateId := request.candidateId
    observationId := bundle.observation.observationId
    role := roleOf novel bundle
    weight := weightOf evidenceIds.length sourceIds.length
    observationDigest := digest }
  contribution.postInit
  pure ⟨evidenceIds, sourceIds, contribution⟩

/-- The contributions in the order of their observations. -/
def sortContributions (contributions : List CandidateContribution) : List CandidateContribution :=
  sortBy (fun contribution => codePoints contribution.observationId) contributions

/-- The candidate of the parts, once every observation has made its own. -/
def assemble (request : Request) (kind : Str) (parts : List Part) :
    Except CandidateError CandidateAggregation := do
  let allEvidence := (parts.flatMap Part.evidenceIds).dedup
  let allSources := (parts.flatMap Part.sourceIds).dedup
  let contributions := sortContributions (parts.map Part.contribution)
  let summary ← aggregateCandidateFeatures contributions request.aggregationVersion
  let items ← (sortBy codePoints allEvidence).mapM (index request.evidence)
  let snapshot ← evidenceSnapshotDigest nfc sha256 items request.aggregationVersion
  let candidate : SemanticCandidate := {
    candidateId := request.candidateId
    workspaceId := request.workspaceId
    candidateKind := kind
    targetModelId := request.base.modelId
    proposedOperation := request.proposedOperation
    supportBand := summary.supportBand
    noveltyBand := summary.noveltyBand
    riskBand := summary.riskBand
    aggregationVersion := request.aggregationVersion
    normalizationVersion := request.normalizationVersion
    baseVersionId := request.base.modelVersionId
    evidenceSnapshotDigest := snapshot
    createdAt := request.createdAt }
  candidate.postInit
  let signature ← candidateEquivalenceSignature nfc sha256 request.workspaceId kind request.base.modelId
    request.proposedOperation request.normalizationVersion request.aggregationVersion
  pure {
    candidate
    contributions
    features := {
      summary
      independentEvidenceCount := allEvidence.length
      independentSourceCount := allSources.length
      normalizationVersion := request.normalizationVersion }
    equivalenceSignature := signature }

/-- The checks made before the collection is looked at. -/
def checkHeader (request : Request) : Except CandidateError Str := do
  requireSupportedVersions request.aggregationVersion request.normalizationVersion
  requireId "candidate_id" request.candidateId
  requireId "workspace_id" request.workspaceId
  normalizeIdentifier nfc casefold request.candidateKind request.normalizationVersion

/-- `build_candidate`. -/
def buildCandidate (request : Request) : Except CandidateError CandidateAggregation := do
  let kind ← checkHeader nfc casefold request
  request.evidence.entries.forM (checkEvidence request.workspaceId)
  let scan ← scanBundles request.workspaceId request.evidence request.bundles
  require (0 < scan.active.length) .noObservation
  let representative ← dedupRepresentatives nfc sha256 scan.referenced request.aggregationVersion
  let novel := isNovel request.base request.proposedOperation
  let parts ← scan.active.mapM (contribute nfc strftime sha256 request representative novel)
  assemble nfc sha256 request kind parts

end Build

end OmniviaCore.SemanticRegistry.Aggregation
