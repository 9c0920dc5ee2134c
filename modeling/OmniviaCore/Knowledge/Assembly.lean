import OmniviaCore.Lib.SortBy
import OmniviaCore.Knowledge.Context

/-!
# Stage 1 assembly

`assemble_stage1_context` of `governed_knowledge/assembly.py`. One pass over the positions, in the order
of their versions, puts each into the selection or among the omissions; a second pass takes the selected
positions that contradict each other out again; then the manifest is built and digested.
-/

namespace OmniviaCore.Knowledge

open Lib CanonicalJson

def SELECTION_POLICY_VERSION : String := "governed-knowledge-stage1-selection-v1"

def RETRIEVAL_MECHANISM : String := "context_pack.build/deterministic_view"

/-- The arguments of `assemble_stage1_context`. -/
structure Stage1Call where
  profile : TaskContextProfile
  dependency : KnowledgeConsumerDependency
  contextPack : ContextPackBuildResult
  positions : List OrganisationalPosition
  facts : FactSnapshot
  requestRef : String
  semanticModelVersionRef : String
  validAt : TemporalInstant
  recordedAsOf : TemporalInstant
  queryTime : TemporalInstant

/-- `Stage1ContextBundle`. -/
structure Stage1ContextBundle where
  contextPack : ContextPackBuildResult
  applicablePositions : List OrganisationalPosition
  manifest : ContextSelectionManifest

/-! ## Checks of a call -/

/-- `_check_binding`. -/
def checkBinding (profile : TaskContextProfile) (dependency : KnowledgeConsumerDependency)
    (pack : ContextPackBuildResult) (purpose : String) : Except Raised Unit := do
  let authorization := pack.reproducibility.authorizationContext
  require (authorization.workspaceId = profile.workspaceId)
    (.validation .invalidField "the task profile and Context Pack must name the same workspace")
  require (authorization.purpose = purpose ∧ purpose = profile.purpose)
    (.validation .invalidField
      "the task profile, request, and Context Pack purposes must match")
  require (profile.allowedConsumerKinds = [] ∨
      dependency.consumer.kind ∈ profile.allowedConsumerKinds)
    (.validation .invalidField
      "the registered consumer kind is not allowed by the task profile")
  require (∀ scope ∈ profile.requiredScopeRefs, scope ∈ authorization.scopes)
    (.validation .invalidField
      "the Context Pack authority does not satisfy the task profile scopes")
  require (dependency.consumer.lifecycleState = "active")
    (.validation .invalidField "the registered consumer must be active")
  require (pack.freshAuthorizationRequired = true)
    (.validation .invalidField
      "the Context Pack must retain its fresh-authorisation requirement")

/-- `_pack_bytes`. -/
def packBytes (pack : ContextPackBuildResult) : Except CanonicalJson.Raised ℕ := do
  let payload ← canonicalBytes pack.wire []
  pure payload.length

/-! ## One position -/

/-- `_position_is_current_at`. -/
def positionIsCurrentAt (position : OrganisationalPosition) (validAt : TemporalInstant) : Bool :=
  match position.validInterval with
  | none => true
  | some interval =>
    if validAt.value.rank < interval.effectiveFrom.value.rank then false
    else interval.effectiveTo.all fun finish => validAt.value.rank < finish.value.rank

/-- The reason code and the safe reason of the first filter that excludes a position. -/
def exclusion (call : Stage1Call) (position : OrganisationalPosition) : Option (String × String) :=
  if position.lifecycleState ≠ .admitted then
    some ("pending_or_noncurrent", "Non-admitted knowledge was excluded.")
  else if position.semanticModelVersionRef ≠ call.semanticModelVersionRef then
    some ("semantic_binding_mismatch",
      "Knowledge bound to another semantic version was excluded.")
  else if call.profile.knowledgeDomainRefs ≠ [] ∧
      ¬∃ ref ∈ position.domainRefs, ref ∈ call.profile.knowledgeDomainRefs then
    some ("outside_profile_domain", "Knowledge outside the task profile domain was excluded.")
  else if position.recordedAt.any fun at' => call.recordedAsOf.value.rank < at'.value.rank then
    some ("recorded_after_query_axis",
      "Knowledge recorded after the requested axis was excluded.")
  else if positionIsCurrentAt position call.validAt = false then
    some ("outside_valid_interval", "Knowledge outside the requested valid time was excluded.")
  else none

def reviewOverdue (call : Stage1Call) (position : OrganisationalPosition) : Bool :=
  position.reviewDueAt.any fun due => due.value.rank ≤ call.queryTime.value.rank

/-- The lists a pass fills. -/
structure Selection where
  selectedPositions : List OrganisationalPosition
  selectedItems : List SelectedContextItem
  applicabilityResults : List ApplicabilityResult
  omissions : List ManifestOmission
  overdue : List String

def Selection.empty : Selection := ⟨[], [], [], [], []⟩

def Selection.leaveOut (selection : Selection) (versionRef reasonCode safeReason : String) :
    Except Raised Selection := do
  let omission ← ManifestOmission.build ⟨reasonCode, safeReason, some versionRef⟩
  pure { selection with omissions := selection.omissions ++ [omission] }

def Selection.select (selection : Selection) (facts : FactSnapshot)
    (position : OrganisationalPosition) : Except Raised Selection := do
  let item ← SelectedContextItem.build
    { itemVersionRef := position.versionRef
      authorityClass := .admittedKnowledge
      selectionReason := "Applicable admitted organisational position."
      sourceSpanRefs := position.supportingEvidenceRefs
      applicabilityResultRef := some s!"{facts.factSnapshotRef}:{position.versionRef}" }
  pure { selection with
    selectedPositions := selection.selectedPositions ++ [position]
    selectedItems := selection.selectedItems ++ [item] }

section

-- `!r` of a text.
variable (reprOf : String → String)

/-- The body of the loop over the positions. -/
def considerPosition (call : Stage1Call) (selection : Selection)
    (position : OrganisationalPosition) : Except Raised Selection := do
  require (position.workspaceId = call.profile.workspaceId)
    (.validation .invalidField "a candidate position belongs to another workspace")
  match exclusion call position with
  | some (reasonCode, safeReason) => selection.leaveOut position.versionRef reasonCode safeReason
  | none =>
    let overdue := reviewOverdue call position
    let selection := if overdue then
      { selection with overdue := selection.overdue ++ [position.versionRef] } else selection
    if overdue ∧ call.profile.freshnessPolicy = .strict then
      selection.leaveOut position.versionRef "review_overdue"
        "Review-overdue knowledge was excluded by profile policy."
    else
      match position.requiredConditions with
      | none =>
        throw (.validation .missingField
          "Stage 1 positions require an explicit applicability expression")
      | some required => do
        let result ← evaluateApplicability reprOf required (position.exceptions.map (·.condition))
          call.facts position.versionRef
        let selection := { selection with
          applicabilityResults := selection.applicabilityResults ++ [result] }
        if result.outcome = .applicable then
          selection.select call.facts position
        else
          let safeReason := " ".intercalate result.reasons
          selection.leaveOut position.versionRef result.outcome.value safeReason

/-! ## Contested positions -/

/-- The result of a position that turned out to be contested. -/
def ApplicabilityResult.contest (result : ApplicabilityResult) : ApplicabilityResult :=
  { result with
    outcome := .contested
    reasons := ["Applicable positions conflict without approved precedence."] }

/-- The versions of the selected positions that contradict each other. -/
def Selection.contested (selection : Selection) : Finset String :=
  contestedPositions (selection.selectedPositions.map (·.versionRef))
    (selection.selectedPositions.flatMap fun position =>
      position.contradictsPositionRefs.map fun contradicted => (position.versionRef, contradicted))

def Selection.removeContested (selection : Selection) : Except Raised Selection := do
  let contested := selection.contested
  let omissions ← (contested.sort (· ≤ ·)).mapM fun versionRef =>
    ManifestOmission.build
      ⟨"contested", "Conflicting applicable knowledge requires authorised review.", some versionRef⟩
  pure { selection with
    selectedPositions := selection.selectedPositions.filter fun position =>
      position.versionRef ∉ contested
    selectedItems := selection.selectedItems.filter fun item => item.itemVersionRef ∉ contested
    applicabilityResults := selection.applicabilityResults.map fun result =>
      if result.positionVersionRef ∈ contested then result.contest else result
    omissions := selection.omissions ++ omissions }

/-! ## The bundle -/

/-- `digest.removeprefix('sha256:')`. -/
def digestHex (digest : String) : String :=
  if "sha256:".toList.isPrefixOf digest.toList then String.ofList (digest.toList.drop 7) else digest

def packRefs (pack : ContextPackBuildResult) : List String :=
  pack.reproducibility.recordVersions.map fun item => s!"{item.recordId}@{item.version}"

def checkpointRefs (pack : ContextPackBuildResult) : List String :=
  (sortBy Prod.fst pack.reproducibility.projectionWatermarks.entries).map fun entry =>
    s!"{entry.1}:{entry.2}"

/-- The arguments of the manifest before it is digested. -/
def provisionalManifest (call : Stage1Call) (measuredBytes : ℕ) (selection : Selection) :
    ContextSelectionManifest where
  manifestId := "pending-digest"
  profileVersionRef := call.profile.versionRef
  workspaceId := call.profile.workspaceId
  purpose := call.profile.purpose
  consumerRef := call.dependency.consumer.consumerId
  consumerDeploymentRef := call.dependency.consumer.deploymentIdentity
  requestRef := call.requestRef
  semanticModelVersionRef := call.semanticModelVersionRef
  validAt := call.validAt
  recordedAsOf := call.recordedAsOf
  queryTime := call.queryTime
  checkpointRefs := checkpointRefs call.contextPack
  selectedItemRefs := packRefs call.contextPack ++
    selection.selectedPositions.map (·.versionRef)
  selectedItems := selection.selectedItems
  applicabilityResults := selection.applicabilityResults
  selectionReasons := ["Deterministic Context Pack plus applicable admitted positions."]
  transformationNotes := []
  coverageNote := "Authorised Context Pack frontier and supplied exact position views."
  partialCoverage := !call.contextPack.omissions.isEmpty || !selection.omissions.isEmpty
  retrievalMechanisms := [RETRIEVAL_MECHANISM]
  omissions := selection.omissions
  effectiveByteBound := call.profile.maxBytes
  measuredBytes := some measuredBytes
  byteCountIsEstimated := false
  tokenizerVersion := some call.contextPack.reproducibility.tokenizerVersion
  policyVersion := SELECTION_POLICY_VERSION
  freshnessPolicy := call.profile.freshnessPolicy
  reviewOverdueItemRefs := selection.overdue
  recheckConditions := ["Reauthorise every cited item before dereference."]
  issuerClass := "core_issued"
  integrityAlgorithm := "sha-256/ov-cj-1"
  packIdentity := some call.contextPack.packId
  packDigest := some call.contextPack.reproducibility.artifactChecksum
  integrityDigest := none

/-- `total_items`. -/
def totalItems (pack : ContextPackBuildResult) (selection : Selection) : ℕ :=
  pack.reproducibility.evidenceVersions.length + (packRefs pack).length +
    selection.selectedPositions.length

-- How an instant is spelled, and the hexadecimal digest of some bytes.
variable (strftime : Instant → String) (sha256 : List UInt8 → String)

def sealManifest (provisional : ContextSelectionManifest) :
    Except AssemblyRaised ContextSelectionManifest := do
  let provisional ← provisional.build.mapError .knowledge
  let digest ← (computeSelectionManifestDigest strftime sha256 provisional).mapError .canonical
  ({ provisional with
    manifestId := s!"manifest-{digestHex digest}"
    integrityDigest := some digest } : ContextSelectionManifest).build.mapError .knowledge

/-- `assemble_stage1_context`. -/
def assembleStage1Context (call : Stage1Call) : Except AssemblyRaised Stage1ContextBundle := do
  (checkBinding call.profile call.dependency call.contextPack call.profile.purpose).mapError
    .knowledge
  require (∀ ref ∈ call.profile.requiredFactRefs, (call.facts.facts.get ref).isSome)
    (.knowledge (.validation .missingField
      "the task fact snapshot omits a fact required by the task profile"))
  let measuredBytes ← (packBytes call.contextPack).mapError .canonical
  require (measuredBytes ≤ call.profile.maxBytes)
    (.knowledge (.validation .payloadTooLarge
      "the authorised Context Pack exceeds the task profile byte bound"))
  let selection ← ((sortBy (·.versionRef) call.positions).foldlM (considerPosition reprOf call)
    Selection.empty).mapError .knowledge
  let selection ← selection.removeContested.mapError .knowledge
  require (∀ bound ∈ call.profile.maxItems, totalItems call.contextPack selection ≤ bound)
    (.knowledge (.validation .payloadTooLarge
      "the selected context exceeds the task profile item bound"))
  let manifest ← sealManifest strftime sha256
    (provisionalManifest call measuredBytes selection)
  pure ⟨call.contextPack, selection.selectedPositions, manifest⟩

end

end OmniviaCore.Knowledge
