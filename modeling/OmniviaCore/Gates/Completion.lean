import OmniviaCore.Lib.Check
import OmniviaCore.Lib.SortBy
import OmniviaCore.Jobs.Vocabulary
import OmniviaCore.Gates.Objects

/-!
# The completion gate

`decide_completion` of `service/completion_gate.py`: an accepted completion and a readout are snapshotted
into exact values, and the rule is applied to the snapshots. What passes is handed to the constructor of
`CompletionDecision`, of `storage/completion_decisions.py`, which makes checks of its own and raises an
error of its own.
-/

namespace OmniviaCore.Gates.Completion

open Lib CanonicalJson Jobs

/-! ## What the gate is handed -/

/-- `SelfEvidenceException`. -/
structure SelfEvidenceException where
  criterion : Obj
  attributedTo : Obj

/-- `AcceptedCompletion`. -/
structure AcceptedCompletion where
  runId : Obj
  candidateId : Obj
  bindingId : Obj
  definitionDigest : Obj
  aggregateId : Obj
  packageId : Obj
  applicationId : Obj
  implementerId : Obj
  criteria : Typed (List Obj)
  selfEvidence : Option (Typed SelfEvidenceException)

/-- `EvidenceItem`. -/
structure EvidenceItem where
  criterion : Obj
  outcome : Obj
  evidenceId : Obj
  contentDigest : Obj
  collectedBy : Obj
  reviewedBy : Obj

/-- `EvidenceReadout`. -/
structure EvidenceReadout where
  workspaceId : Obj
  runId : Obj
  candidateId : Obj
  bindingId : Obj
  definitionDigest : Obj
  aggregateId : Obj
  packageId : Obj
  applicationId : Obj
  fencingGeneration : Obj
  complete : Obj
  items : Typed (List (Typed EvidenceItem))

/-- The settlement values of `decide_completion`. -/
structure Settlement where
  workspaceId : Obj
  jobId : Obj
  runStepId : Obj
  runtimeAttemptId : Obj
  applicationAttemptNumber : Obj
  fencingGeneration : Obj
  settledSequence : Obj

/-! ## Snapshots -/

/-- `_Accepted`. -/
structure Accepted where
  runId : String
  candidateId : String
  bindingId : String
  definitionDigest : String
  aggregateId : String
  packageId : String
  applicationId : String
  implementerId : String
  criteria : List String
  selfEvidence : Option (String × String)

/-- `_Item`. -/
structure Item where
  criterion : String
  outcome : Str
  evidenceId : Obj
  contentDigest : Obj
  collectedBy : Obj
  reviewedBy : Obj

/-- `_Observed`. -/
structure Observed where
  workspaceId : String
  runId : String
  candidateId : Option String
  bindingId : Option String
  definitionDigest : Option String
  aggregateId : Option String
  packageId : Option String
  applicationId : Option String
  fencingGeneration : ℤ
  complete : Bool
  items : List Item

/-- The settlement values as exact values. -/
structure Settled where
  workspaceId : String
  jobId : String
  runStepId : String
  runtimeAttemptId : String
  applicationAttemptNumber : ℤ
  fencingGeneration : ℤ
  settledSequence : ℤ

/-- `EvidenceReference`. -/
structure EvidenceReference where
  criterion : String
  evidenceId : String
  contentDigest : String
  collectedBy : String
  reviewedBy : String
  deriving DecidableEq

/-- `CompletionDecision`, which leaves no criterion unproven. -/
structure CompletionDecision where
  workspaceId : String
  runId : String
  jobId : String
  runStepId : String
  runtimeAttemptId : String
  applicationAttemptNumber : ℤ
  candidateId : String
  bindingId : String
  definitionDigest : String
  aggregateId : String
  packageId : String
  applicationId : String
  decidedUnderGeneration : ℤ
  settledSequence : ℤ
  provenCriteria : List String
  evidence : List EvidenceReference
  selfEvidenceAttributedTo : Option String
  deriving DecidableEq

/-- What the gate raises: `CompletionRefused`, and the `CompletionDecisionInvalid` of a decision. -/
inductive Raised where
  | refused (reason message : String)
  | invalid (message : String)
  deriving DecidableEq

def REFUSED_STALE_FENCE : String := "stale_fence"

def REFUSED_INCOMPLETE : String := "incomplete_observation"

def REFUSED_IDENTITY : String := "identity_mismatch"

def REFUSED_CRITERIA : String := "criteria_mismatch"

def REFUSED_UNPROVEN : String := "criterion_unproven"

def REFUSED_MALFORMED : String := "malformed_evidence"

def REFUSED_NON_INDEPENDENT : String := "non_independent_evidence"

def REFUSED_IMPLEMENTER_SELF : String := "implementer_self_evidence"

/-- A value outside its closed shape. -/
def malformed (message : String) : Raised := .refused REFUSED_MALFORMED message

/-- The exception a snapshot reads: its criterion, and who allowed it. -/
def snapshotSelf : Option (Typed SelfEvidenceException) → Option (Option (String × String))
  | none => some none
  | some .other => none
  | some (.exact e) => do
    let criterion ← e.criterion.text isIdentifier
    let attributedTo ← e.attributedTo.text isIdentifier
    some (some (criterion, attributedTo))

def snapshotCriteria : Typed (List Obj) → Option (List String)
  | .other => none
  | .exact criteria => criteria.mapM (Obj.text isIdentifier)

/-- The reading of `_snapshot_accepted`, which fails in one way. -/
def readAccepted : Typed AcceptedCompletion → Option Accepted
  | .other => none
  | .exact a => do
    let selfEvidence ← snapshotSelf a.selfEvidence
    let runId ← a.runId.text isIdentifier
    let candidateId ← a.candidateId.text isIdentifier
    let bindingId ← a.bindingId.text isIdentifier
    let aggregateId ← a.aggregateId.text isIdentifier
    let packageId ← a.packageId.text isIdentifier
    let applicationId ← a.applicationId.text isIdentifier
    let implementerId ← a.implementerId.text isIdentifier
    let definitionDigest ← a.definitionDigest.text isContentChecksum
    let criteria ← snapshotCriteria a.criteria
    some { runId, candidateId, bindingId, definitionDigest, aggregateId, packageId, applicationId,
           implementerId, criteria, selfEvidence }

/-- `_snapshot_accepted`. -/
def snapshotAccepted (accepted : Typed AcceptedCompletion) : Except Raised Accepted :=
  match readAccepted accepted with
  | some snapshot => pure snapshot
  | none => throw (malformed "the accepted completion is outside its closed shape")

/-- One item of a readout: its criterion is an identifier and its outcome a text. The rest is read later. -/
def readItem : Typed EvidenceItem → Option Item
  | .other => none
  | .exact raw => do
    let criterion ← raw.criterion.text isIdentifier
    match raw.outcome with
    | .str outcome =>
      some { criterion, outcome, evidenceId := raw.evidenceId, contentDigest := raw.contentDigest,
             collectedBy := raw.collectedBy, reviewedBy := raw.reviewedBy }
    | _ => none

/-- The items of a readout, all of them or none. -/
def readItems : Typed (List (Typed EvidenceItem)) → Option (List Item)
  | .other => none
  | .exact items => items.mapM readItem

/-- The reading of `_snapshot_readout`. -/
def readObserved : Typed EvidenceReadout → Option Observed
  | .other => none
  | .exact r => do
    let workspaceId ← r.workspaceId.text isIdentifier
    let runId ← r.runId.text isIdentifier
    let candidateId ← r.candidateId.stated isIdentifier
    let bindingId ← r.bindingId.stated isIdentifier
    let aggregateId ← r.aggregateId.stated isIdentifier
    let packageId ← r.packageId.stated isIdentifier
    let applicationId ← r.applicationId.stated isIdentifier
    let definitionDigest ← r.definitionDigest.stated isContentChecksum
    let fencingGeneration ← r.fencingGeneration.exactInt
    let complete ← r.complete.exactBool
    let items ← readItems r.items
    some { workspaceId, runId, candidateId, bindingId, definitionDigest, aggregateId, packageId,
           applicationId, fencingGeneration, complete, items }

/-- `_snapshot_readout`. -/
def snapshotReadout (readout : Typed EvidenceReadout) : Except Raised Observed :=
  match readObserved readout with
  | some snapshot => pure snapshot
  | none => throw (malformed "the observation is outside its closed shape")

/-- The check of the settlement values in `_decide`. -/
def readSettled (s : Settlement) : Option Settled := do
  let workspaceId ← s.workspaceId.text isIdentifier
  let jobId ← s.jobId.text isIdentifier
  let runStepId ← s.runStepId.text isIdentifier
  let runtimeAttemptId ← s.runtimeAttemptId.text isIdentifier
  let applicationAttemptNumber ← s.applicationAttemptNumber.exactInt
  let fencingGeneration ← s.fencingGeneration.exactInt
  let settledSequence ← s.settledSequence.exactInt
  some { workspaceId, jobId, runStepId, runtimeAttemptId, applicationAttemptNumber, fencingGeneration,
         settledSequence }

def requireSettled (s : Settlement) : Except Raised Settled :=
  match readSettled s with
  | some settled => pure settled
  | none => throw (malformed "the settlement is outside its closed shape")

/-! ## The constructor of a decision -/

/-- `_INT64_MAX`. -/
def INT64_MAX : ℤ := 2 ^ 63 - 1

/-- `_MAX_SEQUENCE`. -/
def MAX_SEQUENCE : ℤ := 999

/-- `_MAX_APPLICATION_ATTEMPT`. -/
def MAX_APPLICATION_ATTEMPT : ℤ := 256

/-- `_bounded`. -/
def Bounded (value least : ℤ) : Prop := least ≤ value ∧ value ≤ INT64_MAX

instance (value least : ℤ) : Decidable (Bounded value least) := by
  unfold Bounded
  infer_instance

/-- The shape of one reference. -/
def EvidenceReference.isWellFormed (reference : EvidenceReference) : Bool :=
  isIdentifier reference.criterion && isIdentifier reference.evidenceId &&
    isIdentifier reference.collectedBy && isIdentifier reference.reviewedBy &&
    isContentChecksum reference.contentDigest

/-- `CompletionDecision.__post_init__`. -/
def CompletionDecision.postInit (d : CompletionDecision) : Except Raised Unit := do
  require (∀ value ∈ [d.workspaceId, d.runId, d.jobId, d.runStepId, d.runtimeAttemptId, d.candidateId,
      d.bindingId, d.aggregateId, d.packageId, d.applicationId], isIdentifier value = true)
    (.invalid "a decision identity is outside its closed shape")
  require (isContentChecksum d.definitionDigest = true)
    (.invalid "definition_digest is outside its closed shape")
  require (Bounded d.decidedUnderGeneration 1)
    (.invalid "decided_under_generation is outside its closed shape")
  require (Bounded d.applicationAttemptNumber 1 ∧ d.applicationAttemptNumber ≤ MAX_APPLICATION_ATTEMPT)
    (.invalid "application_attempt_number is outside its closed shape")
  require (Bounded d.settledSequence 1 ∧ d.settledSequence ≤ MAX_SEQUENCE)
    (.invalid "settled_sequence is outside its closed shape")
  require (d.provenCriteria ≠ [] ∧ d.provenCriteria = sortBy id d.provenCriteria.dedup)
    (.invalid "proven_criteria must be non-empty, sorted and unique")
  require (d.evidence.map (·.criterion) = d.provenCriteria)
    (.invalid "each proven criterion names exactly one evidence")
  require (∀ reference ∈ d.evidence, reference.isWellFormed = true)
    (.invalid "an evidence reference is outside its closed shape")
  require (∀ actor ∈ d.selfEvidenceAttributedTo, isIdentifier actor = true)
    (.invalid "self_evidence_attributed_to is outside its shape")

/-! ## The rule -/

/-- `OUTCOMES`. -/
def OUTCOMES : List String := ["proven", "failed", "absent"]

def OUTCOME_PROVEN : String := "proven"

/-- What the loop of `_decide` has gathered. -/
structure Gathered where
  attributed : Option String
  references : List EvidenceReference

/-- The reading of the evidence of one item. -/
def readReference (item : Item) : Option EvidenceReference := do
  let evidenceId ← item.evidenceId.text isIdentifier
  let contentDigest ← item.contentDigest.text isContentChecksum
  let collectedBy ← item.collectedBy.text isIdentifier
  let reviewedBy ← item.reviewedBy.text isIdentifier
  some { criterion := item.criterion, evidenceId, contentDigest, collectedBy, reviewedBy }

/-- Whom the evidence of an item is attributed to, when the implementer collected it. -/
def attribution (accepted : Accepted) (reference : EvidenceReference) (attributed : Option String) :
    Except Raised (Option String) :=
  if reference.collectedBy = accepted.implementerId then
    match accepted.selfEvidence with
    | some (criterion, attributedTo) =>
      if criterion = reference.criterion then pure (some attributedTo)
      else throw (.refused REFUSED_IMPLEMENTER_SELF "the implementer may not collect this evidence")
    | none => throw (.refused REFUSED_IMPLEMENTER_SELF "the implementer may not collect this evidence")
  else pure attributed

/-- One item of the loop of `_decide`. -/
def weigh (accepted : Accepted) (gathered : Gathered) (item : Item) : Except Raised Gathered := do
  require (item.outcome ∈ OUTCOMES.map fun name => ofChars name.toList)
    (malformed "an evidence outcome is outside its shape")
  require (item.outcome = ofChars OUTCOME_PROVEN.toList)
    (.refused REFUSED_UNPROVEN "an accepted criterion is not proven")
  match readReference item with
  | none => throw (malformed "an evidence identity is outside its shape")
  | some reference => do
    require (reference.collectedBy ≠ reference.reviewedBy ∧
        reference.reviewedBy ≠ accepted.implementerId)
      (.refused REFUSED_NON_INDEPENDENT "evidence was not reviewed independently of its collector")
    let attributed ← attribution accepted reference gathered.attributed
    pure { attributed, references := gathered.references ++ [reference] }

/-- The identities an observation must name. -/
def NamesIdentities (accepted : Accepted) (observed : Observed) (workspaceId : String) : Prop :=
  observed.workspaceId = workspaceId ∧ observed.runId = accepted.runId ∧
    (observed.candidateId, observed.bindingId, observed.definitionDigest, observed.aggregateId,
        observed.packageId, observed.applicationId) =
      (some accepted.candidateId, some accepted.bindingId, some accepted.definitionDigest,
        some accepted.aggregateId, some accepted.packageId, some accepted.applicationId)

instance (accepted : Accepted) (observed : Observed) (workspaceId : String) :
    Decidable (NamesIdentities accepted observed workspaceId) := by
  unfold NamesIdentities
  infer_instance

/-- One item for each accepted criterion, and no other. -/
def CoversCriteria (accepted : Accepted) (observed : Observed) : Prop :=
  (observed.items.map (·.criterion)).Nodup ∧
    (observed.items.map (·.criterion)).toFinset = accepted.criteria.toFinset

instance (accepted : Accepted) (observed : Observed) : Decidable (CoversCriteria accepted observed) := by
  unfold CoversCriteria
  infer_instance

/-- The decision `_decide` constructs. -/
def decisionOf (accepted : Accepted) (settled : Settled) (gathered : Gathered) : CompletionDecision where
  workspaceId := settled.workspaceId
  runId := accepted.runId
  jobId := settled.jobId
  runStepId := settled.runStepId
  runtimeAttemptId := settled.runtimeAttemptId
  applicationAttemptNumber := settled.applicationAttemptNumber
  candidateId := accepted.candidateId
  bindingId := accepted.bindingId
  definitionDigest := accepted.definitionDigest
  aggregateId := accepted.aggregateId
  packageId := accepted.packageId
  applicationId := accepted.applicationId
  decidedUnderGeneration := settled.fencingGeneration
  settledSequence := settled.settledSequence
  provenCriteria := accepted.criteria
  evidence := gathered.references
  selfEvidenceAttributedTo := gathered.attributed

/-- The checks of `_decide`, and its loop. -/
def applyRule (accepted : Accepted) (observed : Observed) (settlement : Settlement) :
    Except Raised (Settled × Gathered) := do
  let settled ← requireSettled settlement
  require (observed.fencingGeneration = settled.fencingGeneration)
    (.refused REFUSED_STALE_FENCE "the observation is not under the current fence")
  require (observed.complete = true) (.refused REFUSED_INCOMPLETE "the observation is partial")
  require (NamesIdentities accepted observed settled.workspaceId)
    (.refused REFUSED_IDENTITY "the observation does not name the accepted identities")
  require (CoversCriteria accepted observed)
    (.refused REFUSED_CRITERIA "the observation does not cover exactly the accepted criteria")
  let gathered ← (sortBy (·.criterion) observed.items).foldlM (weigh accepted) ⟨none, []⟩
  -- The exception covers one criterion, never the whole proof.
  require (¬∀ item ∈ observed.items, item.collectedBy = .ofString accepted.implementerId)
    (.refused REFUSED_IMPLEMENTER_SELF
      "no evidence was collected independently of the implementer")
  pure (settled, gathered)

/-- `_decide`. -/
def decideSnapshots (accepted : Accepted) (observed : Observed) (settlement : Settlement) :
    Except Raised CompletionDecision := do
  let (settled, gathered) ← applyRule accepted observed settlement
  let decision := decisionOf accepted settled gathered
  decision.postInit
  pure decision

/-- `decide_completion`. -/
def decideCompletion (accepted : Typed AcceptedCompletion) (readout : Typed EvidenceReadout)
    (settlement : Settlement) : Except Raised CompletionDecision := do
  let accepted ← snapshotAccepted accepted
  let observed ← snapshotReadout readout
  decideSnapshots accepted observed settlement

end OmniviaCore.Gates.Completion
