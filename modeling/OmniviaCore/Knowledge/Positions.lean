import OmniviaCore.Knowledge.Applicability

/-!
# Organisational positions

`OrganisationalPosition` of `governed_knowledge/position.py` with the interval of
`semantic_registry/temporal.py` it is valid in. Values carry the checks of their `__post_init__`; what
those leave open stays open: a reference to evidence or to a contradicted position may be any text.
-/

namespace OmniviaCore.Knowledge

/-! ## Intervals -/

/-- `EndBoundaryState`. -/
inductive EndBoundaryState where
  | stated
  | unknown
  | «open»
  deriving DecidableEq

/-- What `EffectiveValidInterval.__post_init__` asks for. -/
def EndBoundaryState.check (effectiveFrom : TemporalInstant) (effectiveTo : Option TemporalInstant) :
    EndBoundaryState → Bool
  | .open => effectiveTo.isNone
  | _ => effectiveTo.any fun finish => effectiveFrom.value.rank < finish.value.rank

/-- `EffectiveValidInterval`. -/
structure EffectiveValidInterval where
  effectiveFrom : TemporalInstant
  effectiveTo : Option TemporalInstant
  endState : EndBoundaryState
  valid : endState.check effectiveFrom effectiveTo = true

/-! ## Positions -/

/-- `Classification`. -/
inductive Classification where
  | «public»
  | internal
  | confidential
  | restricted
  deriving DecidableEq

/-- `PositionLifecycleState`. -/
inductive PositionLifecycleState where
  | proposed
  | review
  | admitted
  | superseded
  | retracted
  deriving DecidableEq

/-- `PositionException`. -/
structure PositionException where
  exceptionId : String
  condition : ApplicabilityExpression
  rationale : String
  evidenceRefs : List String
  valid : ∀ text ∈ exceptionId :: rationale :: evidenceRefs, isBlank text = false

/-- `OrganisationalPosition`, whose profile version is the one the contract has. -/
structure OrganisationalPosition where
  positionId : String
  versionRef : String
  title : String
  statement : String
  domainRefs : List String
  positionKind : String
  semanticModelVersionRef : String
  referencedElementIds : List String
  workspaceId : String
  scopeEntityRefs : List String
  requiredConditions : Option ApplicabilityExpression
  declaredRequiredFacts : List String
  exceptions : List PositionException
  evaluatorVersion : String
  owningDomain : String
  approvedByReference : Option String
  supportingEvidenceRefs : List String
  contradictingEvidenceRefs : List String
  validInterval : Option EffectiveValidInterval
  recordedAt : Option TemporalInstant
  reviewDueAt : Option TemporalInstant
  replacesPositionRef : Option String
  supersededByRef : Option String
  dependsOnPositionRefs : List String
  contradictsPositionRefs : List String
  lastSubstantiveReviewAt : Option TemporalInstant
  reviewPolicy : Option String
  classification : Classification
  retentionClass : String
  lifecycleState : PositionLifecycleState
  valid : ∀ text ∈ [positionId, versionRef, title, statement, workspaceId, owningDomain, retentionClass] ++
    replacesPositionRef.toList ++ supersededByRef.toList, isBlank text = false
  evaluatorVersion_valid : requiredConditions.isSome = true → isBlank evaluatorVersion = false

theorem OrganisationalPosition.versionRef_valid (position : OrganisationalPosition) :
    isBlank position.versionRef = false :=
  position.valid _ (by simp)

end OmniviaCore.Knowledge
