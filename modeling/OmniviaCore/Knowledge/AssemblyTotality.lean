import OmniviaCore.Knowledge.Manifests

/-!
# When an assembly returns

An assembly of admitted arguments stops at a position it cannot write down. Undecided positions have their
reasons from the facts that gave no value, so a comparison that is open over given facts leaves no reason
to state, and its omission is refused (`undecided_reasons`). The other ways are dates without an end, a
blank reference to evidence, and numbers the canonicalizer has no text for (`assembly_totality`).
-/

namespace OmniviaCore.Knowledge

open Lib CanonicalJson

/-! ## Reasons -/

variable {facts : FactSnapshot} {ledger : Ledger}

/-- A fact without a value has been looked up. -/
def Ledger.Unresolved (ledger : Ledger) : Prop :=
  ledger.unresolvedVisible.Nonempty ∨ ledger.hiddenUnresolved = true

theorem unresolved_consulted (name : String) :
    (ledger.consulted facts name).Unresolved ↔
      ledger.Unresolved ∨ facts.resolve name = none := by
  unfold Ledger.consulted FactSnapshot.resolve
  cases facts.facts.get name with
  | none => simp [Ledger.Unresolved]
  | some entry =>
    cases hsingle : entry.single with
    | some value =>
      have hsame : (ledger.resolved name entry).Unresolved ↔ ledger.Unresolved := by
        unfold Ledger.resolved Ledger.Unresolved
        split <;> rfl
      simpa [hsingle] using hsame
    | none =>
      have hmarked : (ledger.unresolved name entry).Unresolved := by
        unfold Ledger.unresolved Ledger.Unresolved
        split
        · exact .inl (Finset.insert_nonempty _ _)
        · exact .inr rfl
      simpa [hsingle] using hmarked

theorem unresolved_foldl (names : List String) :
    (names.foldl (Ledger.consulted facts) ledger).Unresolved ↔
      ledger.Unresolved ∨ ∃ name ∈ names, facts.resolve name = none := by
  induction names generalizing ledger with
  | nil => simp
  | cons name names ih =>
    rw [List.foldl_cons, ih, unresolved_consulted, List.exists_mem_cons_iff, or_assoc]

theorem unresolved_consultAll (names : List String) :
    (consultAll facts names).Unresolved ↔ ∃ name ∈ names, facts.resolve name = none := by
  rw [consultAll, unresolved_foldl]
  simp [Ledger.Unresolved, Ledger.empty]

variable {reprOf : String → String}

theorem isBlank_reasons {outcome : ApplicabilityOutcome} {snapshotRef positionRef : String}
    {baseReason : Option String} (hbase : ∀ text ∈ baseReason, isBlank text = false) :
    isBlank (" ".intercalate (buildResult reprOf outcome snapshotRef positionRef ledger
        baseReason).reasons) = false ↔ baseReason.isSome = true ∨ ledger.Unresolved := by
  have hreason : ∀ ref, isBlank (unresolvedReason reprOf ref) = false := by
    intro ref
    have hhead : isBlank "Required fact " = false := by decide
    rw [unresolvedReason, isBlank_append, isBlank_append, hhead]
    rfl
  have hhidden : isBlank HIDDEN_CONTEXT_REASON = false := by decide
  rw [isBlank_intercalate, ← Bool.not_eq_true, List.all_eq_true, buildResult]
  simp only [List.mem_append, List.mem_map, Option.mem_toList, Finset.mem_sort]
  constructor
  · intro h
    by_contra hnone
    rw [not_or, Ledger.Unresolved, not_or, Finset.not_nonempty_iff_eq_empty] at hnone
    refine h fun text htext => ?_
    simp_all
  · rintro (hsome | ⟨ref, href⟩ | hflag) hall
    · obtain ⟨text, rfl⟩ := Option.isSome_iff_exists.1 hsome
      have hblank := hall text (.inl (.inl rfl))
      rw [hbase text rfl] at hblank
      cases hblank
    · have hblank := hall _ (.inl (.inr ⟨ref, href, rfl⟩))
      rw [hreason] at hblank
      cases hblank
    · have hblank := hall HIDDEN_CONTEXT_REASON (.inr (by simp [hflag]))
      rw [hhidden] at hblank
      cases hblank

variable {required : ApplicabilityExpression} {exceptions : List ApplicabilityExpression}
  {positionVersionRef : String} {result : ApplicabilityResult}

theorem decideOutcome_reason (truth : TruthValue) (truths : List TruthValue) :
    ((decideOutcome truth truths).2.isSome = true ↔
      (decideOutcome truth truths).1 ≠ .needsInformation) ∧
    ∀ text ∈ (decideOutcome truth truths).2, isBlank text = false := by
  unfold decideOutcome
  split
  · decide
  · split <;> decide

def consultedNames (required : ApplicabilityExpression) (exceptions : List ApplicabilityExpression) :
    List String :=
  factRefs required.root ++ factRefsOf (exceptions.map (·.root))

/-- A result has a reason to state, unless it is undecided over facts that all have a value. -/
theorem undecided_reasons
    (h : evaluateApplicability reprOf required exceptions facts positionVersionRef = .ok result) :
    isBlank (" ".intercalate result.reasons) = false ↔
      (result.outcome = .needsInformation →
        ∃ name ∈ consultedNames required exceptions, facts.resolve name = none) := by
  obtain ⟨-, ⟨-, rfl⟩ | ⟨truth, truths, -, -, -, rfl⟩⟩ := evaluateApplicability_eq_ok.1 h
  · rw [isBlank_reasons (by decide)]
    exact iff_of_true (.inl rfl) fun h => by cases h
  · obtain ⟨hsome, hbase⟩ := decideOutcome_reason truth truths
    rw [isBlank_reasons hbase, hsome, unresolved_consultAll]
    exact imp_iff_not_or.symm

theorem outcome_of_reachedInRange (hposition : isBlank positionVersionRef = false)
    (h : ReachedInRange facts required exceptions) :
    ∃ outcome, outcomeOf reprOf required exceptions facts positionVersionRef = some outcome := by
  obtain ⟨truth, htruth⟩ := (truthOf_isOk required.wellFormed).2 h.1
  by_cases hfalse : truth = .false
  · subst hfalse
    exact ⟨_, outcomeOf_eq_some.2 ⟨hposition, .inl ⟨htruth, rfl⟩⟩⟩
  · have hexceptions := h.2.resolve_left fun h => hfalse (Except.ok.inj (htruth.symm.trans h))
    obtain ⟨truths, htruths⟩ := truths_of_inRange hexceptions
    exact ⟨_, outcomeOf_eq_some.2 ⟨hposition, .inr ⟨truth, truths, htruth, hfalse, htruths, rfl⟩⟩⟩

/-! ## Positions -/

variable {strftime : Instant → String} {sha256 : List UInt8 → String} {call : Stage1Call}
  {position : OrganisationalPosition} {measuredBytes : ℕ}

/-- What an evaluation of a position finds can be written down. -/
structure Statable (reprOf : String → String) (call : Stage1Call) (position : OrganisationalPosition)
    (required : ApplicabilityExpression) : Prop where
  /-- The dates that are compared have an end. -/
  inRange : ReachedInRange call.facts required (position.exceptions.map (·.condition))
  /-- Where the facts leave it open, one of them has no value. -/
  undecided : outcomeOf reprOf required (position.exceptions.map (·.condition)) call.facts
      position.versionRef = some .needsInformation →
    ∃ name ∈ consultedNames required (position.exceptions.map (·.condition)),
      call.facts.resolve name = none
  /-- Where it is selected, no reference to evidence is blank. -/
  evidence : outcomeOf reprOf required (position.exceptions.map (·.condition)) call.facts
      position.versionRef = some .applicable →
    ∀ ref ∈ position.supportingEvidenceRefs, isBlank ref = false

theorem recordable_iff (hworkspace : position.workspaceId = call.profile.workspaceId)
    (hrequired : position.requiredConditions = some required) :
    Recordable reprOf call position ↔
      (Reaches call position → Statable reprOf call position required) := by
  unfold Recordable
  rw [and_iff_right hworkspace]
  refine imp_congr_right fun hreaches => ?_
  rw [evaluated, if_pos hreaches, hrequired, Option.bind_some]
  cases hevaluate : evaluateApplicability reprOf required (position.exceptions.map (·.condition))
      call.facts position.versionRef with
  | error e =>
    refine iff_of_false ?_ fun h => ?_
    · rintro ⟨_, h, -⟩
      cases h
    have hanswers : ∃ outcome, outcomeOf reprOf required (position.exceptions.map (·.condition))
        call.facts position.versionRef = some outcome :=
      outcome_of_reachedInRange position.versionRef_valid h.inRange
    obtain ⟨outcome, houtcome⟩ := hanswers
    rw [outcomeOf, hevaluate] at houtcome
    cases houtcome
  | ok result =>
    have houtcome : outcomeOf reprOf required (position.exceptions.map (·.condition)) call.facts
        position.versionRef = some result.outcome := by
      rw [outcomeOf, hevaluate]
      rfl
    have hreasons := undecided_reasons hevaluate
    constructor
    · rintro ⟨_, hresult, h⟩
      obtain rfl := Option.some.inj hresult
      refine ⟨reachedInRange_of_outcome houtcome, fun hopen => ?_, fun happlicable => ?_⟩
      · rw [houtcome, Option.some.injEq] at hopen
        rw [if_neg (by rw [hopen]; decide)] at h
        exact hreasons.1 h hopen
      · rw [houtcome, Option.some.injEq] at happlicable
        rwa [if_pos happlicable] at h
    · intro h
      refine ⟨result, rfl, ?_⟩
      split
      · next happlicable => exact h.evidence (houtcome.trans (congrArg some happlicable))
      · exact hreasons.2 fun hopen => h.undecided (houtcome.trans (congrArg some hopen))

/-- An assembly of admitted arguments returns exactly when the references of the request are not blank, the
two numbers of the manifest can be written down, and so can what is found of each position the filters let
through. -/
theorem assembly_totality (reprOf : String → String) (strftime : Instant → String)
    (sha256 : List UInt8 → String) (call : Stage1Call) (measuredBytes : ℕ)
    (hadmits : call.Admits measuredBytes)
    (hworkspace : ∀ p ∈ call.positions, p.workspaceId = call.profile.workspaceId)
    (hexpression : ∀ p ∈ call.positions, p.requiredConditions.isSome)
    (hitems : ItemBound reprOf call) :
    (∃ bundle, assembleStage1Context reprOf strftime sha256 call = .ok bundle) ↔
      (isBlank call.requestRef = false ∧ isBlank call.semanticModelVersionRef = false) ∧
      (IsExactNumber call.profile.maxBytes ∧ IsExactNumber measuredBytes) ∧
      ∀ p ∈ call.positions, Reaches call p → ∀ required ∈ p.requiredConditions,
        Statable reprOf call p required := by
  have hrecordable : (∀ p ∈ call.positions, Recordable reprOf call p) ↔
      ∀ p ∈ call.positions, Reaches call p → ∀ required ∈ p.requiredConditions,
        Statable reprOf call p required := by
    refine forall₂_congr fun p hp => ?_
    obtain ⟨required, hrequired⟩ := Option.isSome_iff_exists.1 (hexpression p hp)
    rw [recordable_iff (hworkspace p hp) hrequired, hrequired]
    simp
  have hdigest : (∃ digest, computeSelectionManifestDigest strftime sha256
      (provisionalManifest call measuredBytes (finalSelection reprOf call)) = .ok digest) ↔
        IsExactNumber call.profile.maxBytes ∧ IsExactNumber measuredBytes := by
    rw [computeSelectionManifestDigest_isOk]
    simp [provisionalManifest]
  rw [← hrecordable, ← hdigest]
  simp only [assembleStage1Context_eq_ok]
  constructor
  · rintro ⟨_, measured, hmeasured, hpositions, -, hrefs, digest, hfound, -⟩
    obtain rfl : measured = measuredBytes :=
      Except.ok.inj (hmeasured.packBytes.symm.trans hadmits.packBytes)
    exact ⟨hrefs, ⟨digest, hfound⟩, hpositions⟩
  · rintro ⟨hrefs, ⟨digest, hfound⟩, hpositions⟩
    exact ⟨_, measuredBytes, hadmits, hpositions, hitems, hrefs, digest, hfound, rfl⟩

/-! ## An amount in another currency -/

def renewalProfile : TaskContextProfile where
  profileId := "profile-1"
  versionRef := "profile-1@1"
  purpose := "renewal"
  workspaceId := "workspace-1"
  allowedConsumerKinds := []
  requiredScopeRefs := []
  requiredFactRefs := ["amount"]
  knowledgeDomainRefs := []
  selectionStageRefs := []
  freshnessPolicy := .strict
  maxBytes := 4096
  maxItems := none
  inclusionPriorityRefs := []
  responseShape := "bundle"
  valid := by decide
  maxBytes_pos := by decide
  maxItems_pos := by decide

def renewalConsumer : Consumer where
  consumerId := "consumer-1"
  kind := .app
  owner := "owner-1"
  deploymentIdentity := "deployment-1"
  criticality := "standard"
  lifecycleState := "active"
  valid := by decide

def renewalPack : ContextPackBuildResult where
  packId := "pack-1"
  omissions := []
  reproducibility :=
    { authorizationContext := ⟨"workspace-1", [], "renewal"⟩
      evidenceVersions := []
      recordVersions := []
      projectionWatermarks := ⟨[("records", "7")], by decide⟩
      tokenizerVersion := "tokenizer-1"
      artifactChecksum := "sha256:pack" }
  freshAuthorizationRequired := true
  wire := mappingOf [("pack_id", textValue "pack-1")]

/-- An admitted position under a condition, supported by one piece of evidence. -/
def admittedPosition (versionRef : String) (required : ApplicabilityExpression)
    (versionRef_valid : isBlank versionRef = false) : OrganisationalPosition where
  positionId := "position"
  versionRef := versionRef
  title := "Renewal"
  statement := "Renew."
  domainRefs := []
  positionKind := ""
  semanticModelVersionRef := "model@1"
  referencedElementIds := []
  workspaceId := "workspace-1"
  scopeEntityRefs := []
  requiredConditions := some required
  declaredRequiredFacts := []
  exceptions := []
  evaluatorVersion := APPLICABILITY_CONTRACT_VERSION
  owningDomain := "sales"
  approvedByReference := none
  supportingEvidenceRefs := ["evidence-1"]
  contradictingEvidenceRefs := []
  validInterval := none
  recordedAt := none
  reviewDueAt := none
  replacesPositionRef := none
  supersededByRef := none
  dependsOnPositionRefs := []
  contradictsPositionRefs := []
  lastSubstantiveReviewAt := none
  reviewPolicy := none
  classification := .internal
  retentionClass := "standard"
  lifecycleState := .admitted
  valid := by
    simp only [List.forall_mem_append, List.forall_mem_cons, Option.toList_none]
    exact ⟨⟨⟨by decide, versionRef_valid, by decide, by decide, by decide, by decide, by decide,
      by decide⟩, by decide⟩, by decide⟩
  evaluatorVersion_valid := fun _ => by decide

def amountOperand (amount : ℕ) (unit : String) (unit_valid : (!isBlank unit) = true) : Operand :=
  ⟨.numeric ⟨false, amount, 0⟩, some unit, unit_valid⟩

def belowTenEuros : ApplicabilityExpression where
  root := .comparison ⟨.numeric .lt, ⟨.factRef "amount", none, by decide⟩,
    some (amountOperand 10 "EUR" (by decide)), [], by decide⟩
  wellFormed := by decide
  count_le := by decide
  depth_le := by decide

def amountFacts (unit : String) (unit_valid : (!isBlank unit) = true) : FactSnapshot where
  factSnapshotRef := "facts-1"
  facts := ⟨[("amount", ⟨[amountOperand 5 unit unit_valid], true, .userAssumption, by
    intro v hv
    rw [List.mem_singleton.1 hv]
    rfl⟩)], List.nodup_singleton _⟩
  factSnapshotRef_valid := isBlank_facts
  keys_valid := by
    intro fact hfact
    rw [List.mem_singleton.1 hfact]
    exact (by decide : isBlank "amount" = false)

/-- The position of the renewal, which may contradict others. -/
def renewalPosition (contradicts : List String) : OrganisationalPosition :=
  { admittedPosition "position@1" belowTenEuros (by decide) with
    contradictsPositionRefs := contradicts }

def renewalCall (contradicts : List String) (unit : String) (unit_valid : (!isBlank unit) = true) :
    Stage1Call where
  profile := renewalProfile
  dependency := ⟨renewalConsumer⟩
  contextPack := renewalPack
  positions := [renewalPosition contradicts]
  facts := amountFacts unit unit_valid
  requestRef := "request-1"
  semanticModelVersionRef := "model@1"
  validAt := year2024
  recordedAsOf := year2024
  queryTime := year2024

variable {contradicts : List String} {unit : String} {unit_valid : (!isBlank unit) = true}

theorem renewalCall_admits : (renewalCall contradicts unit unit_valid).Admits 20 where
  binding := by rfl
  requiredFacts := by
    intro ref href
    rw [List.mem_singleton.1 href]
    rfl
  packBytes := by
    have h : packBytes renewalPack = .ok 20 := by decide +kernel
    exact h
  byteBound := (by decide : 20 ≤ 4096)

theorem renewalCall_positions {motive : OrganisationalPosition → Prop}
    (h : motive (renewalPosition contradicts)) :
    ∀ p ∈ (renewalCall contradicts unit unit_valid).positions, motive p := by
  intro p hp
  rw [List.mem_singleton.1 hp]
  exact h

theorem outcome_belowTenEuros :
    outcomeOf id belowTenEuros [] (amountFacts "EUR" (by decide)) "position@1" =
      some .applicable := by
  have hbelow : OrderRelation.lt.holds (DecimalNumber.value ⟨false, 5, 0⟩)
      (DecimalNumber.value ⟨false, 10, 0⟩) = true := by decide +kernel
  have htruth : truthOf (amountFacts "EUR" (by decide)) belowTenEuros.root = .ok .true :=
    congrArg (fun b => Except.ok (TruthValue.ofBool b)) hbelow
  exact outcomeOf_eq_some.2 ⟨by decide, .inr ⟨.true, [], htruth, by decide, rfl, rfl⟩⟩

theorem statable_renewal : Statable id (renewalCall contradicts "EUR" (by decide))
    (renewalPosition contradicts) belowTenEuros := by
  refine ⟨reachedInRange_of_outcome outcome_belowTenEuros, fun h => ?_, fun _ => ?_⟩
  · cases outcome_belowTenEuros.symm.trans h
  · exact (by decide : ∀ ref ∈ ["evidence-1"], isBlank ref = false)

theorem isExactNumber_renewal : IsExactNumber 4096 ∧ IsExactNumber 20 := by
  obtain ⟨x, hx, -⟩ := requireBinary64_natCast (by decide : 4096 < 2 ^ 53)
  obtain ⟨y, hy, -⟩ := requireBinary64_natCast (by decide : 20 < 2 ^ 53)
  exact ⟨⟨_, hx⟩, _, hy⟩

/-- Five dollars are neither below ten euros nor not: no reason says so, and nothing is assembled. -/
theorem open_comparison_stops_assembly :
    ((renewalCall [] "USD" (by decide)).Admits 20 ∧
      (∀ p ∈ (renewalCall [] "USD" (by decide)).positions,
        p.workspaceId = (renewalCall [] "USD" (by decide)).profile.workspaceId) ∧
      (∀ p ∈ (renewalCall [] "USD" (by decide)).positions, p.requiredConditions.isSome) ∧
      ItemBound id (renewalCall [] "USD" (by decide))) ∧
    ∀ bundle, assembleStage1Context id (fun _ => "") (fun _ => "")
      (renewalCall [] "USD" (by decide)) ≠ .ok bundle := by
  refine ⟨⟨renewalCall_admits, renewalCall_positions rfl, renewalCall_positions rfl,
    fun bound h => by cases h⟩, fun bundle h => ?_⟩
  obtain ⟨-, -, hpositions, -⟩ := assembleStage1Context_eq_ok.1 h
  have hrecordable := hpositions _ (List.mem_singleton_self _)
  have hstatable := (recordable_iff rfl rfl).1 hrecordable (by decide)
  obtain ⟨name, hname, hnone⟩ := hstatable.undecided (by rfl)
  obtain rfl : name = "amount" := List.mem_singleton.1 hname
  cases hnone

def termBelowTen : ApplicabilityExpression where
  root := .comparison ⟨.numeric .lt, ⟨.factRef "term", none, by decide⟩,
    some (amountOperand 10 "EUR" (by decide)), [], by decide⟩
  wellFormed := by decide
  count_le := by decide
  depth_le := by decide

/-- A position the facts leave open beside the one of the renewal. -/
def termPosition : OrganisationalPosition := admittedPosition "position@2" termBelowTen (by decide)

def termCall : Stage1Call :=
  { renewalCall [] "EUR" (by decide) with positions := [renewalPosition [], termPosition] }

theorem outcome_termBelowTen :
    outcomeOf id termBelowTen [] (amountFacts "EUR" (by decide)) "position@2" = some .needsInformation :=
  outcomeOf_eq_some.2 ⟨by decide, .inr ⟨.unknown, [], by rfl, by decide, rfl, rfl⟩⟩

theorem statable_term : Statable id termCall termPosition termBelowTen := by
  refine ⟨reachedInRange_of_outcome outcome_termBelowTen,
    fun _ => ⟨"term", List.mem_singleton_self _, by rfl⟩, fun h => ?_⟩
  cases outcome_termBelowTen.symm.trans h

/-- Five euros are below ten, and nothing is known of the term. -/
theorem assembly_totality_renewal :
    outcomeOf id termBelowTen [] termCall.facts "position@2" = some .needsInformation ∧
      ∃ bundle, assembleStage1Context id (fun _ => "") (fun _ => "") termCall = .ok bundle := by
  have hpositions : ∀ {P : OrganisationalPosition → Prop}, P (renewalPosition []) → P termPosition →
      ∀ p ∈ termCall.positions, P p := by
    intro P hrenewal hterm p hp
    rcases List.mem_pair.1 hp with rfl | rfl
    · exact hrenewal
    · exact hterm
  have hadmits : (renewalCall [] "EUR" (by decide)).Admits 20 := renewalCall_admits
  have hrenewal : Statable id (renewalCall [] "EUR" (by decide)) (renewalPosition []) belowTenEuros :=
    statable_renewal
  refine ⟨outcome_termBelowTen, (assembly_totality id (fun _ => "") (fun _ => "") termCall 20
    ⟨hadmits.binding, hadmits.requiredFacts, hadmits.packBytes, hadmits.byteBound⟩ (hpositions rfl rfl)
    (hpositions rfl rfl) fun bound h => by cases h).2 ⟨⟨by decide, by decide⟩, isExactNumber_renewal, ?_⟩⟩
  refine hpositions (fun _ required hrequired => ?_) fun _ required hrequired => ?_
  · obtain rfl := Option.some.inj hrequired
    exact ⟨hrenewal.inRange, hrenewal.undecided, hrenewal.evidence⟩
  · obtain rfl := Option.some.inj hrequired
    exact statable_term

end OmniviaCore.Knowledge
