import OmniviaCore.SemanticRegistry.Candidates

/-!
# Suppressions

`CandidateSuppression` and `suppression_active` of `semantic_registry/candidates.py`, and
`decide_suppression` of `semantic_registry/aggregation.py`: of the suppressions of one equivalence
signature, in the order of their identifiers, the first that is active holds the candidate back, and of
those that have ended the first says why.
-/

namespace OmniviaCore.SemanticRegistry.Aggregation

open Lib CanonicalJson
open Knowledge (TemporalInstant)

/-- `ReconsiderationReason`. -/
inductive ReconsiderationReason where
  | newEvidence | ruleVersionChanged | expired | humanOverride
  deriving DecidableEq

/-- What `_require_id` asks of a text. -/
abbrev IsId (value : Str) : Prop := value.all isSpace = false

/-- `CandidateSuppression`. -/
structure CandidateSuppression where
  workspaceId : Str
  suppressionId : Str
  equivalenceSignature : Str
  rejectionRef : Str
  suppressionRuleVersion : Str
  createdAt : TemporalInstant
  evidenceSnapshotDigest : Str
  aggregationVersion : Str
  expiresAt : Option TemporalInstant
  ids : ∀ value ∈ [workspaceId, suppressionId, equivalenceSignature, rejectionRef, suppressionRuleVersion,
    evidenceSnapshotDigest, aggregationVersion], IsId value
  expiry : ∀ instant ∈ expiresAt, createdAt.value.rank < instant.value.rank

/-- `SuppressionActivity`. -/
structure SuppressionActivity where
  active : Bool
  reason : Option ReconsiderationReason

/-- `SuppressionDecision`. -/
structure SuppressionDecision where
  suppressed : Bool
  suppressionId : Option Str
  reason : Option ReconsiderationReason

/-- `suppression_active`. -/
def suppressionActive (suppression : CandidateSuppression) (at_ : TemporalInstant)
    (evidenceSnapshotDigest aggregationVersion : Str) : Except CandidateError SuppressionActivity := do
  requireId "evidence_snapshot_digest" evidenceSnapshotDigest
  requireId "aggregation_version" aggregationVersion
  if suppression.expiresAt.any (fun expiry => expiry.value.rank ≤ at_.value.rank) then
    pure ⟨false, some .expired⟩
  else if evidenceSnapshotDigest ≠ suppression.evidenceSnapshotDigest then pure ⟨false, some .newEvidence⟩
  else if aggregationVersion ≠ suppression.aggregationVersion then pure ⟨false, some .ruleVersionChanged⟩
  else pure ⟨true, none⟩

/-- The loop of `decide_suppression`, with what the first ended suppression was. -/
def decideEach (at_ : TemporalInstant) (evidenceSnapshotDigest aggregationVersion : Str)
    (ended : Option SuppressionDecision) : List CandidateSuppression → Except CandidateError SuppressionDecision
  | [] => .ok (ended.getD ⟨false, none, none⟩)
  | suppression :: rest => do
    let activity ← suppressionActive suppression at_ evidenceSnapshotDigest aggregationVersion
    if activity.active then pure ⟨true, some suppression.suppressionId, none⟩
    else
      decideEach at_ evidenceSnapshotDigest aggregationVersion
        (ended.or (some ⟨false, some suppression.suppressionId, activity.reason⟩)) rest

/-- `decide_suppression`. -/
def decideSuppression (equivalenceSignature : Str) (suppressions : List CandidateSuppression)
    (at_ : TemporalInstant) (evidenceSnapshotDigest aggregationVersion : Str) :
    Except CandidateError SuppressionDecision := do
  requireId "equivalence_signature" equivalenceSignature
  requireId "evidence_snapshot_digest" evidenceSnapshotDigest
  requireId "aggregation_version" aggregationVersion
  let matching := sortBy (fun suppression => codePoints suppression.suppressionId)
    (suppressions.filter fun suppression => suppression.equivalenceSignature = equivalenceSignature)
  decideEach at_ evidenceSnapshotDigest aggregationVersion none matching

/-! ## What is active -/

variable {suppression : CandidateSuppression} {suppressions : List CandidateSuppression}
  {at_ later : TemporalInstant} {signature evidence version : Str} {decision : SuppressionDecision}

/-- The suppression has not expired, and was made of the same evidence under the same rules. -/
structure Active (suppression : CandidateSuppression) (at_ : TemporalInstant) (evidence version : Str) :
    Prop where
  unexpired : ∀ expiry ∈ suppression.expiresAt, at_.value.rank < expiry.value.rank
  evidence : evidence = suppression.evidenceSnapshotDigest
  version : version = suppression.aggregationVersion

theorem Active.earlier (h : Active suppression later evidence version)
    (hle : at_.value.rank ≤ later.value.rank) : Active suppression at_ evidence version :=
  ⟨fun expiry hexpiry => hle.trans_lt (h.unexpired expiry hexpiry), h.evidence, h.version⟩

theorem suppressionActive_eq_ok {activity : SuppressionActivity}
    (h : suppressionActive suppression at_ evidence version = .ok activity) :
    activity.active = true ↔ Active suppression at_ evidence version := by
  simp only [suppressionActive, requireId, bind_eq_ok, exists_unit, require_eq_ok] at h
  obtain ⟨-, -, h⟩ := h
  by_cases hexpired : suppression.expiresAt.any (fun expiry => expiry.value.rank ≤ at_.value.rank) = true
  · rw [if_pos hexpired] at h
    obtain ⟨expiry, hexpiry, hle⟩ := Option.any_eq_true _ _ |>.1 hexpired
    obtain rfl := pure_eq_ok.1 h
    refine iff_of_false Bool.false_ne_true fun hactive => ?_
    exact absurd (hactive.unexpired expiry hexpiry) (not_lt.2 (of_decide_eq_true hle))
  · rw [if_neg hexpired] at h
    by_cases hevidence : evidence = suppression.evidenceSnapshotDigest
    · rw [if_neg (not_not_intro hevidence)] at h
      by_cases hversion : version = suppression.aggregationVersion
      · rw [if_neg (not_not_intro hversion)] at h
        obtain rfl := pure_eq_ok.1 h
        refine iff_of_true rfl ⟨fun expiry hexpiry => ?_, hevidence, hversion⟩
        by_contra hle
        refine hexpired ((Option.any_eq_true _ _).2 ⟨expiry, hexpiry, ?_⟩)
        exact decide_eq_true (not_lt.1 hle)
      · rw [if_pos hversion] at h
        obtain rfl := pure_eq_ok.1 h
        exact iff_of_false Bool.false_ne_true fun hactive => hversion hactive.version
    · rw [if_pos hevidence] at h
      obtain rfl := pure_eq_ok.1 h
      exact iff_of_false Bool.false_ne_true fun hactive => hevidence hactive.evidence

theorem suppressionActive_isOk (hevidence : IsId evidence) (hversion : IsId version)
    (suppression : CandidateSuppression) (at_ : TemporalInstant) :
    ∃ activity, suppressionActive suppression at_ evidence version = .ok activity := by
  unfold suppressionActive requireId
  rw [require_pos hevidence, ok_bind, require_pos hversion, ok_bind]
  split
  · exact ⟨_, rfl⟩
  · split
    · exact ⟨_, rfl⟩
    · split
      · exact ⟨_, rfl⟩
      · exact ⟨_, rfl⟩

/-! ## What is decided -/

/-- The loop ends on the first suppression that is active, if there is one. -/
theorem decideEach_eq_ok {ended : Option SuppressionDecision} (hended : ∀ d ∈ ended, d.suppressed = false)
    (h : decideEach at_ evidence version ended suppressions = .ok decision) :
    decision.suppressed = true ↔ ∃ s ∈ suppressions, Active s at_ evidence version := by
  induction suppressions generalizing ended with
  | nil =>
    obtain rfl := Except.ok.inj h
    refine iff_of_false ?_ fun ⟨s, hs, _⟩ => absurd hs List.not_mem_nil
    cases ended with
    | none => exact Bool.false_ne_true
    | some d =>
      rw [Option.getD_some, hended d rfl]
      exact Bool.false_ne_true
  | cons s suppressions ih =>
    simp only [decideEach, bind_eq_ok] at h
    obtain ⟨activity, hactivity, h⟩ := h
    have hiff := suppressionActive_eq_ok hactivity
    rw [List.exists_mem_cons_iff, ← hiff]
    cases hactive : activity.active with
    | true =>
      rw [hactive, if_pos rfl] at h
      obtain rfl := pure_eq_ok.1 h
      exact iff_of_true rfl (.inl rfl)
    | false =>
      rw [hactive, if_neg Bool.false_ne_true] at h
      have hended' : ∀ d ∈ ended.or (some ⟨false, some s.suppressionId, activity.reason⟩),
          d.suppressed = false := by
        intro d hd
        cases ended with
        | none =>
          obtain rfl := Option.some.inj hd
          rfl
        | some first => exact hended d hd
      rw [ih hended' h]
      simp

theorem decideEach_isOk (hevidence : IsId evidence) (hversion : IsId version)
    (ended : Option SuppressionDecision) (suppressions : List CandidateSuppression) :
    ∃ decision, decideEach at_ evidence version ended suppressions = .ok decision := by
  induction suppressions generalizing ended with
  | nil => exact ⟨_, rfl⟩
  | cons s suppressions ih =>
    obtain ⟨activity, hactivity⟩ := suppressionActive_isOk hevidence hversion s at_
    rw [decideEach, hactivity, ok_bind]
    split
    · exact ⟨_, rfl⟩
    · exact ih _

/-- A decision suppresses exactly when a suppression of the signature is active. -/
theorem decideSuppression_iff
    (h : decideSuppression signature suppressions at_ evidence version = .ok decision) :
    decision.suppressed = true ↔
      ∃ s ∈ suppressions, s.equivalenceSignature = signature ∧ Active s at_ evidence version := by
  simp only [decideSuppression, bind_eq_ok, exists_unit] at h
  obtain ⟨-, -, -, h⟩ := h
  rw [decideEach_eq_ok (fun d hd => by cases hd) h]
  simp only [mem_sortBy, List.mem_filter, decide_eq_true_eq, and_assoc]

theorem decideSuppression_isOk : (∃ decision, decideSuppression signature suppressions at_ evidence version =
    .ok decision) ↔ IsId signature ∧ IsId evidence ∧ IsId version := by
  constructor
  · rintro ⟨decision, h⟩
    simp only [decideSuppression, requireId, bind_eq_ok, exists_unit, require_eq_ok] at h
    exact ⟨h.1, h.2.1, h.2.2.1⟩
  · rintro ⟨hsignature, hevidence, hversion⟩
    unfold decideSuppression requireId
    rw [require_pos hsignature, ok_bind, require_pos hevidence, ok_bind, require_pos hversion, ok_bind]
    exact decideEach_isOk hevidence hversion none _

/-- A decision does not see the order of suppressions that have each an identifier of their own. -/
theorem decideSuppression_perm {others : List CandidateSuppression} (h : suppressions.Perm others)
    (hids : (suppressions.map CandidateSuppression.suppressionId).Nodup) :
    decideSuppression signature suppressions at_ evidence version =
      decideSuppression signature others at_ evidence version := by
  have hsorted : sortBy (fun s => codePoints (CandidateSuppression.suppressionId s))
      (suppressions.filter fun s => s.equivalenceSignature = signature) =
        sortBy (fun s => codePoints (CandidateSuppression.suppressionId s))
          (others.filter fun s => s.equivalenceSignature = signature) := by
    refine (sortBy_eq_iff_perm fun s hs t ht heq => ?_).2 (h.filter _)
    exact List.inj_on_of_nodup_map hids (List.mem_of_mem_filter hs) (List.mem_of_mem_filter ht)
      (codePoints_injective heq)
  unfold decideSuppression
  rw [hsorted]

/-- A candidate is suppressed exactly while a suppression of its signature is active, whatever their order.
Once it is not suppressed, time alone does not suppress it again, and evidence of which none of its
suppressions was made ends them all. -/
theorem decide_suppression_monotone (signature : Str) (suppressions : List CandidateSuppression) :
    (∀ at_ evidence version decision,
      decideSuppression signature suppressions at_ evidence version = .ok decision →
        (decision.suppressed = true ↔
          ∃ s ∈ suppressions, s.equivalenceSignature = signature ∧ Active s at_ evidence version)) ∧
    (∀ at_ evidence version,
      (∃ decision, decideSuppression signature suppressions at_ evidence version = .ok decision) ↔
        IsId signature ∧ IsId evidence ∧ IsId version) ∧
    (∀ others, suppressions.Perm others → ∀ at_ evidence version decision decision',
      decideSuppression signature suppressions at_ evidence version = .ok decision →
      decideSuppression signature others at_ evidence version = .ok decision' →
        decision'.suppressed = decision.suppressed ∧
          ((suppressions.map CandidateSuppression.suppressionId).Nodup → decision' = decision)) ∧
    (∀ at_ later evidence version decision decision', at_.value.rank ≤ later.value.rank →
      decideSuppression signature suppressions at_ evidence version = .ok decision →
      decideSuppression signature suppressions later evidence version = .ok decision' →
        decision.suppressed = false → decision'.suppressed = false) ∧
    ∀ at_ evidence version decision,
      decideSuppression signature suppressions at_ evidence version = .ok decision →
      (∀ s ∈ suppressions, s.equivalenceSignature = signature → s.evidenceSnapshotDigest ≠ evidence) →
        decision.suppressed = false := by
  refine ⟨fun at_ evidence version decision h => decideSuppression_iff h,
    fun at_ evidence version => decideSuppression_isOk, ?_, ?_, ?_⟩
  · intro others hperm at_ evidence version decision decision' h h'
    constructor
    · rw [Bool.eq_iff_iff, decideSuppression_iff h', decideSuppression_iff h]
      exact exists_congr fun s => and_congr_left' hperm.mem_iff.symm
    · intro hids
      rw [← decideSuppression_perm hperm hids, h] at h'
      exact (Except.ok.inj h').symm
  · intro at_ later evidence version decision decision' hle h h' hended
    rw [← Bool.not_eq_true, decideSuppression_iff h']
    rintro ⟨s, hs, hsignature, hactive⟩
    rw [(decideSuppression_iff h).2 ⟨s, hs, hsignature, hactive.earlier hle⟩] at hended
    cases hended
  · intro at_ evidence version decision h hnew
    rw [← Bool.not_eq_true, decideSuppression_iff h]
    rintro ⟨s, hs, hsignature, hactive⟩
    exact hnew s hs hsignature hactive.evidence.symm

end OmniviaCore.SemanticRegistry.Aggregation
