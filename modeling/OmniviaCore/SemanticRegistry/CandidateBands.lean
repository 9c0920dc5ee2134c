import OmniviaCore.SemanticRegistry.CandidateSupport
import OmniviaCore.SemanticRegistry.LiteralDigests

/-!
# Contradiction and support

An observation that contradicts keeps a contribution of its own (`exists_contradiction`). Further supporting
evidence, in classes of its own, leaves every old item with its representative (`Ran.representative_grown`),
so no old contribution loses weight and the support band does not fall (`supportBand_mono`).
-/

namespace OmniviaCore.SemanticRegistry.Aggregation

open Lib CanonicalJson

variable {nfc casefold : Str → Str} {strftime : Instant → String} {sha256 : List UInt8 → String}

/-! ## Weights -/

theorem weightOf_mono {e e' s s' : ℕ} (he : e ≤ e') (hs : s ≤ s') : weightOf e s ≤ weightOf e' s' := by
  unfold weightOf WEIGHT_PER_EVIDENCE WEIGHT_PER_EXTRA_SOURCE
  apply min_le_min_left
  omega

theorem rank_mono {w w' : ℕ} (h : w ≤ w') : (bandFromWeight w).rank ≤ (bandFromWeight w').rank := by
  unfold bandFromWeight
  split_ifs
  all_goals first | decide | omega

theorem inRole_cons_pos {role : ContributionRole} {c : CandidateContribution} (h : c.role = role)
    (l : List CandidateContribution) : inRole role (c :: l) = c :: inRole role l :=
  List.filter_cons_of_pos (decide_eq_true h)

theorem inRole_cons_neg {role : ContributionRole} {c : CandidateContribution} (h : c.role ≠ role)
    (l : List CandidateContribution) : inRole role (c :: l) = inRole role l :=
  List.filter_cons_of_neg (Bool.not_eq_true _ ▸ decide_eq_false h)

theorem weightIn_perm {role : ContributionRole} {l l' : List CandidateContribution} (h : l.Perm l') :
    weightIn role l = weightIn role l' :=
  ((h.filter _).map _).sum_eq

theorem weightIn_append (role : ContributionRole) (l l' : List CandidateContribution) :
    weightIn role (l ++ l') = weightIn role l + weightIn role l' := by
  unfold weightIn inRole
  rw [List.filter_append, List.map_append, List.sum_append]

theorem weightIn_mono {role : ContributionRole} {l l' : List CandidateContribution}
    (h : List.Forall₂ (fun c c' => c.role = c'.role ∧ c.weight ≤ c'.weight) l l') :
    weightIn role l ≤ weightIn role l' := by
  induction h with
  | nil => exact le_rfl
  | @cons c c' l l' hc _ ih =>
    obtain ⟨hrole, hweight⟩ := hc
    unfold weightIn at ih ⊢
    by_cases hin : c.role = role
    · rw [inRole_cons_pos hin, inRole_cons_pos (hrole ▸ hin), List.map_cons, List.map_cons,
        List.sum_cons, List.sum_cons]
      exact Nat.add_le_add hweight ih
    · rw [inRole_cons_neg hin, inRole_cons_neg (hrole ▸ hin)]
      exact ih

/-! ## Contradictions -/

section Results

variable {request request' : Request} {result result' : CandidateAggregation}

/-- An observation that contradicts keeps a contribution of its own. -/
theorem exists_contradiction (h : buildCandidate nfc casefold strftime sha256 request = .ok result)
    {bundle : ObservationBundle} (hbundle : bundle ∈ request.bundles) (hactive : bundle.isActive)
    (hcontradicts : bundle.contradicts) :
    ∃ contribution ∈ result.contributions,
      contribution.observationId = bundle.observation.observationId ∧ contribution.role = .contradict ∧
        observationDigest nfc strftime sha256 bundle.observation = .ok contribution.observationDigest := by
  obtain ⟨kind, signedItems, representative, parts, hran⟩ := exists_ran h
  obtain ⟨part, hpart, hisPart⟩ :=
    exists_of_forall₂_left hran.isPart (List.mem_filter.2 ⟨hbundle, hactive⟩)
  refine ⟨part.contribution, ?_, hisPart.observationId, ?_, hisPart.digest⟩
  · rw [(assembled_of_assemble hran.assembles).contributions]
    exact mem_sortBy.2 (List.mem_map_of_mem hpart)
  · rw [hisPart.role, roleOf, if_pos hcontradicts]

theorem roleOf_eq_contradict {novel : Bool} {bundle : ObservationBundle} :
    roleOf novel bundle = .contradict ↔ bundle.contradicts := by
  unfold roleOf
  split_ifs with hcontradicts hnovel
  · exact iff_of_true rfl hcontradicts
  · exact iff_of_false (by decide) hcontradicts
  · exact iff_of_false (by decide) hcontradicts

/-- The parts that contradict are those of the observations that do. -/
theorem contradictions_length {representative : Dict Str Str} {novel : Bool}
    {bundles : List ObservationBundle} {parts : List Part}
    (h : List.Forall₂ (IsPart nfc strftime sha256 request representative novel) bundles parts) :
    (inRole .contradict (parts.map Part.contribution)).length =
      (bundles.filter ObservationBundle.contradicts).length := by
  induction h with
  | nil => rfl
  | @cons bundle part bundles parts hpart _ ih =>
    have hrole : part.contribution.role = .contradict ↔ bundle.contradicts := by
      rw [hpart.role]
      exact roleOf_eq_contradict
    rw [List.map_cons]
    by_cases hcontradicts : bundle.contradicts
    · rw [inRole_cons_pos (hrole.2 hcontradicts), List.filter_cons_of_pos hcontradicts, List.length_cons,
        List.length_cons, ih]
    · rw [inRole_cons_neg (mt hrole.1 hcontradicts), List.filter_cons_of_neg hcontradicts, ih]

/-- There are as many contradictions as observations that count and contradict. -/
theorem contradictCount_eq (h : buildCandidate nfc casefold strftime sha256 request = .ok result) :
    result.features.summary.contradictCount =
      ((request.bundles.filter ObservationBundle.isActive).filter ObservationBundle.contradicts).length := by
  obtain ⟨kind, signedItems, representative, parts, hran⟩ := exists_ran h
  have hassembled := assembled_of_assemble hran.assembles
  rw [hassembled.contradictCount, hassembled.contributions, ← contradictions_length hran.isPart]
  exact ((perm_sortBy _).filter _).length_eq

end Results

/-! ## Further support -/

/-- A link to supporting evidence in a class that the request's evidence has no item of. -/
def FurtherSupport (nfc : Str → Str) (sha256 : List UInt8 → String) (request request' : Request)
    (link : EvidenceLink) : Prop :=
  link.role = .support ∧ ∀ item signature, request'.evidence.get link.evidenceId = some item →
    evidenceDedupSignature nfc sha256 item request.aggregationVersion = .ok signature →
    signature ∉ classes nfc sha256 request

def Grown (nfc : Str → Str) (sha256 : List UInt8 → String) (request request' : Request)
    (bundle bundle' : ObservationBundle) : Prop :=
  bundle'.observation = bundle.observation ∧ ∃ links, bundle'.evidenceLinks = bundle.evidenceLinks ++ links ∧
    ∀ link ∈ links, FurtherSupport nfc sha256 request request' link

/-- The request with further support: for the observations it has, and in further observations. -/
structure Corroborated (nfc : Str → Str) (sha256 : List UInt8 → String) (request request' : Request)
    (grown added : List ObservationBundle) : Prop where
  same : request' = { request with bundles := request'.bundles, evidence := request'.evidence }
  evidence : ∀ id item, request.evidence.get id = some item → request'.evidence.get id = some item
  bundles : request'.bundles.Perm (grown ++ added)
  grown : List.Forall₂ (Grown nfc sha256 request request') request.bundles grown
  added : ∀ bundle ∈ added, ∀ link ∈ bundle.evidenceLinks, FurtherSupport nfc sha256 request request' link

section Support

variable {request request' : Request} {grown added : List ObservationBundle}

theorem Corroborated.version (h : Corroborated nfc sha256 request request' grown added) :
    request'.aggregationVersion = request.aggregationVersion := by
  rw [h.same]

theorem Grown.isActive {bundle bundle' : ObservationBundle}
    (h : Grown nfc sha256 request request' bundle bundle') : bundle'.isActive = bundle.isActive := by
  unfold ObservationBundle.isActive
  rw [h.1]

theorem Grown.contradicts {bundle bundle' : ObservationBundle}
    (h : Grown nfc sha256 request request' bundle bundle') : bundle'.contradicts = bundle.contradicts := by
  obtain ⟨-, links, hlinks, hfurther⟩ := h
  have hnone : (links.any fun link => link.role = .contradict) = false := by
    rw [List.any_eq_false]
    intro link hlink
    rw [(hfurther link hlink).1]
    decide
  unfold ObservationBundle.contradicts
  rw [hlinks, List.any_append, hnone, Bool.or_false]

/-- The observations that count are those that did, grown, and added ones. -/
theorem forall₂_filter_grown {bundles : List ObservationBundle}
    (h : List.Forall₂ (Grown nfc sha256 request request') bundles grown) :
    List.Forall₂ (Grown nfc sha256 request request') (bundles.filter ObservationBundle.isActive)
      (grown.filter ObservationBundle.isActive) := by
  induction h with
  | nil => exact .nil
  | @cons bundle bundle' bundles grown hgrown _ ih =>
    by_cases hactive : bundle.isActive
    · rw [List.filter_cons_of_pos hactive, List.filter_cons_of_pos (hgrown.isActive ▸ hactive)]
      exact .cons hgrown ih
    · rw [List.filter_cons_of_neg hactive, List.filter_cons_of_neg (hgrown.isActive ▸ hactive)]
      exact ih

theorem mem_linkedIds {bundles : List ObservationBundle} {id : Str} :
    id ∈ linkedIds bundles ↔ ∃ bundle ∈ bundles.filter ObservationBundle.isActive,
      ∃ link ∈ bundle.evidenceLinks, link.evidenceId = id := by
  unfold linkedIds
  rw [List.mem_flatMap]
  simp only [List.mem_map]

theorem Corroborated.mem_linkedIds (h : Corroborated nfc sha256 request request' grown added) {id : Str} :
    id ∈ linkedIds request'.bundles → id ∈ linkedIds request.bundles ∨
      ∃ link, link.evidenceId = id ∧ FurtherSupport nfc sha256 request request' link := by
  intro hid
  obtain ⟨bundle, hbundle, link, hlink, rfl⟩ := Aggregation.mem_linkedIds.1 hid
  rw [(h.bundles.filter _).mem_iff, List.filter_append, List.mem_append] at hbundle
  rcases hbundle with hbundle | hbundle
  · obtain ⟨old, hold, -, links, hlinks, hfurther⟩ :=
      exists_of_forall₂_right (forall₂_filter_grown h.grown) hbundle
    rw [hlinks, List.mem_append] at hlink
    rcases hlink with hlink | hlink
    · exact .inl (Aggregation.mem_linkedIds.2 ⟨old, hold, link, hlink, rfl⟩)
    · exact .inr ⟨link, rfl, hfurther link hlink⟩
  · exact .inr ⟨link, rfl, h.added bundle (List.mem_filter.1 hbundle).1 link hlink⟩

theorem Corroborated.linkedIds_subset (h : Corroborated nfc sha256 request request' grown added) {id : Str}
    (hid : id ∈ linkedIds request.bundles) : id ∈ linkedIds request'.bundles := by
  obtain ⟨bundle, hbundle, link, hlink, rfl⟩ := Aggregation.mem_linkedIds.1 hid
  obtain ⟨bundle', hbundle', -, links, hlinks, -⟩ :=
    exists_of_forall₂_left (forall₂_filter_grown h.grown) hbundle
  refine Aggregation.mem_linkedIds.2 ⟨bundle', ?_, link, ?_, rfl⟩
  · rw [(h.bundles.filter _).mem_iff, List.filter_append, List.mem_append]
    exact .inl hbundle'
  · rw [hlinks, List.mem_append]
    exact .inl hlink

theorem Corroborated.signs (h : Corroborated nfc sha256 request request' grown added) {id : Str}
    {signature : String} (hsigns : Signs nfc sha256 request id signature) :
    Signs nfc sha256 request' id signature := by
  obtain ⟨hid, item, hget, hsignature⟩ := hsigns
  exact ⟨h.linkedIds_subset hid, item, h.evidence id item hget, by rw [h.version]; exact hsignature⟩

theorem Corroborated.signs_old (h : Corroborated nfc sha256 request request' grown added)
    {kind : Str} {signedItems : List (Str × String)} {representative : Dict Str Str} {parts : List Part}
    {result : CandidateAggregation}
    (hran : Ran nfc casefold strftime sha256 request kind signedItems representative parts result)
    {id : Str} {signature : String} (hclass : signature ∈ classes nfc sha256 request)
    (hsigns : Signs nfc sha256 request' id signature) : Signs nfc sha256 request id signature := by
  obtain ⟨hid, item, hget, hsignature⟩ := hsigns
  rw [h.version] at hsignature
  rcases h.mem_linkedIds hid with hid | ⟨link, rfl, -, hfurther⟩
  · obtain ⟨signature', -, old, hold, hsignature'⟩ := hran.exists_signs hid
    obtain rfl := Option.some.inj ((h.evidence id old hold).symm.trans hget)
    exact ⟨hid, old, hold, hsignature⟩
  · exact absurd hclass (hfurther item signature hget hsignature)

section Runs

variable {kind kind' : Str} {signedItems signedItems' : List (Str × String)}
  {representative representative' : Dict Str Str} {parts parts' : List Part}
  {result result' : CandidateAggregation}

theorem Corroborated.keeps (h : Corroborated nfc sha256 request request' grown added)
    (hran : Ran nfc casefold strftime sha256 request kind signedItems representative parts result)
    (hran' : Ran nfc casefold strftime sha256 request' kind' signedItems' representative' parts' result')
    {id least : Str} (hget : representative.get id = some least) :
    representative'.get id = some least := by
  obtain ⟨signature, hid, hleast, hle⟩ := (hran.represents id least).1 hget
  refine (hran'.represents id least).2 ⟨signature, ?_, ?_, fun other hother => ?_⟩
  · exact hran'.mem_signedItems.2 (h.signs (hran.mem_signedItems.1 hid))
  · exact hran'.mem_signedItems.2 (h.signs (hran.mem_signedItems.1 hleast))
  · have hclass := mem_classes.2 ⟨id, hran.mem_signedItems.1 hid⟩
    exact hle other (hran.mem_signedItems.2
      (h.signs_old hran hclass (hran'.mem_signedItems.1 hother)))

/-- The part of a grown observation has the role it had, and no less weight. -/
theorem Corroborated.part (h : Corroborated nfc sha256 request request' grown added)
    (hran : Ran nfc casefold strftime sha256 request kind signedItems representative parts result)
    (hran' : Ran nfc casefold strftime sha256 request' kind' signedItems' representative' parts' result')
    {bundle bundle' : ObservationBundle} {part part' : Part} {novel : Bool}
    (hgrown : Grown nfc sha256 request request' bundle bundle')
    (hpart : IsPart nfc strftime sha256 request representative novel bundle part)
    (hpart' : IsPart nfc strftime sha256 request' representative' novel bundle' part') :
    part.contribution.role = part'.contribution.role ∧
      part.contribution.weight ≤ part'.contribution.weight := by
  have hids : part.evidenceIds ⊆ part'.evidenceIds := by
    intro id hid
    obtain ⟨link, hlink, hget⟩ := (hpart.mem_evidenceIds id).1 hid
    obtain ⟨-, links, hlinks, -⟩ := hgrown
    refine (hpart'.mem_evidenceIds id).2 ⟨link, ?_, h.keeps hran hran' hget⟩
    rw [hlinks]
    exact List.mem_append_left _ hlink
  have hsources : part.sourceIds ⊆ part'.sourceIds := by
    intro sourceId hsource
    obtain ⟨id, hid, item, hget, rfl⟩ := (hpart.mem_sourceIds sourceId).1 hsource
    exact (hpart'.mem_sourceIds _).2 ⟨id, hids hid, item, h.evidence id item hget, rfl⟩
  constructor
  · rw [hpart.role, hpart'.role, roleOf, roleOf, hgrown.contradicts]
  · rw [hpart.weight, hpart'.weight]
    exact weightOf_mono (List.subperm_of_subset hpart.nodup hids).length_le
      (List.subperm_of_subset hpart.nodup_sources hsources).length_le

end Runs

/-- Two lists that are related element by element, and what was made of each. -/
theorem forall₂_square {α β γ δ : Type} {A : α → β → Prop} {B : α → γ → Prop} {C : β → δ → Prop}
    {D : γ → δ → Prop} (h : ∀ a b c d, A a b → B a c → C b d → D c d) {as : List α} {bs : List β}
    {cs : List γ} {ds : List δ} (hA : List.Forall₂ A as bs) (hB : List.Forall₂ B as cs)
    (hC : List.Forall₂ C bs ds) : List.Forall₂ D cs ds := by
  induction hA generalizing cs ds with
  | nil =>
    cases hB
    cases hC
    exact .nil
  | cons hab _ ih =>
    cases hB with
    | cons hac hB =>
      cases hC with
      | cons hbd hC => exact .cons (h _ _ _ _ hab hac hbd) (ih hB hC)

theorem supportBand_mono {result result' : CandidateAggregation}
    (h : Corroborated nfc sha256 request request' grown added)
    (hbuild : buildCandidate nfc casefold strftime sha256 request = .ok result)
    (hbuild' : buildCandidate nfc casefold strftime sha256 request' = .ok result') :
    result.candidate.supportBand.rank ≤ result'.candidate.supportBand.rank := by
  obtain ⟨kind, signedItems, representative, parts, hran⟩ := exists_ran hbuild
  obtain ⟨kind', signedItems', representative', parts', hran'⟩ := exists_ran hbuild'
  have hassembled := assembled_of_assemble hran.assembles
  have hassembled' := assembled_of_assemble hran'.assembles
  rw [hassembled.supportBand, hassembled'.supportBand, hassembled.contributions, hassembled'.contributions]
  apply rank_mono
  unfold sortContributions
  rw [weightIn_perm (perm_sortBy _), weightIn_perm (perm_sortBy _)]
  -- The parts of the second run, those of the grown observations first.
  have hnovel : isNovel request'.base request'.proposedOperation =
      isNovel request.base request.proposedOperation := by rw [h.same]
  have hisPart' := hran'.isPart
  rw [hnovel] at hisPart'
  obtain ⟨shuffled, hshuffled, hperm⟩ := List.perm_comp_forall₂ (h.bundles.filter _).symm hisPart'
  rw [List.filter_append] at hshuffled
  have hpartsGrown := List.forall₂_take_append _ _ _ hshuffled.flip
  rw [← weightIn_perm (hperm.map _),
    ← List.take_append_drop (grown.filter ObservationBundle.isActive).length shuffled, List.map_append,
    weightIn_append]
  refine le_trans (weightIn_mono ?_) (Nat.le_add_right _ _)
  rw [List.forall₂_map_left_iff, List.forall₂_map_right_iff]
  refine forall₂_square ?_ (forall₂_filter_grown h.grown) hran.isPart hpartsGrown.flip
  intro bundle bundle' part part' hgrown hpart hpart'
  exact h.part hran hran' hgrown hpart hpart'

end Support

/-! ## The whole collection -/

/-- A collection in another order ends in the same candidate or fails too, with the same error or with
that of the first item at fault in the same loop. A candidate counts its evidence by classes, is the
same without the retracted observations and keeps every contradiction; its snapshot depends on the
classes alone; and further support in other classes does not lower the support band. -/
theorem candidate_aggregation (nfc casefold : Str → Str) (strftime : Instant → String)
    (sha256 : List UInt8 → String) :
    (∀ request request' : Request, request.Shuffled request' →
      Matches (SameFault nfc strftime sha256 request request') Eq
        (buildCandidate nfc casefold strftime sha256 request)
        (buildCandidate nfc casefold strftime sha256 request')) ∧
    (∀ (request : Request) (result : CandidateAggregation),
      buildCandidate nfc casefold strftime sha256 request = .ok result →
      result.features.independentEvidenceCount = (classes nfc sha256 request).card ∧
      buildCandidate nfc casefold strftime sha256
        { request with bundles := request.bundles.filter ObservationBundle.isActive } = .ok result ∧
      (∀ bundle ∈ request.bundles, bundle.isActive → bundle.contradicts →
        ∃ contribution ∈ result.contributions,
          contribution.observationId = bundle.observation.observationId ∧
          contribution.role = .contradict ∧
          observationDigest nfc strftime sha256 bundle.observation = .ok contribution.observationDigest) ∧
      result.features.summary.contradictCount =
        ((request.bundles.filter ObservationBundle.isActive).filter
          ObservationBundle.contradicts).length) ∧
    (∀ (request request' : Request) (result result' : CandidateAggregation),
      buildCandidate nfc casefold strftime sha256 request = .ok result →
      buildCandidate nfc casefold strftime sha256 request' = .ok result' →
      classes nfc sha256 request = classes nfc sha256 request' →
      result.candidate.evidenceSnapshotDigest = result'.candidate.evidenceSnapshotDigest) ∧
    ∀ (request request' : Request) (grown added : List ObservationBundle)
      (result result' : CandidateAggregation), Corroborated nfc sha256 request request' grown added →
      buildCandidate nfc casefold strftime sha256 request = .ok result →
      buildCandidate nfc casefold strftime sha256 request' = .ok result' →
      result.candidate.supportBand.rank ≤ result'.candidate.supportBand.rank := by
  refine ⟨fun request request' h => buildCandidate_matches h, fun request result h => ?_,
    fun request request' result result' h h' hclasses => snapshot_eq h h' hclasses,
    fun request request' grown added result result' h hbuild hbuild' => supportBand_mono h hbuild hbuild'⟩
  refine ⟨independentEvidenceCount_eq h, buildCandidate_filter h, ?_, contradictCount_eq h⟩
  intro bundle hbundle hactive hcontradicts
  exact exists_contradiction h hbundle hactive hcontradicts

/-! ## Two items at fault -/

def removal : ProposedOperation where
  operationId := text "op-1"
  kind := .removeElement
  after := []
  targetElementId := some (text "order")
  proposedElementId := none
  basePayloadDigest := none
  before := none
  dependsOnOperationIds := []
  evidenceRefs := []
  valid := by decide +kernel

/-- An item of a source, by the digit its content digest repeats. -/
def itemOf (evidenceId workspaceId sourceId : String) (digit : Char) : EvidenceItem :=
  ⟨text evidenceId, text workspaceId, ⟨text sourceId, text "1"⟩,
    text ("sha256:" ++ String.ofList (List.replicate 64 digit))⟩

def requestOf (bundles : List ObservationBundle) (evidence : Dict Str EvidenceItem) : Request where
  candidateId := text "c-1"
  candidateKind := text "Org_Unit"
  workspaceId := text "w-1"
  base := ⟨text "v-1", text "m-1", ⟨[], List.nodup_nil⟩⟩
  proposedOperation := removal
  bundles
  evidence
  createdAt := start2024
  aggregationVersion := AGGREGATION_RULE_VERSION
  normalizationVersion := NORMALIZATION_RULE_VERSION

/-- An item of another workspace, and an item under a key that is not its own. -/
def foreignFirst : Dict Str EvidenceItem :=
  ⟨[(text "e-1", itemOf "e-1" "w-2" "s-1" 'a'), (text "e-2", itemOf "e-9" "w-1" "s-1" 'a')], by decide⟩

def misplacedFirst : Dict Str EvidenceItem :=
  ⟨[(text "e-2", itemOf "e-9" "w-1" "s-1" 'a'), (text "e-1", itemOf "e-1" "w-2" "s-1" 'a')], by decide⟩

/-- The same evidence in two orders is refused with two errors. -/
theorem evidence_order_changes_error :
    (requestOf [] foreignFirst).Shuffled (requestOf [] misplacedFirst) ∧
    buildCandidate id id startText (fun _ => "") (requestOf [] foreignFirst) =
      .error (.evidenceWorkspace (text "e-1")) ∧
    buildCandidate id id startText (fun _ => "") (requestOf [] misplacedFirst) =
      .error (.evidenceKey (text "e-2")) ∧
    CandidateError.evidenceWorkspace (text "e-1") ≠ .evidenceKey (text "e-2") :=
  ⟨⟨rfl, .refl _, .swap _ _ _⟩, rfl, rfl, by decide⟩

/-! ## A term in two sources -/

def observationOf (id : String) (h : (text id).all isSpace = false) : SemanticObservation where
  observationId := text id
  workspaceId := text "w-1"
  kind := text "term"
  valueKind := .text
  originalForm := text "Order"
  normalizedForm := text "order"
  proposedSemanticRole := text "concept"
  classification := .internal
  generation := .manual
  recordedAt := start2024
  status := .recorded
  sourceTime := none
  supersedesObservationId := none
  ruleVersion := none
  required := h

/-- One item supports the candidate, and one contradicts it. -/
def termRequest : Request :=
  requestOf
    [⟨observationOf "o-1" (by decide), [⟨text "e-1", .support⟩], by decide⟩,
      ⟨observationOf "o-2" (by decide), [⟨text "e-2", .contradict⟩], by decide⟩]
    ⟨[(text "e-1", itemOf "e-1" "w-1" "s-1" 'a'), (text "e-2", itemOf "e-2" "w-1" "s-2" 'b')], by decide⟩

/-- SHA-256 on the messages of the request, each found by the sum of its bytes. -/
def termDigest (bytes : List UInt8) : String :=
  ([(17511, "8104d67a42e2942d13cb03d622a4a3a5d4d1ce82729ffe4478bb38c69a17f714"),
    (17576, "4baa0320194090b12e636cd4ffc5520d5f9fe30afdc36ec3b91dc9f593f16da5"),
    (36797, "7154bdd82678571e1fe884005826f30cdaa89495977387ed310593e5673914cd"),
    (36798, "6485803c2de433ec2c6a74d13fefe450cb990279939783e16cdb1fb9cf84fc78"),
    (15776, "d80825b182912f4236df6a90797bea8f37d0d2423a5654e1f2cb0228848b597c"),
    (20597, "f131d6c6186c1d66d9e5553e0bcf1a8000351611bf89de2013ade4f0a06b6ccb"),
    (24329, "11c5675babd8942c96e1ea3eeb84506e422e74ac0e616804eccf20808bde1dda")].lookup
    (bytes.map UInt8.toNat).sum).getD ""

theorem candidate_aggregation_term : ∃ result,
    buildCandidate id id startText termDigest termRequest = .ok result ∧
      result.features.independentEvidenceCount = (classes id termDigest termRequest).card ∧
      result.features.summary.contradictCount = 1 := by
  have hbuilt : (buildCandidate id id startText termDigest termRequest).isOk = true := by
    decide +kernel
  obtain ⟨result, hbuilt⟩ := exists_ok_of_isOk hbuilt
  obtain ⟨hcount, -, -, hcontradict⟩ := (candidate_aggregation id id startText termDigest).2.1 _ _ hbuilt
  exact ⟨result, hbuilt, hcount, hcontradict.trans (by decide +kernel)⟩

end OmniviaCore.SemanticRegistry.Aggregation
