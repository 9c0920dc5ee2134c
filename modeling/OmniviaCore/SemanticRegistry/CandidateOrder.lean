import OmniviaCore.SemanticRegistry.CandidateEvidence
import OmniviaCore.Lib.Shuffled

/-!
# The order of a collection

What `build_candidate` makes of its collection does not depend on the order the collection comes in: the
items are gathered as a set, an item's representative is the least of its class, and from there on
everything is a set, a sum or sorted (`assemble_perm`). Only an error may differ: where several items of one
loop are at fault, the first one met is named (`FirstFault`, `buildCandidate_matches`).
-/

namespace OmniviaCore.SemanticRegistry.Aggregation

open Lib CanonicalJson

/-- The error is about one of the items of the collection. -/
def CandidateError.aboutItem : CandidateError → Bool
  | .evidenceKey _ | .evidenceWorkspace _ | .observationWorkspace | .unknownEvidence _ | .canonical _
  | .keyError _ => true
  | _ => false

/-- The loops of `build_candidate` over its collection: the evidence, the observations, the items that are
signed and the observations that count. -/
inductive CollectionLoop where
  | evidence
  | bundles
  | items
  | contributions

/-- The error of the first item at fault in a loop, in the order of the request's collection. -/
def FirstFault (nfc : Str → Str) (strftime : Instant → String) (sha256 : List UInt8 → String)
    (request : Request) (e : CandidateError) : CollectionLoop → Prop
  | .evidence => FirstError (checkEvidence request.workspaceId) request.evidence.entries e
  | .bundles => FirstError (checkBundle request.workspaceId request.evidence) request.bundles e
  | .items => FirstError (signed nfc sha256 request.aggregationVersion)
      (gather request.evidence request.bundles).referenced e
  | .contributions => ∃ representative,
      dedupRepresentatives nfc sha256 (gather request.evidence request.bundles).referenced
        request.aggregationVersion = .ok representative ∧
      FirstError (contribute nfc strftime sha256 request representative
        (isNovel request.base request.proposedOperation)) (gather request.evidence request.bundles).active e

/-- One error; or, of one loop, the errors of the first items at fault in the two orders, each about that
item. -/
def SameFault (nfc : Str → Str) (strftime : Instant → String) (sha256 : List UInt8 → String)
    (request request' : Request) (e e' : CandidateError) : Prop :=
  e = e' ∨ (e.aboutItem ∧ e'.aboutItem) ∧ ∃ loop, FirstFault nfc strftime sha256 request e loop ∧
    FirstFault nfc strftime sha256 request' e' loop

/-- The same request, with its collection in another order. -/
structure Request.Shuffled (request request' : Request) : Prop where
  same : request' = { request with bundles := request'.bundles, evidence := request'.evidence }
  bundles : request.bundles.Perm request'.bundles
  evidence : request.evidence.entries.Perm request'.evidence.entries

/-! ## What can be raised about an item -/

abbrev AboutItem (e : CandidateError) : Prop := e.aboutItem = true

section Raised

variable {nfc : Str → Str} {strftime : Instant → String} {sha256 : List UInt8 → String}
  {workspaceId ruleVersion : Str} {evidence : Dict Str EvidenceItem}

theorem checkEvidence_raises (entry : Str × EvidenceItem) :
    OnlyRaises AboutItem (checkEvidence workspaceId entry) := by
  refine OnlyRaises.bind ?_ fun _ _ => ?_
  · exact onlyRaises_require fun _ => rfl
  · exact onlyRaises_require fun _ => rfl

theorem checkBundle_raises (bundle : ObservationBundle) :
    OnlyRaises AboutItem (checkBundle workspaceId evidence bundle) := by
  refine OnlyRaises.bind ?_ fun _ _ => ?_
  · exact onlyRaises_require fun _ => rfl
  · split
    · exact onlyRaises_forM fun link _ => onlyRaises_require fun _ => rfl
    · exact onlyRaises_pure

theorem contentDigest_raises (value : Held) : OnlyRaises AboutItem (contentDigest nfc sha256 value) := by
  refine OnlyRaises.bind ?_ fun _ _ => onlyRaises_pure
  exact OnlyRaises.mapError fun e _ => rfl

theorem signed_raises (hversion : ruleVersion.all isSpace = false) (item : EvidenceItem) :
    OnlyRaises AboutItem (signed nfc sha256 ruleVersion item) := by
  refine OnlyRaises.bind ?_ fun _ _ => onlyRaises_pure
  refine OnlyRaises.bind ?_ fun _ _ => contentDigest_raises _
  exact onlyRaises_require fun hblank => absurd hversion hblank

theorem index_raises {α : Type} (d : Dict Str α) (key : Str) : OnlyRaises AboutItem (index d key) := by
  unfold index
  split
  · exact onlyRaises_ok
  · exact onlyRaises_throw rfl

theorem contentDigest_required {value : Held} {digest : String}
    (h : contentDigest nfc sha256 value = .ok digest) : (text digest).all isSpace = false := by
  obtain ⟨bytes, -, h⟩ := bind_eq_ok.1 h
  rw [← pure_eq_ok.1 h, text, String.toList_append]
  rfl

theorem weightOf_le (evidenceCount sourceCount : ℕ) : weightOf evidenceCount sourceCount ≤ 10000 :=
  min_le_left _ _

/-- A contribution to a candidate that has an identifier and a workspace can be constructed. -/
theorem contribute_raises {request : Request} (hcandidate : request.candidateId.all isSpace = false)
    (hworkspace : request.workspaceId.all isSpace = false) (representative : Dict Str Str) (novel : Bool)
    (bundle : ObservationBundle) :
    OnlyRaises AboutItem (contribute nfc strftime sha256 request representative novel bundle) := by
  refine (onlyRaises_mapM fun link _ => index_raises _ _).bind fun representatives _ => ?_
  refine (onlyRaises_mapM fun evidenceId _ => (index_raises _ _).bind fun _ _ => onlyRaises_pure).bind
    fun sources _ => ?_
  refine (contentDigest_raises _).bind fun digest hdigest => ?_
  refine OnlyRaises.bind (onlyRaises_of_ok (a := ()) ?_) fun _ _ => onlyRaises_pure
  simp only [CandidateContribution.postInit, requireId, bind_eq_ok, require_eq_ok, exists_unit]
  exact ⟨hworkspace, hcandidate, bundle.observation.required, weightOf_le _ _,
    contentDigest_required hdigest⟩

end Raised

/-! ## From the parts on -/

section Assemble

/-- What tells two contributions apart when they are checked. -/
def CandidateContribution.identity (contribution : CandidateContribution) : (Str × Str) × Str :=
  ((contribution.workspaceId, contribution.candidateId), contribution.observationId)

theorem requireConsistent_congr {l l' : List CandidateContribution}
    (h : l.map CandidateContribution.identity = l'.map CandidateContribution.identity)
    (candidate : Option (Str × Str)) (seen : List Str) :
    requireConsistentContributions candidate seen l = requireConsistentContributions candidate seen l' := by
  induction l generalizing l' candidate seen with
  | nil =>
    rw [List.map_nil, eq_comm, List.map_eq_nil_iff] at h
    rw [h]
  | cons c l ih =>
    cases l' with
    | nil => cases h
    | cons c' l' =>
      rw [List.map_cons, List.map_cons, List.cons.injEq] at h
      obtain ⟨hc, hl⟩ := h
      simp only [CandidateContribution.identity, Prod.mk.injEq] at hc
      obtain ⟨⟨hworkspace, hcandidate⟩, hobservation⟩ := hc
      unfold requireConsistentContributions
      rw [hworkspace, hcandidate, hobservation]
      simp only [ih hl]

/-- Contributions that are consistent are of different observations. -/
theorem nodup_of_requireConsistent {l : List CandidateContribution} {candidate : Option (Str × Str)}
    {seen : List Str} (h : requireConsistentContributions candidate seen l = .ok ()) :
    (l.map CandidateContribution.observationId).Nodup ∧
      ∀ c ∈ l, c.observationId ∉ seen := by
  induction l generalizing candidate seen with
  | nil => exact ⟨List.nodup_nil, fun _ hc => absurd hc List.not_mem_nil⟩
  | cons c l ih =>
    unfold requireConsistentContributions at h
    obtain ⟨_, -, h⟩ := bind_eq_ok.1 h
    obtain ⟨_, hnew, h⟩ := bind_eq_ok.1 h
    obtain ⟨hnodup, hseen⟩ := ih h
    constructor
    · rw [List.map_cons, List.nodup_cons]
      refine ⟨fun hmem => ?_, hnodup⟩
      obtain ⟨c', hc', heq⟩ := List.mem_map.1 hmem
      exact hseen c' hc' (heq ▸ List.mem_cons_self)
    · intro c' hc'
      rcases List.mem_cons.1 hc' with rfl | hc'
      · exact require_eq_ok.1 hnew
      · exact fun hmem => hseen c' hc' (List.mem_cons_of_mem _ hmem)

variable {nfc : Str → Str} {sha256 : List UInt8 → String} {request : Request} {kind : Str}
  {parts parts' : List Part}

/-- Every part contributes to the request's candidate. -/
def OfRequest (request : Request) (part : Part) : Prop :=
  part.contribution.workspaceId = request.workspaceId ∧
    part.contribution.candidateId = request.candidateId

theorem requireConsistent_perm (hperm : parts.Perm parts') (hparts : ∀ part ∈ parts, OfRequest request part) :
    requireConsistentContributions none [] (sortContributions (parts.map Part.contribution)) =
      requireConsistentContributions none [] (sortContributions (parts'.map Part.contribution)) := by
  have hidentity : ∀ l : List Part, (∀ part ∈ l, OfRequest request part) →
      (sortContributions (l.map Part.contribution)).map CandidateContribution.identity =
        (sortBy codePoints ((l.map Part.contribution).map CandidateContribution.observationId)).map
          fun id => ((request.workspaceId, request.candidateId), id) := by
    intro l hl
    rw [← map_sortBy, List.map_map]
    apply List.map_congr_left
    intro c hc
    obtain ⟨part, hpart, rfl⟩ := List.mem_map.1 (mem_sortBy.1 hc)
    obtain ⟨hworkspace, hcandidate⟩ := hl part hpart
    rw [CandidateContribution.identity, hworkspace, hcandidate]
    rfl
  apply requireConsistent_congr
  rw [hidentity parts hparts, hidentity parts' fun part hpart => hparts part (hperm.mem_iff.2 hpart),
    (sortBy_eq_iff_perm fun _ _ _ _ heq => codePoints_injective heq).2 ((hperm.map _).map _)]

theorem sortContributions_perm (hperm : parts.Perm parts')
    (h : requireConsistentContributions none [] (sortContributions (parts.map Part.contribution)) =
      .ok ()) :
    sortContributions (parts.map Part.contribution) = sortContributions (parts'.map Part.contribution) := by
  have hnodup := (nodup_of_requireConsistent h).1
  apply (sortBy_eq_iff_perm ?_).2 (hperm.map _)
  intro c hc c' hc' heq
  exact List.inj_on_of_nodup_map hnodup (mem_sortBy.2 hc) (mem_sortBy.2 hc') (codePoints_injective heq)

/-- Contributions in another order are the same once sorted, or refused for the same observation. -/
theorem aggregate_perm (hperm : parts.Perm parts') (hparts : ∀ part ∈ parts, OfRequest request part)
    (version : Str) :
    sortContributions (parts.map Part.contribution) = sortContributions (parts'.map Part.contribution) ∨
      ∃ e, aggregateCandidateFeatures (sortContributions (parts.map Part.contribution)) version = .error e ∧
        aggregateCandidateFeatures (sortContributions (parts'.map Part.contribution)) version =
          .error e := by
  cases hcheck : requireConsistentContributions none []
      (sortContributions (parts.map Part.contribution)) with
  | ok u => exact .inl (sortContributions_perm hperm hcheck)
  | error e =>
    have hcheck' := requireConsistent_perm hperm hparts
    rw [hcheck] at hcheck'
    right
    unfold aggregateCandidateFeatures
    rw [hcheck, ← hcheck']
    cases requireId "aggregation_version" version with
    | ok u => exact ⟨e, rfl, rfl⟩
    | error e' => exact ⟨e', rfl, rfl⟩

theorem index_congr {α : Type} {d d' : Dict Str α} (h : ∀ key, d.get key = d'.get key) :
    index d = index d' := by
  funext key
  unfold index
  rw [h]

theorem assemble_perm {request' : Request} (hsame : request' = { request with
      bundles := request'.bundles, evidence := request'.evidence })
    (hget : ∀ key, request.evidence.get key = request'.evidence.get key) (hperm : parts.Perm parts')
    (hparts : ∀ part ∈ parts, OfRequest request part) :
    assemble nfc sha256 request kind parts = assemble nfc sha256 request' kind parts' := by
  have hevidence : ((parts.flatMap Part.evidenceIds).dedup).Perm (parts'.flatMap Part.evidenceIds).dedup :=
    (hperm.flatMap_right _).dedup
  have hsources : ((parts.flatMap Part.sourceIds).dedup).Perm (parts'.flatMap Part.sourceIds).dedup :=
    (hperm.flatMap_right _).dedup
  have hsorted := (sortBy_eq_iff_perm fun _ _ _ _ heq => codePoints_injective heq).2 hevidence
  rw [hsame]
  unfold assemble
  dsimp only
  rw [hevidence.length_eq, hsources.length_eq, hsorted, index_congr hget]
  rcases aggregate_perm hperm hparts request.aggregationVersion with hequal | ⟨e, herror, herror'⟩
  · rw [hequal]
  · rw [herror, herror']
    rfl

end Assemble

/-! ## The whole run -/

section Run

variable {nfc casefold : Str → Str} {strftime : Instant → String} {sha256 : List UInt8 → String}

theorem get_perm {α : Type} {d d' : Dict Str α} (h : d.entries.Perm d'.entries) (key : Str) :
    d.get key = d'.get key := by
  refine Option.ext fun a => ?_
  rw [Dict.get_eq_some, Dict.get_eq_some]
  exact h.mem_iff

theorem linkedIds_perm {bundles bundles' : List ObservationBundle} (h : bundles.Perm bundles') :
    (linkedIds bundles).Perm (linkedIds bundles') :=
  (h.filter _).flatMap_right _

theorem Kept.referenced_perm {evidence evidence' : Dict Str EvidenceItem} {ids ids' : List Str}
    {scan scan' : Scan} (h : Kept evidence ids scan) (h' : Kept evidence' ids' scan')
    (hids : ∀ id, id ∈ ids ↔ id ∈ ids') (hget : ∀ key, evidence.get key = evidence'.get key) :
    scan.referenced.Perm scan'.referenced := by
  have hseen : scan.seenEvidence.Perm scan'.seenEvidence :=
    (List.perm_ext_iff_of_nodup h.nodup h'.nodup).2 fun id => by rw [h.mem_seen, h'.mem_seen, hids]
  rw [h.referenced, h'.referenced, show evidence.get = evidence'.get from funext hget]
  exact hseen.filterMap _

/-- Items that are kept under their identifiers have identifiers of their own. -/
theorem referenced_nodup {evidence : Dict Str EvidenceItem} {ids : List Str} {scan : Scan}
    (h : Kept evidence ids scan) (hkeys : ∀ entry ∈ evidence.entries, entry.2.evidenceId = entry.1) :
    (scan.referenced.map EvidenceItem.evidenceId).Nodup := by
  have hid : ∀ id item, evidence.get id = some item → item.evidenceId = id := fun id item hget =>
    hkeys (id, item) (Dict.get_eq_some.1 hget)
  rw [h.referenced, List.map_filterMap]
  refine h.nodup.filterMap fun id id' found hfound hfound' => ?_
  obtain ⟨item, hget, rfl⟩ := Option.map_eq_some_iff.1 hfound
  obtain ⟨item', hget', heq⟩ := Option.map_eq_some_iff.1 hfound'
  rw [← hid id item hget, ← hid id' item' hget', heq]

theorem scanBundles_matches {workspaceId : Str} {evidence evidence' : Dict Str EvidenceItem}
    {bundles bundles' : List ObservationBundle} {E : CandidateError → CandidateError → Prop}
    (hget : ∀ key, evidence.get key = evidence'.get key) (hperm : bundles.Perm bundles')
    (hE : ∀ e e', FirstError (checkBundle workspaceId evidence) bundles e →
      FirstError (checkBundle workspaceId evidence') bundles' e' → E e e') :
    Matches E (fun scan scan' => scan = gather evidence bundles ∧ scan' = gather evidence' bundles')
      (scanBundles workspaceId evidence bundles) (scanBundles workspaceId evidence' bundles') := by
  have hcheck : checkBundle workspaceId evidence' = checkBundle workspaceId evidence := by
    funext bundle
    unfold checkBundle checkLink
    simp only [hget]
  rw [hcheck] at hE
  rw [scanBundles_eq, scanBundles_eq, hcheck]
  have hloop := matches_forM hperm hE
  exact hloop.bind fun _ _ _ _ _ => .ok ⟨rfl, rfl⟩

theorem dedupRepresentatives_matches {ruleVersion : Str} {items items' : List EvidenceItem}
    {E : CandidateError → CandidateError → Prop} (hperm : items.Perm items')
    (hnodup : (items.map EvidenceItem.evidenceId).Nodup)
    (hE : ∀ e e', FirstError (signed nfc sha256 ruleVersion) items e →
      FirstError (signed nfc sha256 ruleVersion) items' e' → E e e') :
    Matches E (fun d d' => ∀ key, d.get key = d'.get key)
      (dedupRepresentatives nfc sha256 items ruleVersion)
      (dedupRepresentatives nfc sha256 items' ruleVersion) := by
  have hsigned := matches_mapM hperm hE
  refine hsigned.bind fun signedItems signedItems' hok hok' hsignedPerm => .ok fun key => ?_
  refine Option.ext fun least => ?_
  have hids := signed_ids hok
  have hids' := signed_ids hok'
  have hnodup' : (items'.map EvidenceItem.evidenceId).Nodup := (hperm.map _).nodup hnodup
  refine (representatives_get (hids ▸ hnodup)).trans ((?_ : _ ↔ _).trans
    (representatives_get (hids' ▸ hnodup')).symm)
  unfold IsRepresentative IsLeast
  simp only [hsignedPerm.mem_iff]

/-- The body of the last loop looks into its dictionaries, not at their order. -/
theorem contribute_congr {request request' : Request} {representative representative' : Dict Str Str}
    {novel : Bool} (hsame : request' = { request with
      bundles := request'.bundles, evidence := request'.evidence })
    (hget : ∀ key, request.evidence.get key = request'.evidence.get key)
    (hrepresentative : ∀ key, representative.get key = representative'.get key) :
    contribute nfc strftime sha256 request representative novel =
      contribute nfc strftime sha256 request' representative' novel := by
  funext bundle
  rw [hsame]
  unfold contribute
  dsimp only
  rw [index_congr hget, index_congr hrepresentative]

theorem ofRequest_of_contribute {request : Request} {representative : Dict Str Str} {novel : Bool}
    {bundle : ObservationBundle} {part : Part}
    (h : contribute nfc strftime sha256 request representative novel bundle = .ok part) :
    OfRequest request part := by
  obtain ⟨_, -, h⟩ := bind_eq_ok.1 h
  obtain ⟨_, -, h⟩ := bind_eq_ok.1 h
  obtain ⟨_, -, h⟩ := bind_eq_ok.1 h
  obtain ⟨_, -, h⟩ := bind_eq_ok.1 h
  rw [← pure_eq_ok.1 h]
  exact ⟨rfl, rfl⟩

theorem checkHeader_eq_ok {request : Request} {kind : Str}
    (h : checkHeader nfc casefold request = .ok kind) :
    request.aggregationVersion = AGGREGATION_RULE_VERSION ∧
      request.candidateId.all isSpace = false ∧ request.workspaceId.all isSpace = false := by
  simp only [checkHeader, requireSupportedVersions, requireId, bind_eq_ok, require_eq_ok, exists_unit] at h
  obtain ⟨⟨-, -, hversion, -⟩, hcandidate, hworkspace, -⟩ := h
  exact ⟨hversion, hcandidate, hworkspace⟩

/-- A run over a shuffled collection ends with the same candidate, or fails too. -/
theorem buildCandidate_matches {request request' : Request} (h : request.Shuffled request') :
    Matches (SameFault nfc strftime sha256 request request') Eq
      (buildCandidate nfc casefold strftime sha256 request)
      (buildCandidate nfc casefold strftime sha256 request') := by
  have hrefl : ∀ e, SameFault nfc strftime sha256 request request' e e := fun e => .inl rfl
  have hget := get_perm h.evidence
  have hheader : checkHeader nfc casefold request' = checkHeader nfc casefold request := by
    rw [h.same]
    rfl
  have hworkspaceId : request'.workspaceId = request.workspaceId := by rw [h.same]
  have hversionId : request'.aggregationVersion = request.aggregationVersion := by rw [h.same]
  have hnovel : isNovel request'.base request'.proposedOperation =
      isNovel request.base request.proposedOperation := by rw [h.same]
  unfold buildCandidate
  rw [hheader, hworkspaceId, hversionId, hnovel]
  refine (Matches.refl hrefl _).bind fun kind kind' hkind _ hkindEq => ?_
  obtain rfl := hkindEq
  obtain ⟨hversion, hcandidate, hworkspace⟩ := checkHeader_eq_ok hkind
  -- The evidence: each item is checked for itself.
  have hraises : ∀ entry, OnlyRaises AboutItem (checkEvidence request.workspaceId entry) :=
    checkEvidence_raises
  refine (matches_forM h.evidence fun e e' he he' => .inr ⟨⟨he.raises fun entry _ => hraises entry,
    he'.raises fun entry _ => hraises entry⟩, .evidence, he, by rw [FirstFault, hworkspaceId]; exact he'⟩).bind
      fun _ _ hevidence hevidence' _ => ?_
  have hkeys : ∀ entry ∈ request.evidence.entries, entry.2.evidenceId = entry.1 := by
    intro entry hentry
    have hentry := forM_eq_ok.1 hevidence entry hentry
    obtain ⟨_, hkey, -⟩ := bind_eq_ok.1 hentry
    exact require_eq_ok.1 hkey
  refine (scanBundles_matches hget h.bundles fun e e' he he' => .inr ⟨⟨he.raises fun bundle _ =>
    checkBundle_raises bundle, he'.raises fun bundle _ => checkBundle_raises bundle⟩, .bundles, he,
      by rw [FirstFault, hworkspaceId]; exact he'⟩).bind fun scan scan' _ _ hscan => ?_
  obtain ⟨rfl, rfl⟩ := hscan
  have hkept := kept_gather request.evidence request.bundles
  have hkept' := kept_gather request'.evidence request'.bundles
  have hactive : (gather request.evidence request.bundles).active.Perm
      (gather request'.evidence request'.bundles).active := by
    rw [gather_active, gather_active]
    exact h.bundles.filter _
  rw [← hactive.length_eq]
  refine Matches.require (hrefl _) fun _ => ?_
  -- Deduplication: the representative of an item is the least of its class.
  have hsigned : ∀ item, OnlyRaises AboutItem (signed nfc sha256 request.aggregationVersion item) :=
    fun item => signed_raises (by rw [hversion]; decide) item
  refine (dedupRepresentatives_matches
    (hkept.referenced_perm hkept' (fun id => (linkedIds_perm h.bundles).mem_iff) hget)
    (referenced_nodup hkept hkeys) fun e e' he he' => .inr ⟨⟨he.raises fun item _ => hsigned item,
      he'.raises fun item _ => hsigned item⟩, .items, he, by rw [FirstFault, hversionId]; exact he'⟩).bind
        fun representative representative' hrepresented hrepresented' hrepresentative => ?_
  dsimp only
  have hcontribute : contribute nfc strftime sha256 request representative
      (isNovel request.base request.proposedOperation) =
        contribute nfc strftime sha256 request' representative'
          (isNovel request.base request.proposedOperation) :=
    contribute_congr h.same hget hrepresentative
  rw [← hcontribute]
  have hcontributes : ∀ bundle, OnlyRaises AboutItem (contribute nfc strftime sha256 request representative
      (isNovel request.base request.proposedOperation) bundle) :=
    fun bundle => contribute_raises hcandidate hworkspace _ _ bundle
  refine (matches_mapM hactive fun e e' he he' => .inr ⟨⟨he.raises fun bundle _ => hcontributes bundle,
    he'.raises fun bundle _ => hcontributes bundle⟩, .contributions, ⟨representative, hrepresented, he⟩,
      representative', by rw [hversionId]; exact hrepresented', by rw [hnovel, ← hcontribute]; exact he'⟩).bind
        fun parts parts' hparts _ hperm => ?_
  have hofRequest : ∀ part ∈ parts, OfRequest request part := by
    intro part hpart
    obtain ⟨bundle, -, hpart⟩ := exists_of_forall₂_right (mapM_eq_ok.1 hparts) hpart
    exact ofRequest_of_contribute hpart
  rw [assemble_perm h.same hget hperm hofRequest]
  exact Matches.refl hrefl _

end Run

end OmniviaCore.SemanticRegistry.Aggregation
