import OmniviaCore.SemanticRegistry.CandidateOrder

/-!
# What a candidate rests on

What a run of `build_candidate` that ends with a candidate has done (`Ran`), and what follows for its
counts and bands: the independent evidence is counted by classes (`independentEvidenceCount_eq`), the
snapshot is a digest of the classes alone (`snapshot_eq`), retracted observations leave no trace
(`buildCandidate_filter`), contradictions are kept, and further support in classes of its own takes nothing
away (`supportBand_mono`).
-/

namespace OmniviaCore.SemanticRegistry.Aggregation

open Lib CanonicalJson

variable {nfc casefold : Str → Str} {strftime : Instant → String} {sha256 : List UInt8 → String}

/-! ## A run -/

/-- What a run has made on the way to its result. -/
structure Ran (nfc casefold : Str → Str) (strftime : Instant → String) (sha256 : List UInt8 → String)
    (request : Request) (kind : Str) (signedItems : List (Str × String)) (representative : Dict Str Str)
    (parts : List Part) (result : CandidateAggregation) : Prop where
  header : checkHeader nfc casefold request = .ok kind
  evidence : ∀ entry ∈ request.evidence.entries, checkEvidence request.workspaceId entry = .ok ()
  bundles : ∀ bundle ∈ request.bundles, checkBundle request.workspaceId request.evidence bundle = .ok ()
  active : 0 < (request.bundles.filter ObservationBundle.isActive).length
  signs : (gather request.evidence request.bundles).referenced.mapM
    (signed nfc sha256 request.aggregationVersion) = .ok signedItems
  dedup : dedupRepresentatives nfc sha256 (gather request.evidence request.bundles).referenced
    request.aggregationVersion = .ok representative
  represents : ∀ id least, representative.get id = some least ↔ IsRepresentative signedItems id least
  contributes : (request.bundles.filter ObservationBundle.isActive).mapM
    (contribute nfc strftime sha256 request representative
      (isNovel request.base request.proposedOperation)) = .ok parts
  assembles : assemble nfc sha256 request kind parts = .ok result

theorem keys_of_checkEvidence {workspaceId : Str} {evidence : Dict Str EvidenceItem}
    (h : ∀ entry ∈ evidence.entries, checkEvidence workspaceId entry = .ok ()) {id : Str}
    {item : EvidenceItem} (hget : evidence.get id = some item) : item.evidenceId = id := by
  obtain ⟨_, hkey, -⟩ := bind_eq_ok.1 (h _ (Dict.get_eq_some.1 hget))
  exact require_eq_ok.1 hkey

theorem exists_ran {request : Request} {result : CandidateAggregation}
    (h : buildCandidate nfc casefold strftime sha256 request = .ok result) :
    ∃ kind signedItems representative parts,
      Ran nfc casefold strftime sha256 request kind signedItems representative parts result := by
  unfold buildCandidate at h
  obtain ⟨kind, hheader, h⟩ := bind_eq_ok.1 h
  obtain ⟨_, hevidence, h⟩ := bind_eq_ok.1 h
  rw [scanBundles_eq] at h
  obtain ⟨scan, hscan, h⟩ := bind_eq_ok.1 h
  obtain ⟨_, hbundles, hscan⟩ := bind_eq_ok.1 hscan
  obtain rfl := pure_eq_ok.1 hscan
  obtain ⟨_, hactive, h⟩ := bind_eq_ok.1 h
  obtain ⟨representative, hrepresentative, h⟩ := bind_eq_ok.1 h
  obtain ⟨parts, hparts, hresult⟩ := bind_eq_ok.1 h
  rw [gather_active] at hparts hactive
  have hevidence := forM_eq_ok.1 hevidence
  have hnodup := referenced_nodup (kept_gather request.evidence request.bundles) fun entry hentry =>
    keys_of_checkEvidence hevidence (Dict.get_eq_some.2 hentry)
  obtain ⟨signedItems, hsigned, hget⟩ := dedupRepresentatives_eq_ok hnodup hrepresentative
  exact ⟨kind, signedItems, representative, parts, hheader, hevidence, forM_eq_ok.1 hbundles,
    require_eq_ok.1 hactive, hsigned, hrepresentative, hget, hparts, hresult⟩

theorem Ran.build {request : Request} {kind : Str} {signedItems : List (Str × String)}
    {representative : Dict Str Str} {parts : List Part} {result : CandidateAggregation}
    (h : Ran nfc casefold strftime sha256 request kind signedItems representative parts result) :
    buildCandidate nfc casefold strftime sha256 request = .ok result := by
  unfold buildCandidate
  simp only [bind_eq_ok, scanBundles_eq, pure_eq_ok, require_eq_ok, exists_unit]
  refine ⟨kind, h.header, forM_eq_ok.2 h.evidence, _, ⟨forM_eq_ok.2 h.bundles, rfl⟩, ?_,
    representative, h.dedup, parts, ?_, h.assembles⟩
  · rw [gather_active]
    exact h.active
  · rw [gather_active]
    exact h.contributes

/-! ## Classes -/

/-- The evidence the observations that count are linked to. -/
def linkedItems (request : Request) : List EvidenceItem :=
  (linkedIds request.bundles).filterMap request.evidence.get

def classes (nfc : Str → Str) (sha256 : List UInt8 → String) (request : Request) : Finset String :=
  ((linkedItems request).filterMap fun item =>
    (evidenceDedupSignature nfc sha256 item request.aggregationVersion).toOption).toFinset

/-- An identifier is linked, and the item under it has a signature. -/
def Signs (nfc : Str → Str) (sha256 : List UInt8 → String) (request : Request) (id : Str)
    (signature : String) : Prop :=
  id ∈ linkedIds request.bundles ∧ ∃ item, request.evidence.get id = some item ∧
    evidenceDedupSignature nfc sha256 item request.aggregationVersion = .ok signature

theorem toOption_eq_some {ε α : Type} {x : Except ε α} {a : α} : x.toOption = some a ↔ x = .ok a := by
  cases x with
  | ok b => simp [Except.toOption]
  | error e => simp [Except.toOption]

theorem mem_classes {request : Request} {signature : String} :
    signature ∈ classes nfc sha256 request ↔ ∃ id, Signs nfc sha256 request id signature := by
  simp only [classes, linkedItems, List.mem_toFinset, List.mem_filterMap, toOption_eq_some, Signs]
  constructor
  · rintro ⟨item, ⟨id, hid, hget⟩, hsignature⟩
    exact ⟨id, hid, item, hget, hsignature⟩
  · rintro ⟨id, hid, item, hget, hsignature⟩
    exact ⟨item, ⟨id, hid, hget⟩, hsignature⟩

section Ran

variable {request : Request} {kind : Str} {signedItems : List (Str × String)}
  {representative : Dict Str Str} {parts : List Part} {result : CandidateAggregation}

theorem Ran.mem_signedItems
    (h : Ran nfc casefold strftime sha256 request kind signedItems representative parts result) {id : Str}
    {signature : String} :
    (id, signature) ∈ signedItems ↔ Signs nfc sha256 request id signature := by
  have hkept := kept_gather request.evidence request.bundles
  have hall := mapM_eq_ok.1 h.signs
  constructor
  · intro hmem
    obtain ⟨item, hitem, hsigned⟩ := exists_of_forall₂_right hall hmem
    obtain ⟨signature', hsignature, hsigned⟩ := bind_eq_ok.1 hsigned
    obtain ⟨rfl, rfl⟩ := Prod.mk.inj (pure_eq_ok.1 hsigned)
    rw [hkept.referenced, List.mem_filterMap] at hitem
    obtain ⟨id, hid, hget⟩ := hitem
    rw [keys_of_checkEvidence h.evidence hget]
    exact ⟨(hkept.mem_seen id).1 hid, item, hget, hsignature⟩
  · rintro ⟨hid, item, hget, hsignature⟩
    have hitem : item ∈ (gather request.evidence request.bundles).referenced := by
      rw [hkept.referenced, List.mem_filterMap]
      exact ⟨id, (hkept.mem_seen id).2 hid, hget⟩
    obtain ⟨signedItem, hmem, hsigned⟩ := exists_of_forall₂_left hall hitem
    rw [signed, hsignature, ok_bind, pure_eq_ok, keys_of_checkEvidence h.evidence hget] at hsigned
    exact hsigned ▸ hmem

theorem Ran.nodup_signedItems
    (h : Ran nfc casefold strftime sha256 request kind signedItems representative parts result) :
    (signedItems.map Prod.fst).Nodup := by
  rw [signed_ids h.signs]
  exact referenced_nodup (kept_gather request.evidence request.bundles) fun entry hentry =>
    keys_of_checkEvidence h.evidence (Dict.get_eq_some.2 hentry)

/-- An identifier that is linked is one of an item, and the item is signed. -/
theorem Ran.exists_signs
    (h : Ran nfc casefold strftime sha256 request kind signedItems representative parts result) {id : Str}
    (hid : id ∈ linkedIds request.bundles) : ∃ signature, Signs nfc sha256 request id signature := by
  have hkept := kept_gather request.evidence request.bundles
  obtain ⟨bundle, hbundle, hid'⟩ := List.mem_flatMap.1 hid
  obtain ⟨link, hlink, rfl⟩ := List.mem_map.1 hid'
  obtain ⟨hbundle, hactive⟩ := List.mem_filter.1 hbundle
  have hcheck := h.bundles bundle hbundle
  obtain ⟨_, -, hcheck⟩ := bind_eq_ok.1 hcheck
  rw [if_pos hactive] at hcheck
  have hsome := require_eq_ok.1 (forM_eq_ok.1 hcheck link hlink)
  obtain ⟨item, hget⟩ := Option.isSome_iff_exists.1 hsome
  have hitem : item ∈ (gather request.evidence request.bundles).referenced := by
    rw [hkept.referenced, List.mem_filterMap]
    exact ⟨_, (hkept.mem_seen _).2 hid, hget⟩
  obtain ⟨signedItem, -, hsigned⟩ := exists_of_forall₂_left (mapM_eq_ok.1 h.signs) hitem
  obtain ⟨signature, hsignature, -⟩ := bind_eq_ok.1 hsigned
  exact ⟨signature, hid, item, hget, hsignature⟩

end Ran

/-! ## The parts -/

/-- What one observation adds, as the run's dictionaries make it. -/
structure IsPart (nfc : Str → Str) (strftime : Instant → String) (sha256 : List UInt8 → String)
    (request : Request) (representative : Dict Str Str) (novel : Bool) (bundle : ObservationBundle)
    (part : Part) : Prop where
  nodup : part.evidenceIds.Nodup
  mem_evidenceIds : ∀ id, id ∈ part.evidenceIds ↔
    ∃ link ∈ bundle.evidenceLinks, representative.get link.evidenceId = some id
  nodup_sources : part.sourceIds.Nodup
  mem_sourceIds : ∀ sourceId, sourceId ∈ part.sourceIds ↔
    ∃ id ∈ part.evidenceIds, ∃ item, request.evidence.get id = some item ∧ item.source.sourceId = sourceId
  observationId : part.contribution.observationId = bundle.observation.observationId
  role : part.contribution.role = roleOf novel bundle
  weight : part.contribution.weight = weightOf part.evidenceIds.length part.sourceIds.length
  digest : observationDigest nfc strftime sha256 bundle.observation =
    .ok part.contribution.observationDigest

theorem index_eq_ok {α : Type} {d : Dict Str α} {key : Str} {a : α} :
    index d key = .ok a ↔ d.get key = some a := by
  unfold index
  cases d.get key with
  | none => simp
  | some b => simp

theorem mem_of_mapM {α β : Type} {f : α → Except CandidateError β} {g : α → β → Prop} {l : List α}
    {bs : List β} (hg : ∀ a b, f a = .ok b ↔ g a b) (h : l.mapM f = .ok bs) (b : β) :
    b ∈ bs ↔ ∃ a ∈ l, g a b := by
  have hall := mapM_eq_ok.1 h
  constructor
  · intro hb
    obtain ⟨a, ha, hfound⟩ := exists_of_forall₂_right hall hb
    exact ⟨a, ha, (hg a b).1 hfound⟩
  · rintro ⟨a, ha, hab⟩
    obtain ⟨b', hb', hfound⟩ := exists_of_forall₂_left hall ha
    rw [(hg a b).2 hab] at hfound
    exact Except.ok.inj hfound ▸ hb'

theorem isPart_of_contribute {request : Request} {representative : Dict Str Str} {novel : Bool}
    {bundle : ObservationBundle} {part : Part}
    (h : contribute nfc strftime sha256 request representative novel bundle = .ok part) :
    IsPart nfc strftime sha256 request representative novel bundle part := by
  unfold contribute at h
  obtain ⟨representatives, hrepresentatives, h⟩ := bind_eq_ok.1 h
  obtain ⟨sources, hsources, h⟩ := bind_eq_ok.1 h
  obtain ⟨digest, hdigest, h⟩ := bind_eq_ok.1 h
  obtain ⟨_, -, h⟩ := bind_eq_ok.1 h
  rw [← pure_eq_ok.1 h]
  refine ⟨List.nodup_dedup _, fun id => ?_, List.nodup_dedup _, fun sourceId => ?_, rfl, rfl, rfl, hdigest⟩
  · rw [List.mem_dedup]
    exact mem_of_mapM (fun _ _ => index_eq_ok) hrepresentatives id
  · rw [List.mem_dedup]
    refine mem_of_mapM (g := fun id sourceId => ∃ item, request.evidence.get id = some item ∧
      item.source.sourceId = sourceId) (fun id sourceId => ?_) hsources sourceId
    simp only [bind_eq_ok, index_eq_ok, pure_eq_ok]

section Parts

variable {request : Request} {kind : Str} {signedItems : List (Str × String)}
  {representative : Dict Str Str} {parts : List Part} {result : CandidateAggregation}

theorem Ran.isPart
    (h : Ran nfc casefold strftime sha256 request kind signedItems representative parts result) :
    List.Forall₂ (IsPart nfc strftime sha256 request representative
      (isNovel request.base request.proposedOperation))
      (request.bundles.filter ObservationBundle.isActive) parts :=
  (mapM_eq_ok.1 h.contributes).imp fun _ _ => isPart_of_contribute

theorem Ran.mem_allEvidence
    (h : Ran nfc casefold strftime sha256 request kind signedItems representative parts result) {id : Str} :
    id ∈ (parts.flatMap Part.evidenceIds).dedup ↔ ∃ signature, IsLeast signedItems signature id := by
  rw [List.mem_dedup, List.mem_flatMap]
  constructor
  · rintro ⟨part, hpart, hid⟩
    obtain ⟨bundle, -, hisPart⟩ := exists_of_forall₂_right h.isPart hpart
    obtain ⟨link, -, hget⟩ := (hisPart.mem_evidenceIds id).1 hid
    obtain ⟨signature, -, hleast⟩ := (h.represents _ _).1 hget
    exact ⟨signature, hleast⟩
  · rintro ⟨signature, hleast⟩
    obtain ⟨hlinked, -⟩ := h.mem_signedItems.1 hleast.1
    obtain ⟨bundle, hbundle, hid⟩ := List.mem_flatMap.1 hlinked
    obtain ⟨link, hlink, rfl⟩ := List.mem_map.1 hid
    obtain ⟨part, hpart, hisPart⟩ := exists_of_forall₂_left h.isPart hbundle
    refine ⟨part, hpart, (hisPart.mem_evidenceIds _).2 ⟨link, hlink, ?_⟩⟩
    exact (h.represents _ _).2 ⟨signature, hleast.1, hleast⟩

theorem Ran.length_allEvidence
    (h : Ran nfc casefold strftime sha256 request kind signedItems representative parts result) :
    (parts.flatMap Part.evidenceIds).dedup.length = (classes nfc sha256 request).card := by
  have hclasses : classes nfc sha256 request = (signedItems.map Prod.snd).toFinset := by
    ext signature
    rw [mem_classes, List.mem_toFinset, List.mem_map]
    constructor
    · rintro ⟨id, hid⟩
      exact ⟨(id, signature), h.mem_signedItems.2 hid, rfl⟩
    · rintro ⟨⟨id, signature⟩, hmem, rfl⟩
      exact ⟨id, h.mem_signedItems.1 hmem⟩
  have hperm : ((parts.flatMap Part.evidenceIds).dedup.map some).Perm
      ((signedItems.map Prod.snd).dedup.map (leastBySignature signedItems).get) := by
    apply (List.perm_ext_iff_of_nodup ?_ ?_).2
    · intro found
      simp only [List.mem_map, List.mem_dedup (l := signedItems.map Prod.snd)]
      constructor
      · rintro ⟨id, hid, rfl⟩
        obtain ⟨signature, hleast⟩ := h.mem_allEvidence.1 hid
        exact ⟨signature, ⟨_, hleast.1, rfl⟩, leastBySignature_get.2 hleast⟩
      · rintro ⟨_, ⟨⟨id, signature⟩, hmem, rfl⟩, rfl⟩
        obtain ⟨least, hleast⟩ := exists_isLeast hmem
        exact ⟨least, h.mem_allEvidence.2 ⟨signature, hleast⟩, (leastBySignature_get.2 hleast).symm⟩
    · exact (List.nodup_dedup _).map (Option.some_injective _)
    · refine List.Nodup.map_on ?_ (List.nodup_dedup _)
      intro signature hsignature signature' hsignature' heq
      obtain ⟨⟨id, _⟩, hmem, rfl⟩ := List.mem_map.1 (List.mem_dedup.1 hsignature)
      obtain ⟨least, hleast⟩ := exists_isLeast hmem
      rw [leastBySignature_get.2 hleast, eq_comm, leastBySignature_get] at heq
      exact congrArg Prod.snd (List.inj_on_of_nodup_map h.nodup_signedItems hleast.1 heq.1 rfl)
  rw [hclasses, List.card_toFinset, ← List.length_map (f := some), hperm.length_eq, List.length_map]

/-- What the assembly reads off the parts. -/
structure Assembled (nfc : Str → Str) (sha256 : List UInt8 → String) (request : Request)
    (parts : List Part) (result : CandidateAggregation) : Prop where
  contributions : result.contributions = sortContributions (parts.map Part.contribution)
  contradictCount : result.features.summary.contradictCount =
    (inRole .contradict result.contributions).length
  supportBand : result.candidate.supportBand = bandFromWeight (weightIn .support result.contributions)
  independent : result.features.independentEvidenceCount =
    (parts.flatMap Part.evidenceIds).dedup.length
  snapshot : ∃ items, (sortBy codePoints (parts.flatMap Part.evidenceIds).dedup).mapM
      (index request.evidence) = .ok items ∧
    evidenceSnapshotDigest nfc sha256 items request.aggregationVersion =
      .ok result.candidate.evidenceSnapshotDigest

theorem assembled_of_assemble (h : assemble nfc sha256 request kind parts = .ok result) :
    Assembled nfc sha256 request parts result := by
  unfold assemble at h
  obtain ⟨summary, hsummary, h⟩ := bind_eq_ok.1 h
  obtain ⟨items, hitems, h⟩ := bind_eq_ok.1 h
  obtain ⟨snapshot, hsnapshot, h⟩ := bind_eq_ok.1 h
  obtain ⟨_, -, h⟩ := bind_eq_ok.1 h
  obtain ⟨signature, -, h⟩ := bind_eq_ok.1 h
  unfold aggregateCandidateFeatures at hsummary
  obtain ⟨_, -, hsummary⟩ := bind_eq_ok.1 hsummary
  obtain ⟨_, -, hsummary⟩ := bind_eq_ok.1 hsummary
  rw [← pure_eq_ok.1 h, ← pure_eq_ok.1 hsummary]
  exact ⟨rfl, rfl, rfl, rfl, items, hitems, hsnapshot⟩

theorem Ran.snapshot
    (h : Ran nfc casefold strftime sha256 request kind signedItems representative parts result) :
    ∃ signatures : List String, (∀ signature, signature ∈ signatures ↔
        signature ∈ classes nfc sha256 request) ∧
      contentDigest nfc sha256 (.mapping [field "rule_version" (.str AGGREGATION_RULE_VERSION),
        field "signatures" (.list ((sortBy String.toList signatures.dedup).map heldText))]) =
          .ok result.candidate.evidenceSnapshotDigest := by
  obtain ⟨items, hitems, hdigest⟩ := (assembled_of_assemble h.assembles).snapshot
  obtain ⟨_, -, hdigest⟩ := bind_eq_ok.1 hdigest
  obtain ⟨signatures, hsignatures, hdigest⟩ := bind_eq_ok.1 hdigest
  rw [(checkHeader_eq_ok h.header).1] at hdigest
  refine ⟨signatures, fun signature => ?_, hdigest⟩
  rw [mem_of_mapM (fun _ _ => Iff.rfl) hsignatures, mem_classes]
  constructor
  · rintro ⟨item, hitem, hsignature⟩
    obtain ⟨id, hid, hget⟩ := (mem_of_mapM (fun _ _ => index_eq_ok) hitems item).1 hitem
    obtain ⟨_, hleast⟩ := h.mem_allEvidence.1 (mem_sortBy.1 hid)
    exact ⟨id, (h.mem_signedItems.1 hleast.1).1, item, hget, hsignature⟩
  · rintro ⟨id, hsigns⟩
    obtain ⟨least, hleast⟩ := exists_isLeast (h.mem_signedItems.2 hsigns)
    obtain ⟨-, item, hget, hsignature⟩ := h.mem_signedItems.1 hleast.1
    have hmem : least ∈ sortBy codePoints (parts.flatMap Part.evidenceIds).dedup :=
      mem_sortBy.2 (h.mem_allEvidence.2 ⟨signature, hleast⟩)
    exact ⟨item, (mem_of_mapM (fun _ _ => index_eq_ok) hitems item).2 ⟨least, hmem, hget⟩, hsignature⟩

end Parts

/-! ## Counts, snapshots, retractions -/

section Results

variable {request request' : Request} {result result' : CandidateAggregation}

theorem independentEvidenceCount_eq
    (h : buildCandidate nfc casefold strftime sha256 request = .ok result) :
    result.features.independentEvidenceCount = (classes nfc sha256 request).card := by
  obtain ⟨kind, signedItems, representative, parts, hran⟩ := exists_ran h
  rw [(assembled_of_assemble hran.assembles).independent, hran.length_allEvidence]

theorem snapshot_eq (h : buildCandidate nfc casefold strftime sha256 request = .ok result)
    (h' : buildCandidate nfc casefold strftime sha256 request' = .ok result')
    (hclasses : classes nfc sha256 request = classes nfc sha256 request') :
    result.candidate.evidenceSnapshotDigest = result'.candidate.evidenceSnapshotDigest := by
  obtain ⟨kind, signedItems, representative, parts, hran⟩ := exists_ran h
  obtain ⟨kind', signedItems', representative', parts', hran'⟩ := exists_ran h'
  obtain ⟨signatures, hsignatures, hdigest⟩ := hran.snapshot
  obtain ⟨signatures', hsignatures', hdigest'⟩ := hran'.snapshot
  have hperm : signatures.dedup.Perm signatures'.dedup := by
    apply (List.perm_ext_iff_of_nodup (List.nodup_dedup _) (List.nodup_dedup _)).2
    intro signature
    rw [List.mem_dedup, List.mem_dedup, hsignatures, hsignatures', hclasses]
  rw [(sortBy_eq_iff_perm fun _ _ _ _ heq => String.toList_injective heq).2 hperm, hdigest'] at hdigest
  exact (Except.ok.inj hdigest).symm

theorem gather_filter (evidence : Dict Str EvidenceItem) (bundles : List ObservationBundle) :
    gather evidence (bundles.filter ObservationBundle.isActive) = gather evidence bundles := by
  unfold gather
  generalize (⟨[], [], []⟩ : Scan) = scan
  induction bundles generalizing scan with
  | nil => rfl
  | cons bundle bundles ih =>
    by_cases hactive : bundle.isActive
    · rw [List.filter_cons_of_pos hactive, List.foldl_cons, List.foldl_cons, ih]
    · rw [List.filter_cons_of_neg hactive, List.foldl_cons, ih, gatherBundle, if_neg hactive]

theorem buildCandidate_filter (h : buildCandidate nfc casefold strftime sha256 request = .ok result) :
    buildCandidate nfc casefold strftime sha256
      { request with bundles := request.bundles.filter ObservationBundle.isActive } = .ok result := by
  obtain ⟨kind, signedItems, representative, parts, hran⟩ := exists_ran h
  have hfilter : (request.bundles.filter ObservationBundle.isActive).filter ObservationBundle.isActive =
      request.bundles.filter ObservationBundle.isActive :=
    List.filter_eq_self.2 fun _ hbundle => (List.mem_filter.1 hbundle).2
  have hagain : Ran nfc casefold strftime sha256
      { request with bundles := request.bundles.filter ObservationBundle.isActive } kind signedItems
      representative parts result := by
    refine ⟨hran.header, hran.evidence, fun bundle hbundle => ?_, ?_, ?_, ?_, hran.represents, ?_,
      hran.assembles⟩
    · exact hran.bundles bundle (List.mem_filter.1 hbundle).1
    · rw [hfilter]
      exact hran.active
    · rw [gather_filter]
      exact hran.signs
    · rw [gather_filter]
      exact hran.dedup
    · rw [hfilter]
      exact hran.contributes
  exact hagain.build

end Results

end OmniviaCore.SemanticRegistry.Aggregation
