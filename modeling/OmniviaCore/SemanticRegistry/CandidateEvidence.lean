import OmniviaCore.SemanticRegistry.Aggregation
import OmniviaCore.Lib.Shuffled

/-!
# The evidence behind a candidate

The loop of `build_candidate` over the observations checks each and gathers what counts
(`scanBundles_eq`): the items that are linked to observations that were not retracted, each once
(`Kept`). `_dedup_representatives` then has the least identifier of a class of items stand for each of its
members (`representatives_get`).
-/

namespace OmniviaCore.SemanticRegistry.Aggregation

open Lib CanonicalJson

/-! ## What is gathered -/

section Gather

variable (workspaceId : Str) (evidence : Dict Str EvidenceItem)

def checkLink (link : EvidenceLink) : Except CandidateError Unit :=
  require (evidence.get link.evidenceId).isSome (.unknownEvidence link.evidenceId)

def gatherLink (scan : Scan) (link : EvidenceLink) : Scan :=
  if link.evidenceId ∈ scan.seenEvidence then scan
  else { scan with
    referenced := scan.referenced ++ (evidence.get link.evidenceId).toList
    seenEvidence := scan.seenEvidence ++ [link.evidenceId] }

def checkBundle (bundle : ObservationBundle) : Except CandidateError Unit := do
  require (bundle.observation.workspaceId = workspaceId) .observationWorkspace
  if bundle.isActive then bundle.evidenceLinks.forM (checkLink evidence)

def gatherBundle (scan : Scan) (bundle : ObservationBundle) : Scan :=
  if bundle.isActive then
    bundle.evidenceLinks.foldl (gatherLink evidence) { scan with active := scan.active ++ [bundle] }
  else scan

def gather (bundles : List ObservationBundle) : Scan :=
  bundles.foldl (gatherBundle evidence) ⟨[], [], []⟩

variable {workspaceId evidence}

theorem scanLink_eq (scan : Scan) (link : EvidenceLink) :
    scanLink evidence scan link = (do checkLink evidence link; pure (gatherLink evidence scan link)) := by
  unfold scanLink checkLink gatherLink
  cases evidence.get link.evidenceId with
  | none => rfl
  | some item => rfl

theorem scanBundle_eq (scan : Scan) (bundle : ObservationBundle) :
    scanBundle workspaceId evidence scan bundle =
      (do checkBundle workspaceId evidence bundle; pure (gatherBundle evidence scan bundle)) := by
  unfold scanBundle checkBundle gatherBundle
  rw [bind_assoc]
  congr 1
  funext u
  by_cases hactive : bundle.isActive
  · rw [if_pos hactive, if_pos hactive, if_pos hactive, foldlM_eq_forM scanLink_eq]
  · rw [if_neg hactive, if_neg hactive, if_neg hactive, pure_bind]

theorem scanBundles_eq (bundles : List ObservationBundle) :
    scanBundles workspaceId evidence bundles =
      (do bundles.forM (checkBundle workspaceId evidence); pure (gather evidence bundles)) :=
  foldlM_eq_forM scanBundle_eq bundles _

end Gather

/-- The identifiers of the evidence the observations that count are linked to. -/
def linkedIds (bundles : List ObservationBundle) : List Str :=
  (bundles.filter ObservationBundle.isActive).flatMap fun bundle =>
    bundle.evidenceLinks.map EvidenceLink.evidenceId

/-- What was seen are the identifiers that were named, each once, and what is referenced the items under
them. -/
structure Kept (evidence : Dict Str EvidenceItem) (ids : List Str) (scan : Scan) : Prop where
  nodup : scan.seenEvidence.Nodup
  mem_seen : ∀ id, id ∈ scan.seenEvidence ↔ id ∈ ids
  referenced : scan.referenced = scan.seenEvidence.filterMap evidence.get

section Kept

variable {evidence : Dict Str EvidenceItem} {ids : List Str} {scan : Scan}

theorem Kept.link (h : Kept evidence ids scan) (link : EvidenceLink) :
    Kept evidence (ids ++ [link.evidenceId]) (gatherLink evidence scan link) := by
  unfold gatherLink
  by_cases hseen : link.evidenceId ∈ scan.seenEvidence
  · rw [if_pos hseen]
    refine ⟨h.nodup, fun id => ?_, h.referenced⟩
    rw [h.mem_seen, List.mem_append, List.mem_singleton]
    constructor
    · exact .inl
    · rintro (hid | rfl)
      · exact hid
      · exact (h.mem_seen _).1 hseen
  · rw [if_neg hseen]
    refine ⟨h.nodup.append (List.nodup_singleton _) ?_, fun id => ?_, ?_⟩
    · rw [List.disjoint_singleton]
      exact hseen
    · rw [List.mem_append, List.mem_append, h.mem_seen]
    · rw [List.filterMap_append, h.referenced]
      rfl

theorem Kept.links (links : List EvidenceLink) (h : Kept evidence ids scan) :
    Kept evidence (ids ++ links.map EvidenceLink.evidenceId) (links.foldl (gatherLink evidence) scan) := by
  induction links generalizing ids scan with
  | nil =>
    rw [List.map_nil, List.append_nil]
    exact h
  | cons link links ih =>
    have hrest := ih (h.link link)
    rw [List.append_assoc] at hrest
    exact hrest

theorem gatherLinks_active (links : List EvidenceLink) (scan : Scan) :
    (links.foldl (gatherLink evidence) scan).active = scan.active := by
  induction links generalizing scan with
  | nil => rfl
  | cons link links ih =>
    rw [List.foldl_cons, ih]
    unfold gatherLink
    split
    · rfl
    · rfl

theorem Kept.bundle (h : Kept evidence ids scan) (bundle : ObservationBundle) :
    Kept evidence (ids ++ linkedIds [bundle]) (gatherBundle evidence scan bundle) := by
  unfold gatherBundle linkedIds
  by_cases hactive : bundle.isActive
  · have hstart : Kept evidence ids { scan with active := scan.active ++ [bundle] } :=
      ⟨h.nodup, h.mem_seen, h.referenced⟩
    rw [if_pos hactive, List.filter_cons_of_pos hactive, List.filter_nil, List.flatMap_singleton]
    exact hstart.links bundle.evidenceLinks
  · rw [if_neg hactive, List.filter_cons_of_neg hactive, List.filter_nil, List.flatMap_nil,
      List.append_nil]
    exact h

theorem linkedIds_cons (bundle : ObservationBundle) (bundles : List ObservationBundle) :
    linkedIds (bundle :: bundles) = linkedIds [bundle] ++ linkedIds bundles := by
  unfold linkedIds
  rw [← List.flatMap_append, ← List.filter_append, List.singleton_append]

theorem Kept.bundles (bundles : List ObservationBundle) (h : Kept evidence ids scan) :
    Kept evidence (ids ++ linkedIds bundles) (bundles.foldl (gatherBundle evidence) scan) := by
  induction bundles generalizing ids scan with
  | nil =>
    rw [linkedIds, List.filter_nil, List.flatMap_nil, List.append_nil]
    exact h
  | cons bundle bundles ih =>
    have hrest := ih (h.bundle bundle)
    rw [List.append_assoc, ← linkedIds_cons] at hrest
    exact hrest

theorem kept_gather (evidence : Dict Str EvidenceItem) (bundles : List ObservationBundle) :
    Kept evidence (linkedIds bundles) (gather evidence bundles) := by
  have hstart : Kept evidence [] ⟨[], [], []⟩ :=
    ⟨List.nodup_nil, fun _ => Iff.rfl, rfl⟩
  exact hstart.bundles bundles

theorem gather_active (evidence : Dict Str EvidenceItem) (bundles : List ObservationBundle) :
    (gather evidence bundles).active = bundles.filter ObservationBundle.isActive := by
  have hrun : ∀ (bundles : List ObservationBundle) (scan : Scan),
      (bundles.foldl (gatherBundle evidence) scan).active =
        scan.active ++ bundles.filter ObservationBundle.isActive := by
    intro bundles
    induction bundles with
    | nil =>
      intro scan
      exact (List.append_nil _).symm
    | cons bundle bundles ih =>
      intro scan
      rw [List.foldl_cons, ih]
      unfold gatherBundle
      by_cases hactive : bundle.isActive
      · rw [if_pos hactive, gatherLinks_active, List.filter_cons_of_pos hactive, List.append_assoc,
          List.singleton_append]
      · rw [if_neg hactive, List.filter_cons_of_neg hactive]
  exact hrun bundles _

end Kept

/-! ## Representatives -/

def IsLeast (items : List (Str × String)) (signature : String) (least : Str) : Prop :=
  (least, signature) ∈ items ∧ ∀ other, (other, signature) ∈ items → codePoints least ≤ codePoints other

/-- An item has the least identifier of its signature for a representative. -/
def IsRepresentative (items : List (Str × String)) (id least : Str) : Prop :=
  ∃ signature, (id, signature) ∈ items ∧ IsLeast items signature least

/-- After some items, the least identifier of each of their signatures is kept. -/
structure Tracks (seen : List (Str × String)) (d : Dict String Str) : Prop where
  least : ∀ signature least, d.get signature = some least → IsLeast seen signature least
  kept : ∀ id signature, (id, signature) ∈ seen → d.get signature ≠ none

section Representatives

variable {items items' seen : List (Str × String)} {id id' least least' : Str} {signature : String}
  {d : Dict String Str} {item : Str × String}

theorem IsLeast.unique (h : IsLeast items signature least) (h' : IsLeast items signature least') :
    least = least' :=
  codePoints_injective (le_antisymm (h.2 _ h'.1) (h'.2 _ h.1))

/-- Another item of the signature, one that is not below the least. -/
theorem IsLeast.append (h : IsLeast seen signature least)
    (hle : item.2 = signature → codePoints least ≤ codePoints item.1) :
    IsLeast (seen ++ [item]) signature least := by
  refine ⟨List.mem_append_left _ h.1, fun other hother => ?_⟩
  rcases List.mem_append.1 hother with hother | hother
  · exact h.2 other hother
  · obtain rfl := List.mem_singleton.1 hother
    exact hle rfl

/-- A first item of its signature, or one below the least, is the least. -/
theorem isLeast_append (hle : ∀ other, (other, item.2) ∈ seen → codePoints item.1 ≤ codePoints other) :
    IsLeast (seen ++ [item]) item.2 item.1 := by
  refine ⟨List.mem_append_right _ (List.mem_singleton.2 rfl), fun other hother => ?_⟩
  rcases List.mem_append.1 hother with hother | hother
  · exact hle other hother
  · rw [← List.mem_singleton.1 hother]

def keepLeast (least : Dict String Str) (item : Str × String) : Dict String Str :=
  match least.get item.2 with
  | none => least.set item.2 item.1
  | some current => if codePoints item.1 < codePoints current then least.set item.2 item.1 else least

theorem Tracks.set (h : Tracks seen d)
    (hle : ∀ other, (other, item.2) ∈ seen → codePoints item.1 ≤ codePoints other) :
    Tracks (seen ++ [item]) (d.set item.2 item.1) := by
  constructor
  · intro signature least hget
    by_cases hsame : signature = item.2
    · subst hsame
      rw [Dict.get_set_self] at hget
      exact Option.some.inj hget ▸ isLeast_append hle
    · rw [Dict.get_set_of_ne hsame] at hget
      exact (h.least _ _ hget).append fun heq => absurd heq.symm hsame
  · intro id signature hmem
    by_cases hsame : signature = item.2
    · subst hsame
      rw [Dict.get_set_self]
      exact Option.some_ne_none _
    · rw [Dict.get_set_of_ne hsame]
      rcases List.mem_append.1 hmem with hmem | hmem
      · exact h.kept id signature hmem
      · exact absurd (congrArg Prod.snd (List.mem_singleton.1 hmem)) hsame

theorem Tracks.keepLeast (h : Tracks seen d) (item : Str × String) :
    Tracks (seen ++ [item]) (keepLeast d item) := by
  unfold Aggregation.keepLeast
  cases hget : d.get item.2 with
  | none => exact h.set fun other hother => absurd hget (h.kept _ _ hother)
  | some current =>
    have hcurrent := h.least _ _ hget
    by_cases hlt : codePoints item.1 < codePoints current
    · simp only [if_pos hlt]
      exact h.set fun other hother => hlt.le.trans (hcurrent.2 other hother)
    · simp only [if_neg hlt]
      constructor
      · intro signature least hleast
        refine (h.least _ _ hleast).append fun heq => ?_
        rw [← heq, hget] at hleast
        exact Option.some.inj hleast ▸ not_lt.1 hlt
      · intro id signature hmem
        rcases List.mem_append.1 hmem with hmem | hmem
        · exact h.kept id signature hmem
        · obtain rfl := List.mem_singleton.1 hmem
          rw [hget]
          exact Option.some_ne_none _

theorem Tracks.run (h : Tracks seen d) (items : List (Str × String)) :
    Tracks (seen ++ items) (items.foldl Aggregation.keepLeast d) := by
  induction items generalizing d seen with
  | nil =>
    rw [List.append_nil]
    exact h
  | cons item items ih =>
    have hrest := ih (h.keepLeast item)
    rw [List.append_assoc] at hrest
    exact hrest

theorem tracks_leastBySignature (items : List (Str × String)) :
    Tracks items (leastBySignature items) := by
  have hstart : Tracks [] (⟨[], List.nodup_nil⟩ : Dict String Str) :=
    ⟨fun _ _ h => (by cases h), fun _ _ h => absurd h List.not_mem_nil⟩
  exact hstart.run items

theorem leastBySignature_get :
    (leastBySignature items).get signature = some least ↔ IsLeast items signature least := by
  have hrun := tracks_leastBySignature items
  constructor
  · exact hrun.least signature least
  · intro hleast
    cases hget : (leastBySignature items).get signature with
    | none => exact absurd hget (hrun.kept _ _ hleast.1)
    | some other => rw [(hrun.least _ _ hget).unique hleast]

theorem exists_isLeast (h : (id, signature) ∈ items) : ∃ least, IsLeast items signature least := by
  have hrun := tracks_leastBySignature items
  obtain ⟨least, hleast⟩ := Option.ne_none_iff_exists'.1 (hrun.kept id signature h)
  exact ⟨least, hrun.least signature least hleast⟩

/-- One step of the second loop: the representative of an item. -/
def represent (least : Dict String Str) (representatives : Dict Str Str) (item : Str × String) :
    Dict Str Str :=
  match least.get item.2 with
  | none => representatives
  | some least => representatives.set item.1 least

/-- What the second loop finds under an identifier: the representative of the item that has it. -/
theorem represent_get {representatives : Dict Str Str} (hnodup : (items.map Prod.fst).Nodup)
    (habsent : ∀ item ∈ items, representatives.get item.1 = none) :
    (items.foldl (represent d) representatives).get id = some least ↔
      representatives.get id = some least ∨
        ∃ signature, (id, signature) ∈ items ∧ d.get signature = some least := by
  induction items generalizing representatives with
  | nil => simp
  | cons item items ih =>
    obtain ⟨hnew, hnodup⟩ := List.nodup_cons.1 hnodup
    have hitem := habsent item List.mem_cons_self
    have hother : ∀ other ∈ items, other.1 ≠ item.1 := fun other hother heq =>
      hnew (List.mem_map.2 ⟨other, hother, heq⟩)
    have hstep : (represent d representatives item).get id = some least ↔
        representatives.get id = some least ∨ id = item.1 ∧ d.get item.2 = some least := by
      unfold represent
      cases hget : d.get item.2 with
      | none => simp
      | some current =>
        by_cases hid : id = item.1
        · subst hid
          simp [hitem]
        · simp [Dict.get_set_of_ne hid, hid]
    rw [List.foldl_cons, ih hnodup, hstep]
    · constructor
      · rintro ((h | ⟨rfl, h⟩) | ⟨signature, hmem, h⟩)
        · exact .inl h
        · exact .inr ⟨item.2, List.mem_cons_self, h⟩
        · exact .inr ⟨signature, List.mem_cons_of_mem _ hmem, h⟩
      · rintro (h | ⟨signature, hmem, h⟩)
        · exact .inl (.inl h)
        · rcases List.mem_cons.1 hmem with rfl | hmem
          · exact .inl (.inr ⟨rfl, h⟩)
          · exact .inr ⟨signature, hmem, h⟩
    · intro other hmem
      unfold represent
      split
      · exact habsent other (List.mem_cons_of_mem _ hmem)
      · rw [Dict.get_set_of_ne (hother other hmem)]
        exact habsent other (List.mem_cons_of_mem _ hmem)

/-- The representative of an item is the least identifier of its signature. -/
theorem representatives_get (hnodup : (items.map Prod.fst).Nodup) :
    (items.foldl (represent (leastBySignature items)) ⟨[], List.nodup_nil⟩).get id = some least ↔
      IsRepresentative items id least := by
  rw [represent_get hnodup fun _ _ => rfl]
  constructor
  · rintro (h | ⟨signature, hmem, h⟩)
    · cases h
    · exact ⟨signature, hmem, leastBySignature_get.1 h⟩
  · rintro ⟨signature, hmem, h⟩
    exact .inr ⟨signature, hmem, leastBySignature_get.2 h⟩

end Representatives

section Dedup

variable {nfc : Str → Str} {sha256 : List UInt8 → String} {ruleVersion : Str} {items : List EvidenceItem}
  {representatives : Dict Str Str}

theorem signed_fst {item : EvidenceItem} {signedItem : Str × String}
    (h : signed nfc sha256 ruleVersion item = .ok signedItem) : signedItem.1 = item.evidenceId := by
  obtain ⟨signature, -, h⟩ := bind_eq_ok.1 h
  rw [← pure_eq_ok.1 h]

theorem signed_ids {signedItems : List (Str × String)}
    (h : items.mapM (signed nfc sha256 ruleVersion) = .ok signedItems) :
    signedItems.map Prod.fst = items.map EvidenceItem.evidenceId := by
  have hall := mapM_eq_ok.1 h
  clear h
  induction hall with
  | nil => rfl
  | cons hstep _ ih => rw [List.map_cons, List.map_cons, ih, signed_fst hstep]

theorem dedupRepresentatives_eq_ok (hnodup : (items.map EvidenceItem.evidenceId).Nodup)
    (h : dedupRepresentatives nfc sha256 items ruleVersion = .ok representatives) :
    ∃ signedItems, items.mapM (signed nfc sha256 ruleVersion) = .ok signedItems ∧
      ∀ id least, representatives.get id = some least ↔ IsRepresentative signedItems id least := by
  obtain ⟨signedItems, hsigned, h⟩ := bind_eq_ok.1 h
  refine ⟨signedItems, hsigned, fun id least => ?_⟩
  rw [← pure_eq_ok.1 h]
  exact representatives_get (signed_ids hsigned ▸ hnodup)

end Dedup

end OmniviaCore.SemanticRegistry.Aggregation
