import OmniviaCore.Knowledge.AssemblyTotality

/-!
# Every position is accounted for once

The first pass omits exactly the positions it does not find applicable, each under its own version
(`omissionOf_eq_none`), and the second adds one omission for each it takes out. So with distinct versions
no version is omitted twice, and one is omitted exactly when its position is not in the bundle
(`stage1_selection`).
-/

namespace OmniviaCore.Knowledge

open Lib CanonicalJson

variable {reprOf : String → String} {strftime : Instant → String} {sha256 : List UInt8 → String}
  {call : Stage1Call} {p q : OrganisationalPosition} {bundle : Stage1ContextBundle}

/-! ## Omissions -/

theorem omissionOf_ref {omission : ManifestOmission} (h : omissionOf reprOf call p = some omission) :
    omission.itemVersionRef = some p.versionRef := by
  unfold omissionOf at h
  split at h
  · rw [← Option.some.inj h]
  · split at h
    · rw [← Option.some.inj h]
    · obtain ⟨result, -, homission⟩ := Option.bind_eq_some_iff.1 h
      split at homission
      · cases homission
      · rw [← Option.some.inj homission]

/-- The first pass omits what it does not find applicable. -/
theorem omissionOf_eq_none (h : Recordable reprOf call p) :
    omissionOf reprOf call p = none ↔ FoundApplicable reprOf call p := by
  by_cases hreaches : Reaches call p
  · obtain ⟨result, hresult, -⟩ := h.2 hreaches
    rw [foundApplicable_iff hresult, omissionOf, hreaches.1]
    dsimp only
    rw [if_neg hreaches.2, hresult, Option.bind_some]
    split
    · next h => exact iff_of_true rfl h
    · next h => exact iff_of_false (by simp) h
  · refine iff_of_false (fun hnone => ?_)
      (not_foundApplicable (evaluated_of_not_reaches hreaches))
    unfold omissionOf at hnone
    split at hnone
    · cases hnone
    · next hexclusion =>
      rw [if_pos (by_contra fun hnot => hreaches ⟨hexclusion, hnot⟩)] at hnone
      cases hnone

theorem refs_omissions {positions : List OrganisationalPosition}
    (h : ∀ p ∈ positions, Recordable reprOf call p) :
    (positions.filterMap (omissionOf reprOf call)).map (·.itemVersionRef) =
      (positions.filter fun p => ¬FoundApplicable reprOf call p).map fun p => some p.versionRef := by
  induction positions with
  | nil => rfl
  | cons p positions ih =>
    rw [List.forall_mem_cons] at h
    have hnone := omissionOf_eq_none h.1
    rw [List.filterMap_cons, List.filter_cons]
    cases homission : omissionOf reprOf call p with
    | none =>
      rw [if_neg (by simpa using hnone.1 homission)]
      exact ih h.2
    | some omission =>
      have hfound : ¬FoundApplicable reprOf call p := fun hfound => by
        rw [hnone.2 hfound] at homission
        cases homission
      rw [if_pos (by simpa using hfound), List.map_cons, List.map_cons, omissionOf_ref homission,
        ih h.2]

/-! ## The selection -/

/-- The positions found applicable, in the order of their versions. -/
def applicableOnes (reprOf : String → String) (call : Stage1Call) : List OrganisationalPosition :=
  (sortBy (·.versionRef) call.positions).filter fun p => FoundApplicable reprOf call p

theorem mem_applicableOnes :
    p ∈ applicableOnes reprOf call ↔ p ∈ call.positions ∧ FoundApplicable reprOf call p := by
  simp [applicableOnes, mem_sortBy]

/-- The versions the second pass takes out. -/
def contestedOnes (reprOf : String → String) (call : Stage1Call) : Finset String :=
  (contributions reprOf call (sortBy (·.versionRef) call.positions)).contested

/-- A version is contested when its position contradicts an applicable one or is contradicted by one. -/
theorem mem_contestedOnes (hnodup : (call.positions.map (·.versionRef)).Nodup)
    (hp : p ∈ applicableOnes reprOf call) :
    p.versionRef ∈ contestedOnes reprOf call ↔ ∃ q ∈ applicableOnes reprOf call,
      q.versionRef ∈ p.contradictsPositionRefs ∨ p.versionRef ∈ q.contradictsPositionRefs := by
  have hsame : ∀ q ∈ applicableOnes reprOf call, q.versionRef = p.versionRef → q = p := by
    intro q hq heq
    exact List.inj_on_of_nodup_map hnodup (mem_applicableOnes.1 hq).1 (mem_applicableOnes.1 hp).1 heq
  rw [contestedOnes, Selection.contested, mem_contestedPositions]
  simp only [List.mem_flatMap, List.mem_map]
  constructor
  · rintro ⟨_, ⟨q, hq, contradicted, hcontradicted, rfl⟩, -, ⟨other, hother, hversion⟩, hname⟩
    dsimp only at hversion hname
    rcases hname with hname | hname
    · obtain rfl := hsame q hq hname.symm
      exact ⟨other, hother, .inl (hversion ▸ hcontradicted)⟩
    · exact ⟨q, hq, .inr (hname ▸ hcontradicted)⟩
  · rintro ⟨q, hq, hcontradicts | hcontradicts⟩
    · exact ⟨_, ⟨p, hp, _, hcontradicts, rfl⟩, ⟨p, hp, rfl⟩, ⟨q, hq, rfl⟩, .inl rfl⟩
    · exact ⟨_, ⟨q, hq, _, hcontradicts, rfl⟩, ⟨q, hq, rfl⟩, ⟨p, hp, rfl⟩, .inr rfl⟩

theorem selectedPositions_final : (finalSelection reprOf call).selectedPositions =
    (applicableOnes reprOf call).filter fun p => p.versionRef ∉ contestedOnes reprOf call := rfl

theorem mem_final : p ∈ (finalSelection reprOf call).selectedPositions ↔
    p ∈ applicableOnes reprOf call ∧ p.versionRef ∉ contestedOnes reprOf call := by
  rw [selectedPositions_final, List.mem_filter, decide_eq_true_eq]

theorem selectedItems_final : (finalSelection reprOf call).selectedItems =
    (finalSelection reprOf call).selectedPositions.map (itemOf call.facts) := by
  have hitems : (finalSelection reprOf call).selectedItems =
      ((applicableOnes reprOf call).map (itemOf call.facts)).filter fun item =>
        item.itemVersionRef ∉ contestedOnes reprOf call := rfl
  rw [hitems, selectedPositions_final, List.filter_map]
  rfl

theorem nodup_refs_selected (hnodup : (call.positions.map (·.versionRef)).Nodup) :
    ((finalSelection reprOf call).selectedPositions.map (·.versionRef)).Nodup := by
  have hperm : (sortBy (·.versionRef) call.positions).Perm call.positions := perm_sortBy _
  have hsorted := (hperm.map (·.versionRef)).nodup_iff.2 hnodup
  rw [selectedPositions_final, applicableOnes]
  exact hsorted.sublist ((List.filter_sublist.trans List.filter_sublist).map _)

/-- The version of a position left out is not selected with another. -/
theorem count_refs_leftOut (hnodup : (call.positions.map (·.versionRef)).Nodup) (hp : p ∈ call.positions)
    (hout : p ∉ (finalSelection reprOf call).selectedPositions) :
    ((finalSelection reprOf call).selectedPositions.map (·.versionRef)).count p.versionRef = 0 := by
  refine List.count_eq_zero_of_not_mem fun href => ?_
  obtain ⟨q, hq, heq⟩ := List.mem_map.1 href
  have hsame : q = p :=
    List.inj_on_of_nodup_map hnodup (mem_applicableOnes.1 (mem_final.1 hq).1).1 hp heq
  exact hout (hsame ▸ hq)

/-- The versions of the items are those of the positions. -/
theorem refs_selectedItems : (finalSelection reprOf call).selectedItems.map (·.itemVersionRef) =
    (finalSelection reprOf call).selectedPositions.map (·.versionRef) := by
  rw [selectedItems_final, List.map_map]
  rfl

/-- The versions that are omitted: those not found applicable, and the contested ones. -/
theorem refs_final (h : ∀ p ∈ call.positions, Recordable reprOf call p) :
    (finalSelection reprOf call).omissions.map (·.itemVersionRef) =
      ((sortBy (·.versionRef) call.positions).filter fun p =>
        ¬FoundApplicable reprOf call p).map (fun p => some p.versionRef) ++
        ((contestedOnes reprOf call).sort (· ≤ ·)).map some := by
  have hsorted : ∀ p ∈ sortBy (·.versionRef) call.positions, Recordable reprOf call p :=
    fun p hp => h p (mem_sortBy.1 hp)
  rw [finalSelection, Selection.uncontested]
  dsimp only
  rw [List.map_append, contributions, refs_omissions hsorted, List.map_map]
  rfl

theorem nodup_refs_final (hnodup : (call.positions.map (·.versionRef)).Nodup)
    (h : ∀ p ∈ call.positions, Recordable reprOf call p) :
    ((finalSelection reprOf call).omissions.map (·.itemVersionRef)).Nodup := by
  have hsome : Function.Injective (some : String → Option String) := Option.some_injective _
  have hsorted : ((sortBy (·.versionRef) call.positions).map fun p => some p.versionRef).Nodup := by
    have hperm : (sortBy (·.versionRef) call.positions).Perm call.positions := perm_sortBy _
    have hmapped := ((hperm.map (·.versionRef)).nodup_iff.2 hnodup).map hsome
    rwa [List.map_map] at hmapped
  rw [refs_final h, List.nodup_append]
  refine ⟨hsorted.sublist (List.filter_sublist.map _), (Finset.sort_nodup _ _).map hsome, ?_⟩
  rintro ref href _ hcontested rfl
  obtain ⟨p, hp, rfl⟩ := List.mem_map.1 href
  obtain ⟨version, hversion, hsame⟩ := List.mem_map.1 hcontested
  rw [List.mem_filter, mem_sortBy, decide_eq_true_eq] at hp
  obtain ⟨q, hq, hqversion⟩ := mem_contested ((Finset.mem_sort _).1 hversion)
  obtain ⟨hqmem, hfound⟩ := mem_applicableOnes.1 hq
  have heq : q = p := List.inj_on_of_nodup_map hnodup hqmem hp.1
    (hqversion.trans (Option.some.inj hsame))
  exact hp.2 (heq ▸ hfound)

/-- A version is omitted when its position is not in the selection. -/
theorem mem_refs_final (hnodup : (call.positions.map (·.versionRef)).Nodup)
    (h : ∀ p ∈ call.positions, Recordable reprOf call p) (hp : p ∈ call.positions) :
    some p.versionRef ∈ (finalSelection reprOf call).omissions.map (·.itemVersionRef) ↔
      p ∉ (finalSelection reprOf call).selectedPositions := by
  have hsame : ∀ q ∈ call.positions, q.versionRef = p.versionRef → q = p :=
    fun q hq heq => List.inj_on_of_nodup_map hnodup hq hp heq
  rw [refs_final h, List.mem_append, mem_final, mem_applicableOnes]
  simp only [List.mem_map, List.mem_filter, mem_sortBy, decide_eq_true_eq, Option.some.injEq,
    exists_eq_right, Finset.mem_sort]
  constructor
  · rintro (⟨q, ⟨hq, hnot⟩, heq⟩ | hcontested) ⟨⟨-, hfound⟩, hfree⟩
    · exact hnot (hsame q hq heq ▸ hfound)
    · exact hfree hcontested
  · intro hout
    by_cases hfound : FoundApplicable reprOf call p
    · exact .inr (by_contra fun hfree => hout ⟨⟨hp, hfound⟩, hfree⟩)
    · exact .inl ⟨p, ⟨hp, hfound⟩, rfl⟩

/-! ## Orders -/

def FactSnapshot.SameMapping (f g : FactSnapshot) : Prop :=
  f.factSnapshotRef = g.factSnapshotRef ∧ f.facts.entries.Perm g.facts.entries

variable {f g : FactSnapshot}

theorem get_sameMapping (h : f.SameMapping g) (name : String) :
    f.facts.get name = g.facts.get name := by
  refine Option.ext fun entry => ?_
  rw [Dict.get_eq_some, Dict.get_eq_some, h.2.mem_iff]

theorem evaluateNodes_congr {nodes : List ApplicabilityNode}
    (h : ∀ node ∈ nodes, evaluateNode f node = evaluateNode g node) :
    evaluateNodes f nodes = evaluateNodes g nodes := by
  induction nodes with
  | nil => rfl
  | cons node nodes ih =>
    rw [List.forall_mem_cons] at h
    rw [evaluateNodes, evaluateNodes, h.1, ih h.2]

theorem evaluateNode_sameMapping (h : f.SameMapping g) (node : ApplicabilityNode) :
    evaluateNode f node = evaluateNode g node := by
  induction node using ApplicabilityNode.induct with
  | comparison node =>
    rw [evaluateNode, evaluateNode, evaluateComparison, evaluateComparison, consult, consult,
      get_sameMapping h]
  | boolean operator children ih =>
    rw [evaluateNode, evaluateNode, evaluateNodes_congr ih]

theorem evaluateApplicability_sameMapping (h : f.SameMapping g) (required : ApplicabilityExpression)
    (exceptions : List ApplicabilityExpression) (positionVersionRef : String) :
    evaluateApplicability reprOf required exceptions f positionVersionRef =
      evaluateApplicability reprOf required exceptions g positionVersionRef := by
  have hnodes : ∀ nodes, evaluateNodes f nodes = evaluateNodes g nodes :=
    fun nodes => evaluateNodes_congr fun node _ => evaluateNode_sameMapping h node
  unfold evaluateApplicability
  simp only [evaluateNode_sameMapping h, hnodes, h.1]

/-- The same call with its positions and its facts in another order. -/
def Stage1Call.rearranged (call : Stage1Call) (positions : List OrganisationalPosition)
    (facts : FactSnapshot) : Stage1Call :=
  { call with positions := positions, facts := facts }

variable {positions : List OrganisationalPosition} {facts : FactSnapshot}

theorem considerPosition_rearranged (h : facts.SameMapping call.facts) (selection : Selection)
    (position : OrganisationalPosition) :
    considerPosition reprOf (call.rearranged positions facts) selection position =
      considerPosition reprOf call selection position := by
  have hselect : ∀ s : Selection, s.select facts position = s.select call.facts position := by
    intro s
    rw [Selection.select, Selection.select, h.1]
  have hexclusion : exclusion (call.rearranged positions facts) position = exclusion call position :=
    rfl
  have hoverdue : reviewOverdue (call.rearranged positions facts) position =
      reviewOverdue call position := rfl
  have hevaluate : ∀ required exceptions positionVersionRef,
      evaluateApplicability reprOf required exceptions (call.rearranged positions facts).facts
        positionVersionRef =
      evaluateApplicability reprOf required exceptions call.facts positionVersionRef :=
    evaluateApplicability_sameMapping h
  have hprofile : (call.rearranged positions facts).profile = call.profile := rfl
  have hfacts : ∀ s : Selection, s.select (call.rearranged positions facts).facts position =
      s.select call.facts position := hselect
  unfold considerPosition
  simp only [hexclusion, hoverdue, hevaluate, hprofile, hfacts]

/-- An assembly does not depend on the order of the positions and of the facts. -/
theorem assembleStage1Context_rearranged (hnodup : (call.positions.map (·.versionRef)).Nodup)
    (hpositions : positions.Perm call.positions) (hfacts : facts.SameMapping call.facts) :
    assembleStage1Context reprOf strftime sha256 (call.rearranged positions facts) =
      assembleStage1Context reprOf strftime sha256 call := by
  have hsorted : sortBy (·.versionRef) positions = sortBy (·.versionRef) call.positions := by
    refine (sortBy_eq_iff_perm fun a ha b hb heq => ?_).2 hpositions
    exact List.inj_on_of_nodup_map hnodup (hpositions.mem_iff.1 ha) (hpositions.mem_iff.1 hb) heq
  have hloop : considerPosition reprOf (call.rearranged positions facts) =
      considerPosition reprOf call := by
    funext selection position
    exact considerPosition_rearranged hfacts selection position
  have hmanifest : provisionalManifest (call.rearranged positions facts) = provisionalManifest call :=
    rfl
  have hget : facts.facts.get = call.facts.facts.get := funext (get_sameMapping hfacts)
  unfold assembleStage1Context
  rw [hloop, hmanifest]
  simp only [Stage1Call.rearranged, hsorted, hget]
  congr!

/-! ## The selection of a bundle -/

/-- How often the bundle holds a version: among its positions, the items and references of the manifest,
and the omissions. -/
structure Held (bundle : Stage1ContextBundle) (versionRef : String)
    (positions items refs omissions : ℕ) : Prop where
  positions : (bundle.applicablePositions.map (·.versionRef)).count versionRef = positions
  items : (bundle.manifest.selectedItems.map (·.itemVersionRef)).count versionRef = items
  refs : bundle.manifest.selectedItemRefs.count versionRef = refs
  omissions : (bundle.manifest.omissions.map (·.itemVersionRef)).count (some versionRef) = omissions

/-- The position is in the bundle once, with one item and one reference beside those of the pack, and is not
omitted; or it is omitted once and is nowhere else. -/
structure AccountedFor (call : Stage1Call) (bundle : Stage1ContextBundle) (p : OrganisationalPosition) :
    Prop where
  selected : p ∈ bundle.applicablePositions →
    Held bundle p.versionRef 1 1 ((packRefs call.contextPack).count p.versionRef + 1) 0
  omitted : p ∉ bundle.applicablePositions →
    Held bundle p.versionRef 0 0 ((packRefs call.contextPack).count p.versionRef) 1

/-- What a position is selected for. -/
structure Eligible (reprOf : String → String) (call : Stage1Call) (p : OrganisationalPosition) :
    Prop where
  admitted : p.lifecycleState = .admitted
  bound : p.semanticModelVersionRef = call.semanticModelVersionRef
  valid : ∀ interval ∈ p.validInterval,
    interval.effectiveFrom.value.rank ≤ call.validAt.value.rank ∧
      ∀ finish ∈ interval.effectiveTo, call.validAt.value.rank < finish.value.rank
  recorded : ∀ recordedAt ∈ p.recordedAt, recordedAt.value.rank ≤ call.recordedAsOf.value.rank
  applicable : ∃ required ∈ p.requiredConditions,
    outcomeOf reprOf required (p.exceptions.map (·.condition)) call.facts p.versionRef =
      some .applicable

/-! Ranks are compared as numbers, so that no rank is unfolded. -/

theorem le_of_not_any {α : Type} {o : Option α} {f : α → ℕ} {n : ℕ}
    (h : ¬(o.any fun a => n < f a) = true) : ∀ a ∈ o, f a ≤ n := by
  rintro a rfl
  simpa using h

theorem within_of_window {α : Type} {start n : ℕ} {o : Option α} {f : α → ℕ}
    (h : (if n < start then false else o.all fun a => n < f a) = true) :
    start ≤ n ∧ ∀ a ∈ o, n < f a := by
  split at h
  · cases h
  · next hstart =>
    refine ⟨not_lt.1 hstart, ?_⟩
    rintro a rfl
    simpa using h

theorem exclusion_eq_none (h : exclusion call p = none) :
    p.lifecycleState = .admitted ∧ p.semanticModelVersionRef = call.semanticModelVersionRef ∧
      (∀ recordedAt ∈ p.recordedAt, recordedAt.value.rank ≤ call.recordedAsOf.value.rank) ∧
      positionIsCurrentAt p call.validAt = true := by
  unfold exclusion at h
  repeat' split at h
  all_goals first
    | cases h; done
    | skip
  next hadmitted hbound _ hrecorded hcurrent =>
    exact ⟨not_not.1 hadmitted, not_not.1 hbound, le_of_not_any hrecorded,
      Bool.not_eq_false _ ▸ hcurrent⟩

theorem eligible_of_foundApplicable (h : FoundApplicable reprOf call p) : Eligible reprOf call p := by
  obtain ⟨result, hresult, happlicable⟩ := h
  have hreaches : Reaches call p := by
    by_contra hnot
    rw [evaluated_of_not_reaches hnot] at hresult
    cases hresult
  rw [evaluated, if_pos hreaches, Option.mem_def, Option.bind_eq_some_iff] at hresult
  obtain ⟨required, hrequired, hresult⟩ := hresult
  obtain ⟨hadmitted, hbound, hrecorded, hcurrent⟩ := exclusion_eq_none hreaches.1
  refine ⟨hadmitted, hbound, fun interval hinterval => ?_, hrecorded, required, hrequired, ?_⟩
  · unfold positionIsCurrentAt at hcurrent
    rw [Option.mem_def] at hinterval
    rw [hinterval] at hcurrent
    exact within_of_window hcurrent
  · rw [outcomeOf, hresult]
    exact congrArg some happlicable

/-- Every position is in the bundle once or omitted once; what is in the bundle is eligible and free of
contradictions; an applicable position is omitted only for a contradiction with an applicable one, itself
included; and the bundle does not depend on any order and verifies. -/
theorem stage1_selection (reprOf : String → String) (strftime : Instant → String)
    (sha256 : List UInt8 → String) (call : Stage1Call) (bundle : Stage1ContextBundle)
    (hnodup : (call.positions.map (·.versionRef)).Nodup)
    (hbundle : assembleStage1Context reprOf strftime sha256 call = .ok bundle) :
    (∀ p ∈ call.positions, AccountedFor call bundle p) ∧
    (∀ p ∈ bundle.applicablePositions, p ∈ call.positions ∧ Eligible reprOf call p) ∧
    (∀ p ∈ bundle.applicablePositions, ∀ q ∈ bundle.applicablePositions,
      q.versionRef ∉ p.contradictsPositionRefs) ∧
    (∀ p ∈ call.positions, FoundApplicable reprOf call p → p ∉ bundle.applicablePositions →
      ∃ q ∈ call.positions, FoundApplicable reprOf call q ∧
        (q.versionRef ∈ p.contradictsPositionRefs ∨ p.versionRef ∈ q.contradictsPositionRefs)) ∧
    (∀ positions facts, positions.Perm call.positions → facts.SameMapping call.facts →
      assembleStage1Context reprOf strftime sha256 (call.rearranged positions facts) = .ok bundle) ∧
    verifySelectionManifestDigest strftime sha256 bundle.manifest = .ok true := by
  obtain ⟨measuredBytes, -, hrecordable, -, -, digest, hdigest, rfl⟩ :=
    assembleStage1Context_eq_ok.1 hbundle
  have hrefs : ∀ p : OrganisationalPosition,
      (provisionalManifest call measuredBytes (finalSelection reprOf call)).selectedItemRefs.count p.versionRef =
        (packRefs call.contextPack).count p.versionRef +
          ((finalSelection reprOf call).selectedPositions.map (·.versionRef)).count p.versionRef :=
    fun p => List.count_append
  refine ⟨fun p hp => ⟨fun hin => ?_, fun hout => ?_⟩, fun p hp => ?_, fun p hp q hq hcontradicts => ?_,
    fun p hp hfound hout => ?_, fun positions facts hpositions hfacts => ?_, verify_sealed hdigest⟩
  · have hcount := List.count_eq_one_of_mem (nodup_refs_selected hnodup) (List.mem_map_of_mem hin)
    refine ⟨hcount, (congrArg (·.count p.versionRef) refs_selectedItems).trans hcount,
      (hrefs p).trans (by rw [hcount]), ?_⟩
    exact List.count_eq_zero_of_not_mem fun hmem => (mem_refs_final hnodup hrecordable hp).1 hmem hin
  · have hcount := count_refs_leftOut hnodup hp hout
    refine ⟨hcount, (congrArg (·.count p.versionRef) refs_selectedItems).trans hcount,
      (hrefs p).trans (by rw [hcount, add_zero]), ?_⟩
    exact List.count_eq_one_of_mem (nodup_refs_final hnodup hrecordable)
      ((mem_refs_final hnodup hrecordable hp).2 hout)
  · obtain ⟨hmem, hfound⟩ := mem_applicableOnes.1 (mem_final.1 hp).1
    exact ⟨hmem, eligible_of_foundApplicable hfound⟩
  · obtain ⟨hp, hfree⟩ := mem_final.1 hp
    exact hfree ((mem_contestedOnes hnodup hp).2 ⟨q, (mem_final.1 hq).1, .inl hcontradicts⟩)
  · have hp' := mem_applicableOnes.2 ⟨hp, hfound⟩
    have hcontested : p.versionRef ∈ contestedOnes reprOf call :=
      by_contra fun hfree => hout (mem_final.2 ⟨hp', hfree⟩)
    obtain ⟨q, hq, hcontradicts⟩ := (mem_contestedOnes hnodup hp').1 hcontested
    obtain ⟨hqmem, hqfound⟩ := mem_applicableOnes.1 hq
    exact ⟨q, hqmem, hqfound, hcontradicts⟩
  · exact (assembleStage1Context_rearranged hnodup hpositions hfacts).trans hbundle

/-! ## A position that contradicts itself -/

theorem renewal_assembles (contradicts : List String) :
    ∃ bundle, assembleStage1Context id (fun _ => "") (fun _ => "")
      (renewalCall contradicts "EUR" (by decide)) = .ok bundle := by
  have hrecordable : Recordable id (renewalCall contradicts "EUR" (by decide))
      (renewalPosition contradicts) := (recordable_iff rfl rfl).2 fun _ => statable_renewal
  have hdigest : ∃ digest, computeSelectionManifestDigest (fun _ => "") (fun _ => "")
      (provisionalManifest (renewalCall contradicts "EUR" (by decide)) 20
        (finalSelection id (renewalCall contradicts "EUR" (by decide)))) = .ok digest := by
    rw [computeSelectionManifestDigest_isOk]
    refine ⟨isExactNumber_renewal.1, fun n hn => ?_⟩
    obtain rfl := Option.some.inj hn
    exact isExactNumber_renewal.2
  obtain ⟨digest, hdigest⟩ := hdigest
  have hrefs : isBlank "request-1" = false ∧ isBlank "model@1" = false := by decide
  exact ⟨_, assembleStage1Context_eq_ok.2 ⟨20, renewalCall_admits, renewalCall_positions hrecordable,
    fun bound h => (by cases h), hrefs, digest, hdigest, rfl⟩⟩

theorem foundApplicable_renewal (contradicts : List String) :
    FoundApplicable id (renewalCall contradicts "EUR" (by decide)) (renewalPosition contradicts) := by
  have hreaches : Reaches (renewalCall contradicts "EUR" (by decide)) (renewalPosition contradicts) :=
    ⟨rfl, fun h => Bool.false_ne_true h.1⟩
  have houtcome := outcome_belowTenEuros
  rw [outcomeOf, Option.map_eq_some_iff] at houtcome
  obtain ⟨result, hresult, happlicable⟩ := houtcome
  refine ⟨result, ?_, happlicable⟩
  rw [evaluated, if_pos hreaches]
  exact hresult

/-- The only position, applicable and omitted: it contradicts itself. -/
theorem self_contradiction_is_contested :
    ∃ bundle, assembleStage1Context id (fun _ => "") (fun _ => "")
        (renewalCall ["position@1"] "EUR" (by decide)) = .ok bundle ∧
      FoundApplicable id (renewalCall ["position@1"] "EUR" (by decide))
        (renewalPosition ["position@1"]) ∧
      renewalPosition ["position@1"] ∉ bundle.applicablePositions ∧
      ∀ q ∈ (renewalCall ["position@1"] "EUR" (by decide)).positions,
        q = renewalPosition ["position@1"] := by
  obtain ⟨bundle, hbundle⟩ := renewal_assembles ["position@1"]
  have hfound := foundApplicable_renewal ["position@1"]
  refine ⟨bundle, hbundle, hfound, ?_, renewalCall_positions rfl⟩
  obtain ⟨-, -, -, -, -, -, -, rfl⟩ := assembleStage1Context_eq_ok.1 hbundle
  have hp := mem_applicableOnes.2 ⟨List.mem_singleton_self _, hfound⟩
  have hnodup : ((renewalCall ["position@1"] "EUR" (by decide)).positions.map (·.versionRef)).Nodup :=
    List.nodup_singleton _
  intro hin
  exact (mem_final.1 hin).2 ((mem_contestedOnes hnodup hp).2 ⟨_, hp, .inl (List.mem_singleton_self _)⟩)

theorem stage1_selection_renewal :
    ∃ bundle, assembleStage1Context id (fun _ => "") (fun _ => "")
        (renewalCall [] "EUR" (by decide)) = .ok bundle ∧
      AccountedFor (renewalCall [] "EUR" (by decide)) bundle (renewalPosition []) ∧
      verifySelectionManifestDigest (fun _ => "") (fun _ => "") bundle.manifest = .ok true := by
  obtain ⟨bundle, hbundle⟩ := renewal_assembles []
  obtain ⟨haccounted, -, -, -, -, hverified⟩ := stage1_selection id (fun _ => "") (fun _ => "")
    (renewalCall [] "EUR" (by decide)) bundle (List.nodup_singleton _) hbundle
  exact ⟨bundle, hbundle, haccounted _ (List.mem_singleton_self _), hverified⟩

end OmniviaCore.Knowledge
