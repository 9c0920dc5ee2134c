import OmniviaCore.Knowledge.Assembly
import OmniviaCore.Knowledge.Information

/-!
# What an assembly computes

The pass adds to the lists what each position contributes by itself (`contribution`), and stops at the
first position that cannot be recorded (`Recordable`): `foldlM_considerPosition`. So an assembly that
returns is given by what its positions contribute and the contested ones among them
(`assembleStage1Context_eq_ok`).
-/

namespace OmniviaCore.Knowledge

open Lib CanonicalJson

/-! ## Blank texts -/

theorem isBlank_append (a b : String) : isBlank (a ++ b) = (isBlank a && isBlank b) := by
  rw [isBlank, isBlank, isBlank, String.toList_append, List.all_append]

theorem isBlank_intercalate (texts : List String) :
    isBlank (" ".intercalate texts) = texts.all isBlank := by
  rw [isBlank, String.toList_intercalate]
  induction texts with
  | nil => rfl
  | cons text texts ih =>
    cases texts with
    | nil => simp [List.intercalate, isBlank]
    | cons other texts =>
      rw [List.map_cons, List.map_cons, List.intercalate_cons_cons, List.all_append, List.all_append,
        ← List.map_cons, ih]
      rw [List.all_cons]
      have hspace : (" ".toList.all fun c => SemanticRegistry.isSpace (.scalar c)) = true := by decide
      rw [hspace, Bool.and_true]
      rfl

variable {u : Unit}

@[simp] theorem requireId_eq_ok {fieldName value : String} :
    requireId fieldName value = .ok u ↔ isBlank value = false := require_eq_ok

@[simp] theorem requireStrTuple_eq_ok {fieldName : String} {values : List String} :
    requireStrTuple fieldName values = .ok u ↔ ∀ value ∈ values, isBlank value = false := by
  rw [requireStrTuple, show u = PUnit.unit from rfl, forM_eq_ok]
  constructor
  · intro h value hvalue
    obtain ⟨index, hindex, rfl⟩ := List.getElem_of_mem hvalue
    have hmem : (values[index], index) ∈ values.zipIdx := by
      rw [List.mk_mem_zipIdx_iff_getElem?, List.getElem?_eq_getElem hindex]
    exact require_eq_ok.1 (h _ hmem)
  · rintro h ⟨item, index⟩ hmem
    exact require_eq_ok.2 (h item (List.fst_mem_of_mem_zipIdx hmem))

theorem requireOption_eq_ok {fieldName : String} {value : Option String} :
    value.toList.forM (requireId fieldName) = .ok u ↔ ∀ text ∈ value, isBlank text = false := by
  rw [show u = PUnit.unit from rfl, forM_eq_ok]
  cases value with
  | none => simp
  | some text => simp

/-! ## The values a pass builds -/

theorem ManifestOmission.build_eq_ok {omission omission' : ManifestOmission} :
    omission.build = .ok omission' ↔ (isBlank omission.reasonCode = false ∧
      isBlank omission.safeReason = false ∧ ∀ ref ∈ omission.itemVersionRef, isBlank ref = false) ∧
      omission' = omission := by
  rw [@eq_comm _ omission' omission]
  simp only [ManifestOmission.build, bind_eq_ok, requireId_eq_ok, requireOption_eq_ok, exists_unit,
    pure_eq_ok, and_assoc]

theorem SelectedContextItem.build_eq_ok {item item' : SelectedContextItem} :
    item.build = .ok item' ↔ (isBlank item.itemVersionRef = false ∧
      isBlank item.selectionReason = false ∧ (∀ ref ∈ item.sourceSpanRefs, isBlank ref = false) ∧
      ∀ ref ∈ item.applicabilityResultRef, isBlank ref = false) ∧ item' = item := by
  rw [@eq_comm _ item' item]
  simp only [SelectedContextItem.build, bind_eq_ok, requireId_eq_ok, requireStrTuple_eq_ok,
    requireOption_eq_ok, exists_unit, pure_eq_ok, and_assoc]

/-! ## What a position contributes -/

/-- The lists of two passes one after the other. -/
def Selection.append (s t : Selection) : Selection where
  selectedPositions := s.selectedPositions ++ t.selectedPositions
  selectedItems := s.selectedItems ++ t.selectedItems
  applicabilityResults := s.applicabilityResults ++ t.applicabilityResults
  omissions := s.omissions ++ t.omissions
  overdue := s.overdue ++ t.overdue

def Reaches (call : Stage1Call) (position : OrganisationalPosition) : Prop :=
  exclusion call position = none ∧
    ¬(reviewOverdue call position = true ∧ call.profile.freshnessPolicy = .strict)

instance (call : Stage1Call) (position : OrganisationalPosition) :
    Decidable (Reaches call position) := by
  unfold Reaches
  infer_instance

variable (reprOf : String → String)

/-- The result of a position that is evaluated. -/
def evaluated (call : Stage1Call) (position : OrganisationalPosition) : Option ApplicabilityResult :=
  if Reaches call position then
    position.requiredConditions.bind fun required =>
      (evaluateApplicability reprOf required (position.exceptions.map (·.condition)) call.facts
        position.versionRef).toOption
  else none

/-- The item of a position that is selected. -/
def itemOf (facts : FactSnapshot) (position : OrganisationalPosition) : SelectedContextItem where
  itemVersionRef := position.versionRef
  authorityClass := .admittedKnowledge
  selectionReason := "Applicable admitted organisational position."
  sourceSpanRefs := position.supportingEvidenceRefs
  applicabilityResultRef := some s!"{facts.factSnapshotRef}:{position.versionRef}"

/-- The position is evaluated and found applicable. -/
def FoundApplicable (call : Stage1Call) (position : OrganisationalPosition) : Prop :=
  ∃ result ∈ evaluated reprOf call position, result.outcome = .applicable

instance (call : Stage1Call) (position : OrganisationalPosition) :
    Decidable (FoundApplicable reprOf call position) := by
  unfold FoundApplicable
  infer_instance

/-- The omission of a position that is left out in the first pass. -/
def omissionOf (call : Stage1Call) (position : OrganisationalPosition) : Option ManifestOmission :=
  match exclusion call position with
  | some (reasonCode, safeReason) => some ⟨reasonCode, safeReason, some position.versionRef⟩
  | none =>
    if reviewOverdue call position = true ∧ call.profile.freshnessPolicy = .strict then
      some ⟨"review_overdue", "Review-overdue knowledge was excluded by profile policy.",
        some position.versionRef⟩
    else
      (evaluated reprOf call position).bind fun result =>
        if result.outcome = .applicable then none
        else some ⟨result.outcome.value, " ".intercalate result.reasons, some position.versionRef⟩

def contribution (call : Stage1Call) (position : OrganisationalPosition) : Selection where
  selectedPositions := if FoundApplicable reprOf call position then [position] else []
  selectedItems := if FoundApplicable reprOf call position then [itemOf call.facts position] else []
  applicabilityResults := (evaluated reprOf call position).toList
  omissions := (omissionOf reprOf call position).toList
  overdue := if exclusion call position = none ∧ reviewOverdue call position = true then
    [position.versionRef] else []

/-- The pass can record the position: it is of the workspace, and if it is evaluated the evaluation
answers with an outcome that can be written down. -/
def Recordable (call : Stage1Call) (position : OrganisationalPosition) : Prop :=
  position.workspaceId = call.profile.workspaceId ∧ (Reaches call position →
    ∃ result, evaluated reprOf call position = some result ∧
      if result.outcome = .applicable then
        ∀ ref ∈ position.supportingEvidenceRefs, isBlank ref = false
      else isBlank (" ".intercalate result.reasons) = false)

variable {reprOf} {call : Stage1Call} {position : OrganisationalPosition} {selection after : Selection}

theorem leaveOut_eq_ok {versionRef reasonCode safeReason : String} (href : isBlank versionRef = false)
    (hcode : isBlank reasonCode = false) :
    selection.leaveOut versionRef reasonCode safeReason = .ok after ↔
      isBlank safeReason = false ∧ after = { selection with
        omissions := selection.omissions ++ [⟨reasonCode, safeReason, some versionRef⟩] } := by
  simp only [Selection.leaveOut, bind_eq_ok, ManifestOmission.build_eq_ok, pure_eq_ok, hcode,
    Option.mem_some_iff, forall_eq', href, true_and, and_true]
  constructor
  · rintro ⟨_, ⟨hsafe, rfl⟩, rfl⟩
    exact ⟨hsafe, rfl⟩
  · rintro ⟨hsafe, rfl⟩
    exact ⟨_, ⟨hsafe, rfl⟩, rfl⟩

theorem isBlank_resultRef (facts : FactSnapshot) (position : OrganisationalPosition) :
    isBlank s!"{facts.factSnapshotRef}:{position.versionRef}" = false := by
  have hshape : s!"{facts.factSnapshotRef}:{position.versionRef}" =
      facts.factSnapshotRef ++ ":" ++ position.versionRef := rfl
  rw [hshape, isBlank_append, isBlank_append, facts.factSnapshotRef_valid]
  rfl

theorem select_eq_ok {facts : FactSnapshot} :
    selection.select facts position = .ok after ↔
      (∀ ref ∈ position.supportingEvidenceRefs, isBlank ref = false) ∧ after = { selection with
        selectedPositions := selection.selectedPositions ++ [position]
        selectedItems := selection.selectedItems ++ [itemOf facts position] } := by
  have hreason : isBlank "Applicable admitted organisational position." = false := by decide
  simp only [Selection.select, bind_eq_ok, SelectedContextItem.build_eq_ok, pure_eq_ok,
    position.versionRef_valid, hreason, Option.mem_some_iff, forall_eq', isBlank_resultRef, true_and,
    and_true]
  constructor
  · rintro ⟨_, ⟨hrefs, rfl⟩, rfl⟩
    exact ⟨hrefs, rfl⟩
  · rintro ⟨hrefs, rfl⟩
    exact ⟨_, ⟨hrefs, rfl⟩, rfl⟩

theorem isBlank_exclusion {reasonCode safeReason : String}
    (h : exclusion call position = some (reasonCode, safeReason)) :
    isBlank reasonCode = false ∧ isBlank safeReason = false := by
  unfold exclusion at h
  repeat' split at h
  all_goals first
    | cases h; done
    | (obtain ⟨rfl, rfl⟩ := Prod.mk.inj (Option.some.inj h)
       decide)

theorem evaluated_of_not_reaches (h : ¬Reaches call position) : evaluated reprOf call position = none :=
  if_neg h

theorem not_foundApplicable (h : evaluated reprOf call position = none) :
    ¬FoundApplicable reprOf call position := by
  rintro ⟨result, hresult, -⟩
  rw [h] at hresult
  cases hresult

theorem foundApplicable_iff {result : ApplicabilityResult}
    (h : evaluated reprOf call position = some result) :
    FoundApplicable reprOf call position ↔ result.outcome = .applicable := by
  rw [FoundApplicable, h]
  simp

theorem isBlank_outcome (outcome : ApplicabilityOutcome) : isBlank outcome.value = false := by
  cases outcome <;> decide

theorem contribution_of_not_reaches (h : ¬Reaches call position) :
    contribution reprOf call position =
      ⟨[], [], [], (omissionOf reprOf call position).toList,
        if exclusion call position = none ∧ reviewOverdue call position = true then
          [position.versionRef] else []⟩ := by
  have hnone : evaluated reprOf call position = none := evaluated_of_not_reaches h
  have hfound := not_foundApplicable hnone
  rw [contribution, if_neg hfound, if_neg hfound, hnone]
  rfl

theorem evaluated_contribution {result : ApplicabilityResult} (hreaches : Reaches call position)
    (hresult : evaluated reprOf call position = some result) :
    contribution reprOf call position =
      if result.outcome = .applicable then
        ⟨[position], [itemOf call.facts position], [result], [],
          if reviewOverdue call position = true then [position.versionRef] else []⟩
      else
        ⟨[], [], [result],
          [⟨result.outcome.value, " ".intercalate result.reasons, some position.versionRef⟩],
          if reviewOverdue call position = true then [position.versionRef] else []⟩ := by
  have homission : omissionOf reprOf call position =
      if result.outcome = .applicable then none
      else some ⟨result.outcome.value, " ".intercalate result.reasons, some position.versionRef⟩ := by
    rw [omissionOf, hreaches.1]
    dsimp only
    rw [if_neg hreaches.2, hresult]
    rfl
  rw [contribution, homission, hresult]
  simp only [foundApplicable_iff hresult, hreaches.1, true_and]
  split <;> rfl

/-- One position: what the body of the loop adds, and when it does not raise. -/
theorem considerPosition_eq_ok :
    considerPosition reprOf call selection position = .ok after ↔
      Recordable reprOf call position ∧
        after = selection.append (contribution reprOf call position) := by
  unfold considerPosition Recordable
  rw [bind_eq_ok]
  simp only [require_eq_ok, exists_unit, and_assoc]
  refine and_congr_right fun _ => ?_
  cases hexclusion : exclusion call position with
  | some reason =>
    obtain ⟨reasonCode, safeReason⟩ := reason
    obtain ⟨hcode, hsafe⟩ := isBlank_exclusion hexclusion
    have hreaches : ¬Reaches call position := fun h => by
      rw [h.1] at hexclusion
      cases hexclusion
    have homission : omissionOf reprOf call position =
        some ⟨reasonCode, safeReason, some position.versionRef⟩ := by
      rw [omissionOf, hexclusion]
    dsimp only
    rw [leaveOut_eq_ok position.versionRef_valid hcode, contribution_of_not_reaches hreaches,
      homission, hexclusion, if_neg (fun h => by cases h.1)]
    simp [hsafe, hreaches, Selection.append]
  | none =>
    dsimp only
    by_cases hstrict : reviewOverdue call position = true ∧ call.profile.freshnessPolicy = .strict
    · have hreaches : ¬Reaches call position := fun h => h.2 hstrict
      have homission : omissionOf reprOf call position =
          some ⟨"review_overdue", "Review-overdue knowledge was excluded by profile policy.",
            some position.versionRef⟩ := by
        rw [omissionOf, hexclusion]
        exact if_pos hstrict
      have hsafe : isBlank "Review-overdue knowledge was excluded by profile policy." = false := by
        decide
      rw [if_pos hstrict, leaveOut_eq_ok position.versionRef_valid (by decide),
        contribution_of_not_reaches hreaches, homission,
        if_pos (show exclusion call position = none ∧ _ from ⟨hexclusion, hstrict.1⟩)]
      simp [hsafe, hreaches, hstrict.1, Selection.append]
    · have hreaches : Reaches call position := ⟨hexclusion, hstrict⟩
      rw [if_neg hstrict]
      cases hrequired : position.requiredConditions with
      | none =>
        have hnone : evaluated reprOf call position = none := by
          rw [evaluated, if_pos hreaches, hrequired]
          rfl
        refine iff_of_false (fun h => by cases h) ?_
        rintro ⟨h, -⟩
        obtain ⟨result, hresult, -⟩ := h hreaches
        rw [hnone] at hresult
        cases hresult
      | some required =>
        dsimp only
        rw [bind_eq_ok]
        cases hevaluate : evaluateApplicability reprOf required (position.exceptions.map (·.condition))
            call.facts position.versionRef with
        | error e =>
          have hnone : evaluated reprOf call position = none := by
            rw [evaluated, if_pos hreaches, hrequired, Option.bind_some, hevaluate]
            rfl
          refine iff_of_false ?_ ?_
          · rintro ⟨_, h, -⟩
            cases h
          rintro ⟨h, -⟩
          obtain ⟨result, hresult, -⟩ := h hreaches
          rw [hnone] at hresult
          cases hresult
        | ok result =>
          have hresult : evaluated reprOf call position = some result := by
            rw [evaluated, if_pos hreaches, hrequired, Option.bind_some, hevaluate]
            rfl
          rw [evaluated_contribution hreaches hresult]
          simp only [Except.ok.injEq, exists_eq_left', hreaches, true_imp_iff, hresult,
            Option.some.injEq]
          by_cases happlicable : result.outcome = .applicable
          · rw [if_pos happlicable, if_pos happlicable, if_pos happlicable, select_eq_ok]
            refine and_congr_right fun _ => ?_
            split <;> simp [Selection.append, *]
          · rw [if_neg happlicable, if_neg happlicable, if_neg happlicable,
              leaveOut_eq_ok position.versionRef_valid (isBlank_outcome _)]
            refine and_congr_right fun _ => ?_
            split <;> simp [Selection.append, *]

/-! ## The whole pass -/

variable {positions : List OrganisationalPosition}

/-- What the positions of a list contribute. -/
def contributions (reprOf : String → String) (call : Stage1Call)
    (positions : List OrganisationalPosition) : Selection where
  selectedPositions := positions.filter fun p => FoundApplicable reprOf call p
  selectedItems := (positions.filter fun p => FoundApplicable reprOf call p).map (itemOf call.facts)
  applicabilityResults := positions.filterMap (evaluated reprOf call)
  omissions := positions.filterMap (omissionOf reprOf call)
  overdue := (positions.filter fun p =>
    exclusion call p = none ∧ reviewOverdue call p = true).map (·.versionRef)

theorem contributions_cons (p : OrganisationalPosition) (positions : List OrganisationalPosition) :
    contributions reprOf call (p :: positions) =
      (contribution reprOf call p).append (contributions reprOf call positions) := by
  unfold contributions contribution Selection.append
  rw [Selection.mk.injEq]
  refine ⟨?_, ?_, ?_, ?_, ?_⟩
  · rw [List.filter_cons]
    by_cases h : FoundApplicable reprOf call p <;> simp [h]
  · rw [List.filter_cons]
    by_cases h : FoundApplicable reprOf call p <;> simp [h]
  · rw [List.filterMap_cons]
    cases evaluated reprOf call p <;> rfl
  · rw [List.filterMap_cons]
    cases omissionOf reprOf call p <;> rfl
  · rw [List.filter_cons]
    by_cases h : exclusion call p = none ∧ reviewOverdue call p = true <;> simp [h]

theorem append_assoc (s t u : Selection) : (s.append t).append u = s.append (t.append u) := by
  simp [Selection.append]

/-- The loop: every position is recorded, and the lists hold what the positions contribute. -/
theorem foldlM_considerPosition :
    positions.foldlM (considerPosition reprOf call) selection = .ok after ↔
      (∀ p ∈ positions, Recordable reprOf call p) ∧
        after = selection.append (contributions reprOf call positions) := by
  induction positions generalizing selection with
  | nil =>
    have hnil : selection.append (contributions reprOf call []) = selection := by
      simp [Selection.append, contributions]
    rw [List.foldlM_nil, pure_eq_ok, hnil]
    simp [eq_comm]
  | cons p positions ih =>
    rw [List.foldlM_cons, bind_eq_ok, contributions_cons, ← append_assoc, List.forall_mem_cons]
    simp only [considerPosition_eq_ok, ih]
    constructor
    · rintro ⟨_, ⟨hp, rfl⟩, hpositions, rfl⟩
      exact ⟨⟨hp, hpositions⟩, rfl⟩
    · rintro ⟨⟨hp, hpositions⟩, rfl⟩
      exact ⟨_, ⟨hp, rfl⟩, hpositions, rfl⟩

/-! ## Contested positions -/

theorem mem_contestedPositions {applicable : List String} {contradictions : List (String × String)}
    {name : String} :
    name ∈ contestedPositions applicable contradictions ↔
      ∃ pair ∈ contradictions, pair.1 ∈ applicable ∧ pair.2 ∈ applicable ∧
        (name = pair.1 ∨ name = pair.2) := by
  have hfold : ∀ (pairs : List (String × String)) (start : Finset String),
      name ∈ pairs.foldl (fun contested pair => insert pair.2 (insert pair.1 contested)) start ↔
        name ∈ start ∨ ∃ pair ∈ pairs, name = pair.1 ∨ name = pair.2 := by
    intro pairs
    induction pairs with
    | nil => simp
    | cons pair pairs ih =>
      intro start
      rw [List.foldl_cons, ih, List.exists_mem_cons_iff, Finset.mem_insert, Finset.mem_insert]
      simp only [or_assoc, or_left_comm]
  rw [contestedPositions, hfold]
  simp only [Finset.notMem_empty, false_or, List.mem_filter, decide_eq_true_eq, and_assoc]

/-- A contested version is of a selected position. -/
theorem mem_contested {name : String} (h : name ∈ selection.contested) :
    ∃ position ∈ selection.selectedPositions, position.versionRef = name := by
  obtain ⟨pair, -, hleft, hright, hname⟩ := mem_contestedPositions.1 h
  rcases hname with rfl | rfl
  · exact List.mem_map.1 hleft
  · exact List.mem_map.1 hright

def contestedOmission (versionRef : String) : ManifestOmission where
  reasonCode := "contested"
  safeReason := "Conflicting applicable knowledge requires authorised review."
  itemVersionRef := some versionRef

def Selection.uncontested (selection : Selection) : Selection where
  selectedPositions := selection.selectedPositions.filter fun position =>
    position.versionRef ∉ selection.contested
  selectedItems := selection.selectedItems.filter fun item =>
    item.itemVersionRef ∉ selection.contested
  applicabilityResults := selection.applicabilityResults.map fun result =>
    if result.positionVersionRef ∈ selection.contested then result.contest else result
  omissions := selection.omissions ++ (selection.contested.sort (· ≤ ·)).map contestedOmission
  overdue := selection.overdue

theorem removeContested_eq (selection : Selection) :
    selection.removeContested = .ok selection.uncontested := by
  have homissions : (selection.contested.sort (· ≤ ·)).mapM (fun versionRef =>
      ManifestOmission.build ⟨"contested",
        "Conflicting applicable knowledge requires authorised review.", some versionRef⟩) =
      .ok ((selection.contested.sort (· ≤ ·)).map contestedOmission) := by
    rw [mapM_eq_ok, List.forall₂_map_right_iff, List.forall₂_same]
    intro versionRef hversionRef
    obtain ⟨position, -, rfl⟩ := mem_contested ((Finset.mem_sort _).1 hversionRef)
    have hcode : isBlank "contested" = false := by decide
    have hsafe : isBlank "Conflicting applicable knowledge requires authorised review." = false := by
      decide
    refine ManifestOmission.build_eq_ok.2 ⟨⟨hcode, hsafe, ?_⟩, rfl⟩
    simp [position.versionRef_valid]
  unfold Selection.removeContested
  dsimp only
  rw [homissions]
  rfl

end OmniviaCore.Knowledge
