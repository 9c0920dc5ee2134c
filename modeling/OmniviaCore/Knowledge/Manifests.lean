import OmniviaCore.Knowledge.AssemblyPass

/-!
# Manifests and their digest

What the checks of a manifest ask for (`build_eq_ok`), and that its content has canonical bytes exactly when
its two numbers do (`computeSelectionManifestDigest_isOk`): every other member is a text, a flag or a list
of them. The digest leaves out the identity it becomes part of, so a sealed manifest verifies.
-/

namespace OmniviaCore.Knowledge

open Lib CanonicalJson

variable {m m' : ContextSelectionManifest}

/-! ## The checks -/

/-- The fields of a manifest that must not be blank. -/
def ContextSelectionManifest.ids (m : ContextSelectionManifest) : List String :=
  [m.manifestId, m.profileVersionRef, m.workspaceId, m.purpose, m.consumerRef, m.consumerDeploymentRef,
    m.requestRef, m.semanticModelVersionRef, m.policyVersion, m.integrityAlgorithm]

/-- The lists of a manifest that hold no blank text. -/
def ContextSelectionManifest.refs (m : ContextSelectionManifest) : List String :=
  m.checkpointRefs ++ m.selectedItemRefs ++ m.selectionReasons ++ m.transformationNotes ++
    m.reviewOverdueItemRefs ++ m.retrievalMechanisms ++ m.recheckConditions

/-- What `ContextSelectionManifest.__post_init__` asks for. -/
structure ContextSelectionManifest.Checked (m : ContextSelectionManifest) : Prop where
  ids : ∀ text ∈ m.ids, isBlank text = false
  refs : ∀ text ∈ m.refs, isBlank text = false
  effectiveByteBound : 0 < m.effectiveByteBound
  issuerClass : m.issuerClass = "core_issued"

theorem ContextSelectionManifest.build_eq_ok : m.build = .ok m' ↔ m.Checked ∧ m' = m := by
  rw [@eq_comm _ m' m]
  simp only [ContextSelectionManifest.build, bind_eq_ok, requireId_eq_ok, requireStrTuple_eq_ok,
    require_eq_ok, exists_unit, pure_eq_ok]
  constructor
  · rintro ⟨h₁, h₂, h₃, h₄, h₅, h₆, h₇, h₈, h₉, r₁, r₂, r₃, r₄, r₅, r₆, r₇, hbound, hissuer, h₁₀, hm⟩
    refine ⟨⟨?_, ?_, hbound, hissuer⟩, hm⟩
    · simp only [ContextSelectionManifest.ids, List.forall_mem_cons]
      exact ⟨h₁, h₂, h₃, h₄, h₅, h₆, h₇, h₈, h₉, h₁₀, fun _ h => absurd h List.not_mem_nil⟩
    · simp only [ContextSelectionManifest.refs, List.forall_mem_append]
      exact ⟨⟨⟨⟨⟨⟨r₁, r₂⟩, r₃⟩, r₄⟩, r₅⟩, r₆⟩, r₇⟩
  · rintro ⟨⟨hids, hrefs, hbound, hissuer⟩, hm⟩
    simp only [ContextSelectionManifest.ids, List.forall_mem_cons] at hids
    simp only [ContextSelectionManifest.refs, List.forall_mem_append] at hrefs
    obtain ⟨h₁, h₂, h₃, h₄, h₅, h₆, h₇, h₈, h₉, h₁₀, -⟩ := hids
    obtain ⟨⟨⟨⟨⟨⟨r₁, r₂⟩, r₃⟩, r₄⟩, r₅⟩, r₆⟩, r₇⟩ := hrefs
    exact ⟨h₁, h₂, h₃, h₄, h₅, h₆, h₇, h₈, h₉, r₁, r₂, r₃, r₄, r₅, r₆, r₇, hbound, hissuer, h₁₀, hm⟩

/-! ## The content is accepted -/

variable {depth : ℕ}

theorem accepted_optionalText (h : depth ≤ JCS_MAX_NESTING_DEPTH) (text : Option String) :
    Accepted depth (optionalText text) := by
  cases text with
  | none => exact .none h
  | some text => exact accepted_textValue h text

theorem accepted_textList (h : depth + 1 ≤ JCS_MAX_NESTING_DEPTH) (texts : List String) :
    Accepted depth (textList texts) := by
  refine .sequence (by omega) fun value hvalue => ?_
  obtain ⟨text, -, rfl⟩ := List.mem_map.1 hvalue
  exact accepted_textValue h text

theorem accepted_sequence_map {α : Type} {write : α → Value} {l : List α}
    (hdepth : depth ≤ JCS_MAX_NESTING_DEPTH) (h : ∀ a ∈ l, Accepted (depth + 1) (write a)) :
    Accepted depth (.sequence (l.map write)) := by
  refine .sequence hdepth fun value hvalue => ?_
  obtain ⟨a, ha, rfl⟩ := List.mem_map.1 hvalue
  exact h a ha

theorem accepted_encodeInstant (h : depth + 1 ≤ JCS_MAX_NESTING_DEPTH) (strftime : Instant → String)
    (instant : TemporalInstant) : Accepted depth (encodeInstant strftime instant) := by
  refine (accepted_mappingOf (by simp)).2 ⟨by omega, ?_⟩
  simp only [List.forall_mem_cons]
  exact ⟨accepted_textValue h _, accepted_textValue h _, accepted_textValue h _,
    accepted_optionalText h _, accepted_optionalText h _, fun _ h => absurd h List.not_mem_nil⟩

theorem accepted_itemContent (h : depth + 2 ≤ JCS_MAX_NESTING_DEPTH) (item : SelectedContextItem) :
    Accepted depth item.content := by
  have hmember : depth + 1 ≤ JCS_MAX_NESTING_DEPTH := by omega
  refine (accepted_mappingOf (by simp)).2 ⟨by omega, ?_⟩
  simp only [List.forall_mem_cons]
  exact ⟨accepted_textValue hmember _, accepted_textValue hmember _, accepted_textValue hmember _,
    accepted_textList h _, accepted_optionalText hmember _, fun _ h => absurd h List.not_mem_nil⟩

theorem accepted_omissionContent (h : depth + 1 ≤ JCS_MAX_NESTING_DEPTH) (omission : ManifestOmission) :
    Accepted depth omission.content := by
  refine (accepted_mappingOf (by simp)).2 ⟨by omega, ?_⟩
  simp only [List.forall_mem_cons]
  exact ⟨accepted_textValue h _, accepted_textValue h _, accepted_optionalText h _,
    fun _ h => absurd h List.not_mem_nil⟩

theorem accepted_encodeResult (h : depth + 3 ≤ JCS_MAX_NESTING_DEPTH) (result : ApplicabilityResult) :
    Accepted depth (encodeApplicabilityResult result) := by
  have hmember : depth + 1 ≤ JCS_MAX_NESTING_DEPTH := by omega
  have hitem : depth + 1 + 1 ≤ JCS_MAX_NESTING_DEPTH := by omega
  have hprovenance : ∀ entry ∈ result.factProvenanceClasses, Accepted (depth + 1 + 1)
      (mappingOf [("fact_ref", textValue entry.1), ("provenance_class", textValue entry.2)]) := by
    intro entry _
    refine (accepted_mappingOf (by simp)).2 ⟨hitem, ?_⟩
    simp only [List.forall_mem_cons]
    exact ⟨accepted_textValue h _, accepted_textValue h _, fun _ h => absurd h List.not_mem_nil⟩
  refine (accepted_mappingOf (by simp)).2 ⟨by omega, ?_⟩
  simp only [List.forall_mem_cons]
  exact ⟨accepted_textValue hmember _, accepted_textValue hmember _, accepted_textValue hmember _,
    accepted_textValue hmember _, accepted_textList hitem _, accepted_textList hitem _,
    accepted_sequence_map hmember hprovenance, fun _ h => absurd h List.not_mem_nil⟩

/-- The canonicalizer can write a number down. -/
def IsExactNumber (n : ℕ) : Prop := ∃ number, requireBinary64 [] (.int n) = .ok number

theorem accepted_number {n : ℕ} (h : depth ≤ JCS_MAX_NESTING_DEPTH) :
    Accepted depth (.int n) ↔ IsExactNumber n := by
  constructor
  · rintro (_ | _ | ⟨_, hn⟩)
    exact ⟨_, hn⟩
  · rintro ⟨⟨negative, x⟩, hn⟩
    exact .int h hn

variable {strftime : Instant → String} {sha256 : List UInt8 → String}

def digestedContent (strftime : Instant → String) (m : ContextSelectionManifest) :
    List (String × Value) :=
  (selectionManifestToContent strftime m).filter fun member =>
    member.1 ≠ "manifest_id" ∧ member.1 ≠ "integrity_digest"

theorem accepted_digestedContent :
    Accepted 0 (mappingOf (digestedContent strftime m)) ↔
      IsExactNumber m.effectiveByteBound ∧ ∀ n ∈ m.measuredBytes, IsExactNumber n := by
  have hnodup : ((digestedContent strftime m).map Prod.fst).Nodup := by
    refine List.Nodup.sublist (List.Sublist.map _ List.filter_sublist) ?_
    simp [selectionManifestToContent]
  have hone : 0 + 1 ≤ JCS_MAX_NESTING_DEPTH := by decide
  have htwo : 0 + 1 + 1 ≤ JCS_MAX_NESTING_DEPTH := by decide
  rw [accepted_mappingOf hnodup]
  constructor
  · rintro ⟨-, hmembers⟩
    constructor
    · refine (accepted_number hone).1 (hmembers ("effective_byte_bound", .int m.effectiveByteBound) ?_)
      simp [digestedContent, selectionManifestToContent]
    · intro n hn
      refine (accepted_number hone).1 (hmembers ("measured_bytes", .int n) ?_)
      rw [Option.mem_def] at hn
      simp [digestedContent, selectionManifestToContent, hn]
  · rintro ⟨hbound, hmeasured⟩
    have hnumber : Accepted (0 + 1) (m.measuredBytes.elim .none fun n => .int n) := by
      cases hn : m.measuredBytes with
      | none => exact .none hone
      | some n => exact (accepted_number hone).2 (hmeasured n hn)
    suffices hall : ∀ member ∈ selectionManifestToContent strftime m, Accepted (0 + 1) member.2 from
      ⟨by decide, fun member hmember => hall member (List.mem_of_mem_filter hmember)⟩
    simp only [selectionManifestToContent, List.forall_mem_cons]
    and_intros
    all_goals first
      | exact accepted_textValue hone _
      | exact accepted_textList htwo _
      | exact accepted_optionalText hone _
      | exact accepted_encodeInstant htwo strftime _
      | exact .bool hone _
      | exact hnumber
      | exact (accepted_number hone).2 hbound
      | exact accepted_sequence_map hone fun item _ => accepted_itemContent (by decide) item
      | exact accepted_sequence_map hone fun result _ => accepted_encodeResult (by decide) result
      | exact accepted_sequence_map hone fun omission _ =>
          accepted_omissionContent (by decide) omission
      | exact fun _ h => absurd h List.not_mem_nil

theorem canonicalBytes_isOk {value : Value} :
    (∃ payload, canonicalBytes value [] = .ok payload) ↔ Accepted 0 value := by
  have htree := canonicalizeInto_eq_ok value [] 0
  simp only [canonicalBytes, canonicalize, bind_eq_ok, pure_eq_ok, htree]
  constructor
  · rintro ⟨payload, text, ⟨haccepted, -⟩, -⟩
    exact haccepted
  · intro haccepted
    exact ⟨_, _, ⟨haccepted, rfl⟩, rfl⟩

/-- A manifest has a digest when its numbers can be written down. -/
theorem computeSelectionManifestDigest_isOk :
    (∃ digest, computeSelectionManifestDigest strftime sha256 m = .ok digest) ↔
      IsExactNumber m.effectiveByteBound ∧ ∀ n ∈ m.measuredBytes, IsExactNumber n := by
  rw [← @accepted_digestedContent m strftime, ← canonicalBytes_isOk]
  simp only [computeSelectionManifestDigest, bind_eq_ok, pure_eq_ok]
  constructor
  · rintro ⟨digest, payload, hpayload, -⟩
    exact ⟨payload, hpayload⟩
  · rintro ⟨payload, hpayload⟩
    exact ⟨_, payload, hpayload, rfl⟩

/-- The digest does not look at the identity it becomes part of. -/
theorem computeSelectionManifestDigest_congr (manifestId : String) (integrityDigest : Option String) :
    computeSelectionManifestDigest strftime sha256
        { m with manifestId := manifestId, integrityDigest := integrityDigest } =
      computeSelectionManifestDigest strftime sha256 m := by
  unfold computeSelectionManifestDigest
  congr 1

/-! ## Sealing -/

theorem isBlank_manifestId (digest : String) : isBlank s!"manifest-{digest}" = false := by
  have hshape : s!"manifest-{digest}" = "manifest-" ++ digest := by
    simp [toString]
  have hhead : isBlank "manifest-" = false := by decide
  rw [hshape, isBlank_append, hhead]
  rfl

/-- The manifest that is sealed under a digest. -/
def ContextSelectionManifest.sealed (m : ContextSelectionManifest) (digest : String) :
    ContextSelectionManifest :=
  { m with manifestId := s!"manifest-{digestHex digest}", integrityDigest := some digest }

theorem Checked.sealed (h : m.Checked) (digest : String) : (m.sealed digest).Checked where
  ids := by
    have hids := h.ids
    simp only [ContextSelectionManifest.ids, List.forall_mem_cons] at hids ⊢
    exact ⟨isBlank_manifestId _, hids.2⟩
  refs := h.refs
  effectiveByteBound := h.effectiveByteBound
  issuerClass := h.issuerClass

theorem sealManifest_eq_ok :
    sealManifest strftime sha256 m = .ok m' ↔ m.Checked ∧
      ∃ digest, computeSelectionManifestDigest strftime sha256 m = .ok digest ∧
        m' = m.sealed digest := by
  simp only [sealManifest, bind_eq_ok, mapError_eq_ok, ContextSelectionManifest.build_eq_ok]
  constructor
  · rintro ⟨_, ⟨hchecked, rfl⟩, digest, hdigest, -, rfl⟩
    exact ⟨hchecked, digest, hdigest, rfl⟩
  · rintro ⟨hchecked, digest, hdigest, rfl⟩
    exact ⟨_, ⟨hchecked, rfl⟩, digest, hdigest, Checked.sealed hchecked digest, rfl⟩

theorem verify_sealed {digest : String}
    (h : computeSelectionManifestDigest strftime sha256 m = .ok digest) :
    verifySelectionManifestDigest strftime sha256 (m.sealed digest) = .ok true := by
  have hsame : computeSelectionManifestDigest strftime sha256 (m.sealed digest) = .ok digest :=
    (computeSelectionManifestDigest_congr _ _).trans h
  rw [verifySelectionManifestDigest, hsame, ok_bind, pure_eq_ok]
  exact decide_eq_true rfl

/-! ## A whole assembly -/

variable {reprOf : String → String} {call : Stage1Call} {measuredBytes : ℕ}

def finalSelection (reprOf : String → String) (call : Stage1Call) : Selection :=
  (contributions reprOf call (sortBy (·.versionRef) call.positions)).uncontested

/-- The checks before the first pass, of a pack of some size. -/
structure Stage1Call.Admits (call : Stage1Call) (measuredBytes : ℕ) : Prop where
  binding : checkBinding call.profile call.dependency call.contextPack call.profile.purpose = .ok ()
  requiredFacts : ∀ ref ∈ call.profile.requiredFactRefs, (call.facts.facts.get ref).isSome
  packBytes : packBytes call.contextPack = .ok measuredBytes
  byteBound : measuredBytes ≤ call.profile.maxBytes

/-- The item bound, for what both passes leave. -/
def ItemBound (reprOf : String → String) (call : Stage1Call) : Prop :=
  ∀ bound ∈ call.profile.maxItems, totalItems call.contextPack (finalSelection reprOf call) ≤ bound

theorem checkpointRefs_valid (pack : ContextPackBuildResult) :
    ∀ ref ∈ checkpointRefs pack, isBlank ref = false := by
  intro ref href
  obtain ⟨entry, -, rfl⟩ := List.mem_map.1 href
  have hshape : s!"{entry.1}:{entry.2}" = entry.1 ++ (":" ++ entry.2) := by
    simp [toString, String.append_assoc]
  have hcolon : isBlank ":" = false := by decide
  rw [hshape, isBlank_append, isBlank_append, hcolon, Bool.false_and, Bool.and_false]

theorem packRefs_valid (pack : ContextPackBuildResult) :
    ∀ ref ∈ packRefs pack, isBlank ref = false := by
  intro ref href
  obtain ⟨item, -, rfl⟩ := List.mem_map.1 href
  have hshape : s!"{item.recordId}@{item.version}" = item.recordId ++ ("@" ++ item.version) := by
    simp [toString, String.append_assoc]
  have hat : isBlank "@" = false := by decide
  rw [hshape, isBlank_append, isBlank_append, hat, Bool.false_and, Bool.and_false]

theorem versionRefs_valid {positions : List OrganisationalPosition} :
    ∀ ref ∈ positions.map (·.versionRef), isBlank ref = false := by
  intro ref href
  obtain ⟨position, -, rfl⟩ := List.mem_map.1 href
  exact position.versionRef_valid

/-- The manifest passes its checks when the two references of the request are not blank. -/
theorem provisional_checked :
    (provisionalManifest call measuredBytes (finalSelection reprOf call)).Checked ↔
      isBlank call.requestRef = false ∧ isBlank call.semanticModelVersionRef = false := by
  constructor
  · intro h
    exact ⟨h.ids _ (by simp [ContextSelectionManifest.ids, provisionalManifest]),
      h.ids _ (by simp [ContextSelectionManifest.ids, provisionalManifest])⟩
  · rintro ⟨hrequest, hmodel⟩
    have hprofile : ∀ text ∈ [call.profile.versionRef, call.profile.workspaceId, call.profile.purpose],
        isBlank text = false := fun text htext => call.profile.valid text (by
          simp only [List.mem_cons, List.not_mem_nil, or_false] at htext
          rcases htext with rfl | rfl | rfl <;> simp)
    have hconsumer := call.dependency.consumer.valid
    simp only [List.forall_mem_cons] at hprofile hconsumer
    refine ⟨?_, ?_, call.profile.maxBytes_pos, rfl⟩
    · simp only [ContextSelectionManifest.ids, provisionalManifest, List.forall_mem_cons]
      exact ⟨by decide, hprofile.1, hprofile.2.1, hprofile.2.2.1, hconsumer.1, hconsumer.2.2.1,
        hrequest, hmodel, by decide, by decide, fun _ h => absurd h List.not_mem_nil⟩
    · simp only [ContextSelectionManifest.refs, provisionalManifest, List.forall_mem_append]
      exact ⟨⟨⟨⟨⟨⟨checkpointRefs_valid _, packRefs_valid _, versionRefs_valid⟩, by decide⟩, by decide⟩,
        versionRefs_valid⟩, by decide⟩, by decide⟩

/-- An assembly returns exactly when its call is admitted, every position can be recorded, the selection is
in its bound and the manifest can be built and digested; and then the bundle is given. -/
theorem assembleStage1Context_eq_ok {bundle : Stage1ContextBundle} :
    assembleStage1Context reprOf strftime sha256 call = .ok bundle ↔
      ∃ measuredBytes, call.Admits measuredBytes ∧
        (∀ p ∈ call.positions, Recordable reprOf call p) ∧ ItemBound reprOf call ∧
        (isBlank call.requestRef = false ∧ isBlank call.semanticModelVersionRef = false) ∧
        ∃ digest, computeSelectionManifestDigest strftime sha256
            (provisionalManifest call measuredBytes (finalSelection reprOf call)) = .ok digest ∧
          bundle = ⟨call.contextPack, (finalSelection reprOf call).selectedPositions,
            (provisionalManifest call measuredBytes (finalSelection reprOf call)).sealed digest⟩ := by
  have hempty : ∀ s : Selection, Selection.empty.append s = s := fun _ => rfl
  simp only [assembleStage1Context, bind_eq_ok, mapError_eq_ok, require_eq_ok, exists_unit, pure_eq_ok,
    foldlM_considerPosition, hempty, mem_sortBy, removeContested_eq, Except.ok.injEq,
    sealManifest_eq_ok]
  constructor
  · rintro ⟨hbinding, hfacts, measured, hpack, hbound, _, ⟨hrecordable, rfl⟩, _, rfl, hitems, _,
      ⟨hchecked, digest, hdigest, rfl⟩, rfl⟩
    exact ⟨measured, ⟨hbinding, hfacts, hpack, hbound⟩, hrecordable, hitems,
      provisional_checked.1 hchecked, digest, hdigest, rfl⟩
  · rintro ⟨measured, ⟨hbinding, hfacts, hpack, hbound⟩, hrecordable, hitems, hrefs, digest, hdigest,
      rfl⟩
    exact ⟨hbinding, hfacts, measured, hpack, hbound, _, ⟨hrecordable, rfl⟩, _, rfl, hitems, _,
      ⟨provisional_checked.2 hrefs, digest, hdigest, rfl⟩, rfl⟩

end OmniviaCore.Knowledge
