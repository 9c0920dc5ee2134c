import OmniviaCore.Connector.Admission

/-!
# What admission lets through

`validate_batch` compares the resolved material with the cursor payload, every locator and every failure
detail. The other fields of an observation and the identity of a failure become durable with them and are
compared with nothing, so an admitted verdict is free of the material exactly when these fields are.
-/

namespace OmniviaCore.Connector

open Lib

variable {sha256 : Bytes → Bytes} {resolved : List Bytes}

/-- The field has a resolved material in it, verbatim or in a declared encoding. -/
def Exposes (resolved : List Bytes) (field : Bytes) : Prop :=
  ∃ material ∈ resolved, ∃ form ∈ declaredEncodings material, form ≠ [] ∧ form <:+: field

theorem containsKnownMaterial_iff {field : Bytes} :
    containsKnownMaterial field resolved = true ↔ Exposes resolved field := by
  simp [containsKnownMaterial, Exposes]

theorem not_exposes_iff {field : Bytes} :
    ¬ Exposes resolved field ↔ containsKnownMaterial field resolved = false := by
  rw [← containsKnownMaterial_iff, Bool.not_eq_true]

/-! ## Authored fields -/

/-- The fields of an observation that are compared with nothing. -/
def Observation.uncompared (observation : Observation) : List Bytes :=
  encodeText observation.sourceNativeId :: encodeText observation.metadataJson ::
    (observation.sourceVersion.toList ++ observation.mediaType.toList ++
      observation.permissionLabels).map encodeText

/-- The text fields of an observation. -/
def Observation.authored (observation : Observation) : List Bytes :=
  encodeText observation.sourceLocator :: observation.uncompared

def ItemFailure.authored (failure : ItemFailure) : List Bytes :=
  [encodeText failure.sourceNativeId, encodeText failure.detail]

/-- The connector-authored fields of a verdict. -/
def BatchVerdict.authored (verdict : BatchVerdict) : List Bytes :=
  verdict.successor.state.payload :: (verdict.observations.flatMap Observation.authored ++
    verdict.itemFailures.flatMap ItemFailure.authored)

/-- No authored field has a resolved material in it. -/
def BatchVerdict.Confidential (verdict : BatchVerdict) (resolved : List Bytes) : Prop :=
  ∀ field ∈ verdict.authored, ¬ Exposes resolved field

variable {batch : Batch} {ctx : PollContext} {record : CursorRecord} {descriptor : ConnectorDescriptor}
  {nowUs runBytesSpent : Nat} {labels : Option (List String)} {authorized : Bool}
  {verdict : BatchVerdict}

theorem Admits.payload_clean
    (h : Admits sha256 batch ctx record descriptor nowUs runBytesSpent resolved labels authorized
      verdict) : ¬ Exposes resolved batch.successorCursor.payload :=
  not_exposes_iff.mpr (h.clean _ (List.mem_append_left _ List.mem_cons_self))

theorem Admits.locator_clean
    (h : Admits sha256 batch ctx record descriptor nowUs runBytesSpent resolved labels authorized
      verdict) {o : Observation} (ho : o ∈ batch.observations) :
    ¬ Exposes resolved (encodeText o.sourceLocator) := by
  refine not_exposes_iff.mpr (h.clean _ (List.mem_append_left _ (List.mem_cons_of_mem _ ?_)))
  exact List.mem_map.mpr ⟨o, ho, rfl⟩

theorem Admits.detail_clean
    (h : Admits sha256 batch ctx record descriptor nowUs runBytesSpent resolved labels authorized
      verdict) {failure : ItemFailure} (hfailure : failure ∈ failuresOf ctx batch) :
    ¬ Exposes resolved (encodeText failure.detail) :=
  not_exposes_iff.mpr (h.clean _ (List.mem_append_right _ (List.mem_map.mpr ⟨failure, hfailure, rfl⟩)))

theorem mem_of_mem_admittedOf {o : Observation} (h : o ∈ admittedOf ctx authorized batch) :
    o ∈ batch.observations :=
  (mem_acceptable.mp (mem_of_mem_unrepeated (mem_reported.mp h).1)).1

/-- An admitted verdict is free of the resolved material exactly when the fields that were compared with
nothing are. -/
theorem admitted_batch_confidential_iff
    (hadmitted : validateBatch sha256 batch ctx record descriptor nowUs runBytesSpent resolved labels
      authorized = .ok verdict) :
    verdict.Confidential resolved ↔
      (∀ o ∈ admittedOf ctx authorized batch, ∀ field ∈ o.uncompared, ¬ Exposes resolved field) ∧
        ∀ failure ∈ failuresOf ctx batch, ¬ Exposes resolved (encodeText failure.sourceNativeId) := by
  have h := validateBatch_eq_ok_iff.mp hadmitted
  simp only [BatchVerdict.Confidential, BatchVerdict.authored, h.observations_eq, h.itemFailures_eq,
    h.successor_eq, List.mem_cons, List.mem_append, List.mem_flatMap]
  constructor
  · intro hclean
    refine ⟨fun o ho field hfield => ?_, fun failure hfailure => ?_⟩
    · exact hclean field (Or.inr (Or.inl ⟨o, ho, List.mem_cons_of_mem _ hfield⟩))
    · exact hclean _ (Or.inr (Or.inr ⟨failure, hfailure, List.mem_cons_self⟩))
  · rintro ⟨huncompared, hidentity⟩ field (rfl | ⟨o, ho, hfield⟩ | ⟨failure, hfailure, hfield⟩)
    · exact h.payload_clean
    · rcases List.mem_cons.mp hfield with rfl | hfield
      · exact h.locator_clean (mem_of_mem_admittedOf ho)
      · exact huncompared o ho field hfield
    · simp only [ItemFailure.authored, List.mem_cons, List.not_mem_nil, or_false] at hfield
      rcases hfield with rfl | rfl
      · exact hidentity failure hfailure
      · exact h.detail_clean hfailure

/-! ### A poll that resolved a password -/

/-- The bytes of a password. -/
def resolvedPassword : Bytes := encodeText "hunter2"

/-- A report whose metadata document is given. -/
def reportWith (metadataJson : String) : Observation :=
  ⟨"a", "a.txt", 1, none, none, none, [], .none, metadataJson, none⟩

theorem admitted_batch_confidential_plain :
    ∃ verdict, validateBatch pollDigest ⟨[reportWith "\x7b\x7d"], polledState, []⟩ filesContext
        genesisRecord filesDescriptor 0 0 [resolvedPassword] none false = .ok verdict ∧
      (verdict.Confidential [resolvedPassword] ↔
        (∀ o ∈ admittedOf filesContext false ⟨[reportWith "\x7b\x7d"], polledState, []⟩,
          ∀ field ∈ o.uncompared, ¬ Exposes [resolvedPassword] field) ∧
        ∀ failure ∈ failuresOf filesContext ⟨[reportWith "\x7b\x7d"], polledState, []⟩,
          ¬ Exposes [resolvedPassword] (encodeText failure.sourceNativeId)) := by
  have hadmitted : (validateBatch pollDigest ⟨[reportWith "\x7b\x7d"], polledState, []⟩ filesContext
    genesisRecord filesDescriptor 0 0 [resolvedPassword] none false).isOk = true := by decide +kernel
  obtain ⟨verdict, h⟩ := exists_ok_of_isOk hadmitted
  exact ⟨verdict, h, admitted_batch_confidential_iff h⟩

/-- The password itself passes as the metadata document of an observation. -/
theorem metadata_exposes_password :
    ∃ verdict, validateBatch pollDigest ⟨[reportWith "hunter2"], polledState, []⟩ filesContext
        genesisRecord filesDescriptor 0 0 [resolvedPassword] none false = .ok verdict ∧
      ¬ verdict.Confidential [resolvedPassword] := by
  have hadmitted : (validateBatch pollDigest ⟨[reportWith "hunter2"], polledState, []⟩ filesContext
    genesisRecord filesDescriptor 0 0 [resolvedPassword] none false).isOk = true := by decide +kernel
  obtain ⟨verdict, h⟩ := exists_ok_of_isOk hadmitted
  refine ⟨verdict, h, fun hclean => ?_⟩
  have hobservations := (validateBatch_eq_ok_iff.mp h).observations_eq
  have hmem : reportWith "hunter2" ∈ verdict.observations := by
    rw [hobservations]
    decide +kernel
  have hfield : resolvedPassword ∈ verdict.authored := by
    refine List.mem_cons_of_mem _ (List.mem_append_left _ (List.mem_flatMap.mpr ⟨_, hmem, ?_⟩))
    exact List.mem_cons_of_mem _ (List.mem_cons_of_mem _ List.mem_cons_self)
  exact not_exposes_iff.not.mpr (by decide +kernel) (hclean _ hfield)

end OmniviaCore.Connector
