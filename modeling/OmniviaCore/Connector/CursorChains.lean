import OmniviaCore.Connector.Batches
import OmniviaCore.Lib.Digest

/-!
# Chains of cursors

The preimage of a cursor's digest frames its fields, so it tells bindings and states apart
(`cursorDigestPreimage_inj`); where SHA-256 has no collision among some records, so does the digest. A
chain of accepted successors and migrations is then a hash chain (`Step.follows`): its witness never
falls, and no record of it comes back, so a successor is accepted at one place of a chain only.
-/

namespace OmniviaCore.Connector

open Lib

/-! ## The preimage tells states apart -/

theorem length_encodeText_le (text : String) : (encodeText text).length ≤ 4 * text.toList.length := by
  rw [encodeText, List.length_flatMap]
  induction text.toList with
  | nil => simp
  | cons c chars ih =>
    have hsize : (String.utf8EncodeChar c).length ≤ 4 := by
      rw [String.length_utf8EncodeChar]
      exact c.utf8Size_le_four
    simp only [List.map_cons, List.sum_cons, List.length_cons]
    omega

theorem length_identifier_le {text : String} (h : isAsciiIdentifier text = true) :
    text.toList.length ≤ 128 := by
  unfold isAsciiIdentifier at h
  split at h
  · next hnil => simp [hnil]
  · next c rest hcons =>
    simp only [Bool.and_eq_true, decide_eq_true_eq] at h
    rw [hcons, List.length_cons]
    omega

theorem length_repr_le {n : Nat} (h : n ≤ MAX_UNSIGNED) : (Nat.repr n).toList.length ≤ 19 := by
  rw [Nat.toList_repr]
  refine (Nat.length_toDigits_le_iff (by decide) (by decide)).2 (lt_of_le_of_lt h ?_)
  decide

theorem length_payload_le {payload : Bytes} (h : classifyPayload payload = none) :
    payload.length ≤ MAX_CURSOR_PAYLOAD_BYTES := by
  unfold classifyPayload at h
  split at h
  · cases h
  · next hle => exact not_lt.1 hle

theorem cursorDigestFields_length (binding : CursorBinding) (state : CursorState) :
    ∀ field ∈ cursorDigestFields binding state, field.length < 2 ^ 32 := by
  have htext : ∀ text : String, text.toList.length ≤ 128 → (encodeText text).length < 2 ^ 32 :=
    fun text h => lt_of_le_of_lt (length_encodeText_le text) (by omega)
  have hpayload := length_payload_le state.payload_valid
  have hdigest : (state.predecessorDigest.getD []).length ≤ 32 := by
    cases hsome : state.predecessorDigest with
    | none => simp
    | some digest => exact (state.predecessorDigest_length digest hsome).le
  simp only [cursorDigestFields, List.forall_mem_cons]
  refine ⟨by decide, htext _ (length_identifier_le binding.workspaceId_valid),
    htext _ (length_identifier_le binding.connectorId_valid),
    htext _ ((length_repr_le state.stateVersion_le).trans (by decide)),
    lt_of_le_of_lt hpayload (by decide), htext _ ((length_repr_le state.witnessSeq_le).trans (by decide)),
    by omega, by simp⟩

theorem CursorState.ext' {s t : CursorState} (hversion : s.stateVersion = t.stateVersion)
    (hpayload : s.payload = t.payload) (hwitness : s.witnessSeq = t.witnessSeq)
    (hpredecessor : s.predecessorDigest = t.predecessorDigest) : s = t := by
  cases s
  cases t
  simp_all

theorem cursorDigestPreimage_inj {binding binding' : CursorBinding} {state state' : CursorState}
    (h : cursorDigestPreimage binding state = cursorDigestPreimage binding' state') :
    binding = binding' ∧ state = state' := by
  have hfields := flatMap_frame_inj (cursorDigestFields_length binding state)
    (cursorDigestFields_length binding' state') h
  simp only [cursorDigestFields, List.cons.injEq, and_true, true_and] at hfields
  obtain ⟨hworkspace, hconnector, hversion, hpayload, hwitness, hpredecessor⟩ := hfields
  constructor
  · obtain ⟨_, _, _, _⟩ := binding
    obtain ⟨_, _, _, _⟩ := binding'
    cases encodeText_injective hworkspace
    cases encodeText_injective hconnector
    rfl
  · refine CursorState.ext' (Nat.repr_injective (encodeText_injective hversion)) hpayload
      (Nat.repr_injective (encodeText_injective hwitness)) ?_
    -- A digest has 32 bytes, and the frame of an absent one has none.
    have hlength := state.predecessorDigest_length
    have hlength' := state'.predecessorDigest_length
    cases hsome : state.predecessorDigest with
    | none =>
      cases hsome' : state'.predecessorDigest with
      | none => rfl
      | some digest' =>
        rw [hsome, hsome'] at hpredecessor
        have hzero : digest'.length = 0 := congrArg List.length hpredecessor.symm
        have hsize := hlength' digest' hsome'
        omega
    | some digest =>
      cases hsome' : state'.predecessorDigest with
      | none =>
        rw [hsome, hsome'] at hpredecessor
        have hzero : digest.length = 0 := congrArg List.length hpredecessor
        have hsize := hlength digest hsome
        omega
      | some digest' =>
        rw [hsome, hsome'] at hpredecessor
        exact congrArg some hpredecessor

/-! ## Accepted steps -/

variable {sha256 : Bytes → Bytes}

theorem validateSuccessor_eq_ok {record : CursorRecord} {successor : CursorState}
    {binding : CursorBinding} {parent : Bytes} :
    validateSuccessor sha256 record successor binding = .ok parent ↔
      record.binding = binding ∧
        successor.predecessorDigest = some (canonicalCursorDigest sha256 record.binding record.state) ∧
        record.state.witnessSeq ≤ successor.witnessSeq ∧
        canonicalCursorDigest sha256 record.binding record.state = parent := by
  simp only [validateSuccessor, bind_eq_ok, exists_unit, require_eq_ok, pure_eq_ok]

theorem validateMigration_eq_ok {record : CursorRecord} {migrated : CursorState}
    {supported : List Nat} {audit : MigrationAudit}
    (h : validateMigration sha256 record migrated supported = .ok audit) :
    record.state.stateVersion < migrated.stateVersion ∧ migrated.stateVersion ∈ supported ∧
      migrated.witnessSeq = record.state.witnessSeq ∧
      migrated.predecessorDigest = record.state.predecessorDigest ∧ audit.after = migrated := by
  simp only [validateMigration, bind_eq_ok, exists_unit, require_eq_ok, pure_eq_ok] at h
  obtain ⟨hversion, hsupported, hwitness, hpredecessor, rfl⟩ := h
  exact ⟨hversion, hsupported, hwitness, hpredecessor, rfl⟩

/-- The record a host holds next: an accepted successor under the current binding, or an accepted
migration. -/
inductive Step (sha256 : Bytes → Bytes) : CursorRecord → CursorRecord → Prop where
  | successor {record : CursorRecord} {state : CursorState} {binding : CursorBinding} {parent : Bytes}
      (h : validateSuccessor sha256 record state binding = .ok parent) :
      Step sha256 record ⟨binding, state⟩
  | migration {record : CursorRecord} {migrated : CursorState} {supported : List Nat}
      {audit : MigrationAudit} (h : validateMigration sha256 record migrated supported = .ok audit) :
      Step sha256 record ⟨record.binding, migrated⟩

def recordDigest (sha256 : Bytes → Bytes) (record : CursorRecord) : Bytes :=
  canonicalCursorDigest sha256 record.binding record.state

/-- SHA-256 has no collision among the preimages of some records. -/
def CollisionFree (sha256 : Bytes → Bytes) (records : Set CursorRecord) : Prop :=
  ∀ record ∈ records, ∀ other ∈ records, recordDigest sha256 record = recordDigest sha256 other →
    cursorDigestPreimage record.binding record.state = cursorDigestPreimage other.binding other.state

theorem CollisionFree.eq {records : Set CursorRecord} (h : CollisionFree sha256 records)
    {record other : CursorRecord} (hrecord : record ∈ records) (hother : other ∈ records)
    (hdigest : recordDigest sha256 record = recordDigest sha256 other) : record = other := by
  obtain ⟨hbinding, hstate⟩ := cursorDigestPreimage_inj (h record hrecord other hother hdigest)
  cases record
  cases other
  exact congrArg₂ _ hbinding hstate

/-- A successor is accepted against one record only. -/
theorem CollisionFree.successor_unique {records : Set CursorRecord} (h : CollisionFree sha256 records)
    {record other : CursorRecord} (hrecord : record ∈ records) (hother : other ∈ records)
    {successor : CursorState} {binding binding' : CursorBinding} {parent parent' : Bytes}
    (haccepted : validateSuccessor sha256 record successor binding = .ok parent)
    (haccepted' : validateSuccessor sha256 other successor binding' = .ok parent') : record = other := by
  obtain ⟨-, hparent, -, -⟩ := validateSuccessor_eq_ok.1 haccepted
  obtain ⟨-, hparent', -, -⟩ := validateSuccessor_eq_ok.1 haccepted'
  exact h.eq hrecord hother (Option.some.inj (hparent.symm.trans hparent'))

namespace Step

variable {record next : CursorRecord}

/-- An accepted step names the record it follows, or keeps its predecessor and raises the version. -/
theorem follows (h : Step sha256 record next) :
    Follows (fun record : CursorRecord => record.state.predecessorDigest) (recordDigest sha256)
      (fun record => record.state.stateVersion) record next := by
  cases h with
  | successor h => exact .inl (validateSuccessor_eq_ok.1 h).2.1
  | migration h =>
    obtain ⟨hversion, -, -, hpredecessor, -⟩ := validateMigration_eq_ok h
    exact .inr ⟨hpredecessor, hversion⟩

theorem witnessSeq_le (h : Step sha256 record next) :
    record.state.witnessSeq ≤ next.state.witnessSeq := by
  cases h with
  | successor h => exact (validateSuccessor_eq_ok.1 h).2.2.1
  | migration h => exact (validateMigration_eq_ok h).2.2.1.ge

theorem binding_eq (h : Step sha256 record next) : next.binding = record.binding := by
  cases h with
  | successor h => exact (validateSuccessor_eq_ok.1 h).1.symm
  | migration h => rfl

end Step

/-- What steps keep, along a chain. -/
theorem chain_monotone {records : Nat → CursorRecord} {n : Nat}
    (h : ∀ k < n, Step sha256 (records k) (records (k + 1))) {i j : Nat} (hij : i ≤ j) (hj : j ≤ n) :
    (records i).state.witnessSeq ≤ (records j).state.witnessSeq ∧
      (records j).binding = (records i).binding := by
  induction j with
  | zero =>
    obtain rfl := Nat.le_zero.1 hij
    exact ⟨le_rfl, rfl⟩
  | succ j ih =>
    rcases Nat.le_succ_iff.1 hij with hle | rfl
    · obtain ⟨hwitness, hbinding⟩ := ih hle (Nat.le_of_succ_le hj)
      have hstep := h j hj
      exact ⟨hwitness.trans hstep.witnessSeq_le, hstep.binding_eq.trans hbinding⟩
    · exact ⟨le_rfl, rfl⟩

theorem runCursorMigration_accepted {first second : MigrateAnswer} {record : CursorRecord}
    {supported : List Nat} (h : (runCursorMigration sha256 first second record supported).outcome =
      "accepted") : ∃ migrated audit, first = .state migrated ∧ second = .state migrated ∧
        validateMigration sha256 record migrated supported = .ok audit := by
  have hrefused : ∀ refusal, (refusedMigration refusal).outcome ≠ "accepted" := by
    intro refusal
    unfold refusedMigration
    split <;> simp
  cases first with
  | refused refusal => exact absurd h (hrefused refusal)
  | other =>
    cases second with
    | refused refusal => exact absurd h (hrefused refusal)
    | state migrated => simp [runCursorMigration] at h
    | other => simp [runCursorMigration] at h
  | state migrated =>
    cases second with
    | refused refusal => exact absurd h (hrefused refusal)
    | other => simp [runCursorMigration] at h
    | state repeated =>
      simp only [runCursorMigration] at h
      split at h
      · simp at h
      · next hsame =>
        split at h
        · next audit haudit => exact ⟨migrated, audit, rfl, (not_not.1 hsame).symm, haudit⟩
        · simp at h

theorem validateBatch_eq_ok {batch : Batch} {ctx : PollContext} {record : CursorRecord}
    {descriptor : ConnectorDescriptor} {nowUs runBytesSpent : Nat} {resolved : List Bytes}
    {labels : Option (List String)} {authorized : Bool} {verdict : BatchVerdict}
    (h : validateBatch sha256 batch ctx record descriptor nowUs runBytesSpent resolved labels
      authorized = .ok verdict) :
    validateSuccessor sha256 record batch.successorCursor (contextBinding ctx descriptor) =
        .ok verdict.parentDigest ∧
      verdict.successor = ⟨contextBinding ctx descriptor, batch.successorCursor⟩ := by
  simp only [validateBatch, bind_eq_ok, exists_unit, pure_eq_ok] at h
  obtain ⟨-, -, -, -, -, parentDigest, hsuccessor, rfl⟩ := h
  exact ⟨hsuccessor, rfl⟩

/-- The preimage of a cursor's digest tells bindings and states apart. Where SHA-256 does not confuse
the preimages of records, a successor accepted against one is refused against any other, the migrated
state included. Along a chain of accepted successors and migrations the witness never falls and the
binding stays; from a state without a predecessor no record comes back, so a successor is accepted at
one place only. An accepted migration keeps the witness and the predecessor and raises the version
within the supported ones. A batch is admitted only when its successor is accepted against the record
that was presented, under the workspace of the context and the connector of the descriptor. -/
theorem cursor_chains (sha256 : Bytes → Bytes) :
    (∀ binding state binding' state', cursorDigestPreimage binding state =
      cursorDigestPreimage binding' state' → binding = binding' ∧ state = state') ∧
    (∀ records, CollisionFree sha256 records → ∀ record ∈ records, ∀ other ∈ records,
      ∀ successor binding binding' parent,
        validateSuccessor sha256 record successor binding = .ok parent →
        other ≠ record → ∃ refusal, validateSuccessor sha256 other successor binding' = .error refusal) ∧
    (∀ (records : Nat → CursorRecord) n, (∀ k < n, Step sha256 (records k) (records (k + 1))) →
      (∀ i j, i ≤ j → j ≤ n → (records i).state.witnessSeq ≤ (records j).state.witnessSeq ∧
        (records j).binding = (records i).binding) ∧
      ((records 0).state.predecessorDigest = none →
        CollisionFree sha256 {record | ∃ i ≤ n, record = records i} →
        ∀ i ≤ n, ∀ j ≤ n, i ≠ j → ∀ successor binding binding' parent,
          validateSuccessor sha256 (records i) successor binding = .ok parent →
          ∃ refusal, validateSuccessor sha256 (records j) successor binding' = .error refusal)) ∧
    (∀ first second record supported,
      (runCursorMigration sha256 first second record supported).outcome = "accepted" →
      ∃ migrated, first = .state migrated ∧ migrated.witnessSeq = record.state.witnessSeq ∧
        migrated.predecessorDigest = record.state.predecessorDigest ∧
        record.state.stateVersion < migrated.stateVersion ∧ migrated.stateVersion ∈ supported ∧
        Step sha256 record ⟨record.binding, migrated⟩ ∧
        (CollisionFree sha256 {record, ⟨record.binding, migrated⟩} →
          ∀ successor binding binding' parent,
            validateSuccessor sha256 record successor binding = .ok parent →
            ∃ refusal, validateSuccessor sha256 ⟨record.binding, migrated⟩ successor binding' =
              .error refusal)) ∧
    (∀ batch ctx record descriptor nowUs runBytesSpent resolved labels authorized verdict,
      validateBatch sha256 batch ctx record descriptor nowUs runBytesSpent resolved labels authorized =
        .ok verdict →
      record.binding = contextBinding ctx descriptor ∧
        validateSuccessor sha256 record batch.successorCursor (contextBinding ctx descriptor) =
          .ok verdict.parentDigest ∧
        verdict.successor = ⟨contextBinding ctx descriptor, batch.successorCursor⟩ ∧
        Step sha256 record verdict.successor) := by
  have hrefused : ∀ {records : Set CursorRecord}, CollisionFree sha256 records →
      ∀ record ∈ records, ∀ other ∈ records, ∀ successor binding binding' parent,
        validateSuccessor sha256 record successor binding = .ok parent → other ≠ record →
        ∃ refusal, validateSuccessor sha256 other successor binding' = .error refusal := by
    intro records hfree record hrecord other hother successor binding binding' parent haccepted hne
    cases hresult : validateSuccessor sha256 other successor binding' with
    | ok parent' => exact absurd (hfree.successor_unique hother hrecord hresult haccepted) hne
    | error refusal => exact ⟨refusal, rfl⟩
  refine ⟨fun _ _ _ _ h => cursorDigestPreimage_inj h, fun records hfree => hrefused hfree,
    fun records n hchain => ⟨fun i j hij hj => chain_monotone hchain hij hj, ?_⟩, ?_, ?_⟩
  · intro hstart hfree i hi j hj hij successor binding binding' parent haccepted
    have hmem : ∀ k ≤ n, records k ∈ {record | ∃ i ≤ n, record = records i} :=
      fun k hk => ⟨k, hk, rfl⟩
    have hinjective := chain_injective (fun k hk => (hchain k hk).follows) hstart
      fun i hi j hj hdigest => hfree.eq (hmem i hi) (hmem j hj) hdigest
    refine hrefused hfree _ (hmem i hi) _ (hmem j hj) successor binding binding' parent haccepted ?_
    rcases lt_or_gt_of_ne hij with hlt | hgt
    · exact (hinjective i j hlt hj).symm
    · exact hinjective j i hgt hi
  · intro first second record supported haccepted
    obtain ⟨migrated, audit, hfirst, -, hvalid⟩ := runCursorMigration_accepted haccepted
    obtain ⟨hversion, hsupported, hwitness, hpredecessor, -⟩ := validateMigration_eq_ok hvalid
    refine ⟨migrated, hfirst, hwitness, hpredecessor, hversion, hsupported, .migration hvalid,
      fun hfree successor binding binding' parent hsuccessor => ?_⟩
    refine hrefused hfree record (by simp) _ (by simp) successor binding binding' parent hsuccessor ?_
    intro hsame
    rw [← hsame] at hversion
    exact lt_irrefl _ hversion
  · intro batch ctx record descriptor nowUs runBytesSpent resolved labels authorized verdict h
    obtain ⟨hsuccessor, hverdict⟩ := validateBatch_eq_ok h
    refine ⟨(validateSuccessor_eq_ok.1 hsuccessor).1, hsuccessor, hverdict, ?_⟩
    rw [hverdict]
    exact .successor hsuccessor

/-! ### One poll -/

def filesBinding : CursorBinding := ⟨"home", "files", by decide, by decide⟩

/-- The record of a connector that was never polled. -/
def genesisRecord : CursorRecord :=
  ⟨filesBinding, ⟨1, [], 0, none, by decide, by decide, by decide, by simp⟩⟩

/-- SHA-256 of the preimage of the genesis record. -/
def genesisDigest : Bytes :=
  [37, 81, 229, 216, 170, 202, 117, 238, 119, 200, 127, 206, 125, 84, 53, 236,
    84, 185, 200, 68, 53, 175, 95, 92, 57, 212, 137, 165, 121, 119, 61, 90]

def polledState : CursorState :=
  ⟨1, [65, 65], 3, some genesisDigest, by decide, by decide, by decide, by simp [genesisDigest]⟩

/-- SHA-256 of the two preimages of the poll. -/
def pollDigest (bytes : Bytes) : Bytes :=
  if bytes = cursorDigestPreimage filesBinding genesisRecord.state then genesisDigest
  else [178, 80, 73, 253, 181, 114, 237, 182, 8, 74, 110, 17, 194, 245, 57, 245,
    136, 204, 217, 243, 200, 4, 229, 190, 132, 182, 172, 140, 244, 245, 79, 79]

/-- The record before the poll and after it. -/
def pollChain : Nat → CursorRecord
  | 0 => genesisRecord
  | _ + 1 => ⟨filesBinding, polledState⟩

theorem cursor_chains_polled :
    validateSuccessor pollDigest (pollChain 0) polledState filesBinding = .ok genesisDigest ∧
      cursorDigestPreimage filesBinding (pollChain 0).state ≠
        cursorDigestPreimage filesBinding (pollChain 1).state ∧
      (pollChain 0).state.witnessSeq ≤ (pollChain 1).state.witnessSeq ∧
      ∃ refusal, validateSuccessor pollDigest (pollChain 1) polledState filesBinding = .error refusal := by
  have haccepted : validateSuccessor pollDigest (pollChain 0) polledState filesBinding =
    .ok genesisDigest := by decide +kernel
  obtain ⟨hpreimage, -, hchain, -⟩ := cursor_chains pollDigest
  obtain ⟨hmonotone, hrefused⟩ := hchain pollChain 1 fun k hk => by
    obtain rfl : k = 0 := by omega
    exact .successor haccepted
  have hne : recordDigest pollDigest (pollChain 0) ≠ recordDigest pollDigest (pollChain 1) := by
    decide +kernel
  refine ⟨haccepted, fun hsame => ?_, (hmonotone 0 1 (by decide) le_rfl).1,
    hrefused rfl ?_ 0 (by decide) 1 le_rfl (by decide) polledState filesBinding filesBinding _ haccepted⟩
  · have hstate := (hpreimage _ _ _ _ hsame).2
    exact absurd (congrArg CursorState.witnessSeq hstate) (by decide)
  · rintro record ⟨i, hi, rfl⟩ other ⟨j, hj, rfl⟩ hdigest
    interval_cases i <;> interval_cases j
    · rfl
    · exact absurd hdigest hne
    · exact absurd hdigest.symm hne
    · rfl

end OmniviaCore.Connector
