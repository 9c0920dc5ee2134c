import OmniviaCore.Connector.CursorCheckpoints

/-!
# A checkpoint is read as it was written

The document of a record is read back with its members in the order of their names, and the reader finds the
record in it; the document of a cursor of two fields is read as no record (`readCheckpoint_new`).
-/

namespace OmniviaCore.Connector

open CanonicalJson Lib

/-! ## Encodings -/

theorem toNat_ofNat_of_lt {n : ℕ} (h : n < 256) : (Char.ofNat n).toNat = n := by
  revert n
  decide +kernel

theorem encodeAscii_decodeAscii {bytes : Bytes} (h : ∀ b ∈ bytes, b.toNat < 128) :
    encodeAscii (decodeAscii bytes) = some bytes := by
  have hchar : ∀ b ∈ bytes, (Char.ofNat b.toNat).toNat = b.toNat := fun b hb =>
    toNat_ofNat_of_lt ((h b hb).trans (by decide))
  rw [encodeAscii, if_pos, decodeAscii, List.map_map]
  · congr 1
    refine (List.map_congr_left fun b hb => ?_).trans (List.map_id bytes)
    rw [Function.comp_apply, hchar b hb, UInt8.ofNat_toNat]
    rfl
  · rw [decodeAscii, List.all_map, List.all_eq_true]
    intro b hb
    rw [Function.comp_apply, hchar b hb]
    exact decide_eq_true (h b hb)

theorem decodeAscii_of_encodeAscii {text : Chars} {bytes : Bytes} (h : encodeAscii text = some bytes) :
    decodeAscii bytes = text := by
  unfold encodeAscii at h
  split at h
  · next hascii =>
    cases h
    rw [decodeAscii, List.map_map]
    refine (List.map_congr_left fun c hc => ?_).trans (List.map_id text)
    have hlt := of_decide_eq_true (List.all_eq_true.mp hascii c hc)
    rw [Function.comp_apply, UInt8.toNat_ofNat', Nat.mod_eq_of_lt (hlt.trans (by decide)),
      Char.ofNat_toNat]
    rfl
  · cases h

theorem isBase64url_lt {b : UInt8} (h : isBase64url b = true) : b.toNat < 128 := by
  have hall : ∀ n < 256, isBase64url (UInt8.ofNat n) = true → n < 128 := by decide +kernel
  have hb := hall b.toNat b.toNat_lt
  rw [UInt8.ofNat_toNat] at hb
  exact hb h

/-- A payload is ASCII. -/
theorem encodeAscii_payload (state : CursorState) :
    encodeAscii (decodeAscii state.payload) = some state.payload := by
  have hvalid := state.payload_valid
  unfold classifyPayload at hvalid
  split at hvalid
  · cases hvalid
  split at hvalid
  · cases hvalid
  next hall =>
    rw [Bool.not_eq_false, List.all_eq_true] at hall
    exact encodeAscii_decodeAscii fun b hb => isBase64url_lt (hall b hb)

/-- A digit of lowercase hex. -/
def hexDigit (n : ℕ) : Char := Char.ofNat (hexByte 97 n).toNat

theorem hexText_cons (b : UInt8) (bytes : Bytes) :
    hexText (b :: bytes) = hexDigit (b.toNat / 16) :: hexDigit (b.toNat % 16) :: hexText bytes := rfl

theorem hexDigit_spec : ∀ n < 16, hexValue (hexDigit n) = some n ∧
    ((hexDigit n).isDigit || ('a' ≤ hexDigit n && hexDigit n ≤ 'f')) = true := by
  decide +kernel

theorem bytesOfHex_hexText (bytes : Bytes) : bytesOfHex (hexText bytes) = bytes := by
  induction bytes with
  | nil => rfl
  | cons b bytes ih =>
    have hlt := b.toNat_lt
    rw [hexText_cons, bytesOfHex, (hexDigit_spec _ (by omega)).1, (hexDigit_spec _ (by omega)).1, ih,
      Option.getD_some, Option.getD_some, Nat.div_add_mod' b.toNat 16, UInt8.ofNat_toNat]

theorem length_hexText (bytes : Bytes) : (hexText bytes).length = 2 * bytes.length := by
  induction bytes with
  | nil => rfl
  | cons b bytes ih =>
    rw [hexText_cons, List.length_cons, List.length_cons, List.length_cons, ih]
    omega

theorem isDigestText_hexText {bytes : Bytes} (h : bytes.length = 32) :
    isDigestText (hexText bytes) = true := by
  rw [isDigestText, length_hexText, h, Bool.and_eq_true]
  refine ⟨rfl, ?_⟩
  clear h
  induction bytes with
  | nil => rfl
  | cons b bytes ih =>
    have hlt := b.toNat_lt
    rw [hexText_cons, List.all_cons, List.all_cons, (hexDigit_spec _ (by omega)).2,
      (hexDigit_spec _ (by omega)).2, ih]
    rfl

theorem makeBinding_eq (binding : CursorBinding) :
    makeBinding binding.workspaceId.toList binding.connectorId.toList = some binding := by
  have hvalid : isAsciiIdentifier (String.ofList binding.workspaceId.toList) = true ∧
      isAsciiIdentifier (String.ofList binding.connectorId.toList) = true := by
    rw [String.ofList_toList, String.ofList_toList]
    exact ⟨binding.workspaceId_valid, binding.connectorId_valid⟩
  rw [makeBinding, dif_pos hvalid]
  congr 1
  obtain ⟨workspaceId, connectorId, _, _⟩ := binding
  simp only [String.ofList_toList]

/-! ## Documents, with their members in the order of their names -/

def sortedBinding (binding : CursorBinding) : Value :=
  namedMembers
    [("connector_id".toList, charsValue binding.connectorId.toList),
      ("workspace_id".toList, charsValue binding.workspaceId.toList)]

def sortedState (state : CursorState) : Value :=
  namedMembers
    [("payload".toList, charsValue (decodeAscii state.payload)),
      ("predecessor_digest".toList, predecessorToWire state.predecessorDigest),
      ("state_version".toList, .int state.stateVersion), ("witness_seq".toList, .int state.witnessSeq)]

def sortedEvidence (evidence : MigrationEvidence) : Value :=
  namedMembers
    [("after_digest".toList, charsValue evidence.afterDigest),
      ("before_digest".toList, charsValue evidence.beforeDigest)]

/-- The members of a checkpoint document in the order of their names, as a reader finds them. -/
def sortedMembers (record : CursorRecord) (evidence : Option MigrationEvidence) : List (Key × Value) :=
  (("binding".toList, sortedBinding record.binding) ::
    (evidence.map sortedEvidence).toList.map (fun value => ("migration_evidence".toList, value)) ++
      [("state".toList, sortedState record.state)]).map withName

def sortedDocument (record : CursorRecord) (evidence : Option MigrationEvidence) : Value :=
  .mapping (sortedMembers record evidence)

theorem returnsAs_charsValue (text : Chars) : ReturnsAs (charsValue text) (charsValue text) :=
  returnsAs_str _

theorem returnsAs_predecessor (digest : Option Bytes) :
    ReturnsAs (predecessorToWire digest) (predecessorToWire digest) := by
  cases digest with
  | none => exact returnsAs_none
  | some digest => exact returnsAs_charsValue _

/-- Names in the order members are written in. -/
def InOrder (names : List String) : Prop :=
  (names.map fun name => codePoints (ofChars name.toList)).Pairwise (· < ·)

instance (names : List String) : Decidable (InOrder names) := inferInstanceAs (Decidable (List.Pairwise _ _))

theorem returnsAs_binding (binding : CursorBinding) :
    ReturnsAs (bindingToWire binding) (sortedBinding binding) := by
  refine ReturnsAs.mapping [("connector_id".toList, charsValue _, charsValue _),
    ("workspace_id".toList, charsValue _, charsValue _)]
    (show InOrder ["connector_id", "workspace_id"] by decide) (List.Perm.swap _ _ _) ?_
  simp [returnsAs_charsValue]

theorem returnsAs_evidence (evidence : MigrationEvidence) :
    ReturnsAs (evidenceToWire evidence) (sortedEvidence evidence) := by
  refine ReturnsAs.mapping [("after_digest".toList, charsValue _, charsValue _),
    ("before_digest".toList, charsValue _, charsValue _)]
    (show InOrder ["after_digest", "before_digest"] by decide) (List.Perm.swap _ _ _) ?_
  simp [returnsAs_charsValue]

theorem returnsAs_state (state : CursorState) : ReturnsAs (spiStateToWire state) (sortedState state) := by
  refine ReturnsAs.mapping [("payload".toList, charsValue _, charsValue _),
    ("predecessor_digest".toList, predecessorToWire _, predecessorToWire _),
    ("state_version".toList, .int _, .int _), ("witness_seq".toList, .int _, .int _)]
    (show InOrder ["payload", "predecessor_digest", "state_version", "witness_seq"] by decide)
    ((List.Perm.swap _ _ _).trans ((List.perm_append_singleton _ [_, _]).cons _)) ?_
  simp [returnsAs_charsValue, returnsAs_predecessor, returnsAs_int]

/-- A checkpoint document comes back with its members in order. -/
theorem returnsAs_document (record : CursorRecord) (evidence : Option MigrationEvidence) :
    ReturnsAs (checkpointDocument record (evidence.map evidenceToWire)) (sortedDocument record evidence) := by
  have hbinding := returnsAs_binding record.binding
  have hstate := returnsAs_state record.state
  cases evidence with
  | none =>
    refine ReturnsAs.mapping [("binding".toList, _, _), ("state".toList, _, _)]
      (show InOrder ["binding", "state"] by decide) (List.Perm.refl _) ?_
    exact List.forall_mem_cons.2 ⟨hbinding, List.forall_mem_singleton.2 hstate⟩
  | some evidence =>
    refine ReturnsAs.mapping [("binding".toList, _, _), ("migration_evidence".toList, _, _),
      ("state".toList, _, _)] (show InOrder ["binding", "migration_evidence", "state"] by decide)
      ((List.Perm.swap _ _ _).cons _) ?_
    exact List.forall_mem_cons.2 ⟨hbinding, List.forall_mem_cons.2
      ⟨returnsAs_evidence evidence, List.forall_mem_singleton.2 hstate⟩⟩

/-- A cursor of two fields is written in order. -/
theorem returnsAs_cursor (cursor : ConnectorCursor) : ReturnsAs cursor.toWire cursor.toWire := by
  refine ReturnsAs.mapping [("state_version".toList, .int _, .int _), ("token".toList, .str _, .str _)]
    (show InOrder ["state_version", "token"] by decide) (List.Perm.refl _) ?_
  simp [returnsAs_int, returnsAs_str]

/-! ## What the reader finds in them -/

theorem textMember_eq {members : List (Key × Value)} {name : String} {text : Chars}
    (h : lookup members name.toList = some (charsValue text)) : textMember members name = some text := by
  rw [textMember, h]
  exact toChars_ofChars text

theorem intMember_eq {members : List (Key × Value)} {name : String} {n : ℤ}
    (h : lookup members name.toList = some (.int n)) : intMember members name = some n := by
  rw [intMember, h]

theorem bindingFromWire_sorted (binding : CursorBinding) :
    bindingFromWire (sortedBinding binding) = some binding := by
  rw [sortedBinding, namedMembers, bindingFromWire, textMember_eq rfl, textMember_eq rfl]
  exact makeBinding_eq binding

theorem predecessorFromWire_toWire (state : CursorState) :
    predecessorFromWire (predecessorToWire state.predecessorDigest) = some state.predecessorDigest := by
  cases hdigest : state.predecessorDigest with
  | none => rfl
  | some digest =>
    have hvalid := isDigestText_hexText (state.predecessorDigest_length digest hdigest)
    rw [predecessorToWire, charsValue, predecessorFromWire, toChars_ofChars, Option.filter_some, if_pos hvalid,
      Option.map_some, bytesOfHex_hexText]

theorem makeState_eq (state : CursorState) :
    makeState state.stateVersion state.payload state.witnessSeq state.predecessorDigest = some state := by
  have hvalid : ((state.stateVersion : ℤ).toNat ≤ MAX_UNSIGNED ∧ classifyPayload state.payload = none ∧
      (state.witnessSeq : ℤ).toNat ≤ MAX_UNSIGNED ∧
        ∀ digest ∈ state.predecessorDigest, digest.length = 32) ∧
      0 ≤ (state.stateVersion : ℤ) ∧ 0 ≤ (state.witnessSeq : ℤ) :=
    ⟨⟨state.stateVersion_le, state.payload_valid, state.witnessSeq_le, state.predecessorDigest_length⟩,
      Int.natCast_nonneg _, Int.natCast_nonneg _⟩
  rw [makeState, dif_pos hvalid]
  rfl

theorem spiStateFromWire_sorted (state : CursorState) :
    spiStateFromWire (sortedState state) = some state := by
  rw [sortedState, namedMembers, spiStateFromWire, intMember_eq rfl, textMember_eq rfl, intMember_eq rfl]
  refine Eq.trans ?_ (makeState_eq state)
  change (encodeAscii (decodeAscii state.payload)).bind (fun payload =>
    (predecessorFromWire (predecessorToWire state.predecessorDigest)).bind fun predecessor =>
      makeState state.stateVersion payload state.witnessSeq predecessor) = _
  rw [encodeAscii_payload, predecessorFromWire_toWire]
  rfl

theorem makeEvidence_eq (evidence : MigrationEvidence) :
    makeEvidence evidence.beforeDigest evidence.afterDigest = some evidence :=
  dif_pos ⟨evidence.beforeDigest_valid, evidence.afterDigest_valid⟩

theorem evidenceFromWire_sorted {members : List (Key × Value)} {evidence : Option MigrationEvidence}
    (h : lookup members "migration_evidence".toList = evidence.map sortedEvidence) :
    evidenceFromWire members = some evidence := by
  rw [evidenceFromWire, h]
  cases evidence with
  | none => rfl
  | some evidence =>
    simp only [Option.map_some, sortedEvidence, namedMembers]
    rw [textMember_eq rfl, textMember_eq rfl]
    change some <$> makeEvidence evidence.beforeDigest evidence.afterDigest = _
    rw [makeEvidence_eq]
    rfl

/-- The reader finds the record in the sorted document. -/
theorem recordFromWire_sorted (record : CursorRecord) (evidence : Option MigrationEvidence) :
    recordFromWire (sortedDocument record evidence) = some record := by
  have hlookup : lookup (sortedMembers record evidence) "migration_evidence".toList =
      evidence.map sortedEvidence := by cases evidence <;> rfl
  have hfound : (do
      let _ ← evidenceFromWire (sortedMembers record evidence)
      let binding ← bindingFromWire (sortedBinding record.binding)
      let state ← spiStateFromWire (sortedState record.state)
      pure (CursorRecord.mk binding state)) = some record := by
    rw [evidenceFromWire_sorted hlookup, bindingFromWire_sorted, spiStateFromWire_sorted]
    rfl
  cases evidence with
  | none => exact hfound
  | some evidence => exact hfound

theorem isLegacyDocument_sorted (record : CursorRecord) (evidence : Option MigrationEvidence) :
    isLegacyDocument (sortedDocument record evidence) = false := by
  cases evidence <;> rfl

theorem fits_sorted (record : CursorRecord) (evidence : Option MigrationEvidence) (room : ℕ) :
    (sortedDocument record evidence).Fits (room + 2) := by
  cases evidence <;> cases hdigest : record.state.predecessorDigest <;>
    simp [sortedDocument, sortedMembers, sortedBinding, sortedState, sortedEvidence, namedMembers, charsValue,
      withName, Value.Fits, predecessorToWire, hdigest]

theorem fits_toWire (cursor : ConnectorCursor) (room : ℕ) : cursor.toWire.Fits (room + 2) := by
  simp [ConnectorCursor.toWire, Value.Fits]

/-! ## A new checkpoint -/

/-- What a run commits: a record, perhaps with the evidence of a migration, or a cursor of two fields. -/
inductive CursorWrite where
  | spi (record : CursorRecord) (evidence : Option MigrationEvidence)
  | legacy (cursor : ConnectorCursor)

/-- The document a write stores. -/
def CursorWrite.document : CursorWrite → Value
  | .spi record evidence => checkpointDocument record (evidence.map evidenceToWire)
  | .legacy cursor => cursor.toWire

/-- The record a reader makes of a write: none of a cursor of two fields. -/
def CursorWrite.record? : CursorWrite → Option CursorRecord
  | .spi record _ => some record
  | .legacy _ => none

/-- A checkpoint that was just written is read as what it holds. -/
theorem readCheckpoint_new (sha256 : Bytes → Bytes) (interpreter : Interpreter) (store : CheckpointStore)
    (workspaceId runId : Chars) {write : CursorWrite} {text : Chars} (h : dumps write.document = .ok text) :
    readCheckpoint sha256 interpreter (newCheckpoint sha256 store workspaceId runId text) =
      .ok write.record? := by
  obtain ⟨room, hroom⟩ := Nat.exists_eq_add_of_le' interpreter.two_le
  have hloaded : ∀ {document : Value}, ReturnsAs write.document document → document.Fits (room + 2) →
      loadsOrRefuse interpreter text = .ok document := by
    intro document hreads hfits
    rw [loadsOrRefuse, hroom, plainLoads_of_loads (hreads.loads h) hfits]
    rfl
  dsimp only [readCheckpoint, newCheckpoint]
  rw [require_pos rfl, ok_bind]
  cases write with
  | spi record evidence =>
    rw [hloaded (returnsAs_document record evidence) (fits_sorted record evidence room), ok_bind,
      isLegacyDocument_sorted, recordFromWire_sorted]
    rfl
  | legacy cursor =>
    rw [hloaded (returnsAs_cursor cursor) (fits_toWire cursor room)]
    rfl

end OmniviaCore.Connector
