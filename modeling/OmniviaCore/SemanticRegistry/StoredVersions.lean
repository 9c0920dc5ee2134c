import OmniviaCore.SemanticRegistry.StoredElements
import OmniviaCore.SemanticRegistry.ImpactSoundness
import OmniviaCore.Lib.Digest

/-!
# Stored versions verify

What is true of every row of a history of publications whose elements can be read again: the rows of its
elements are read, the version they make is accepted, and both its digests are the one it was stored under
(`Verifiable`). Publishing adds one such row (`publishVersion_verifiable`), so `verify_version_digests`
finds nothing.
-/

namespace OmniviaCore.SemanticRegistry

open Lib CanonicalJson

/-! ## Elements that are published -/

section Produced

variable (nfc : Str → Str) (sha256 : List UInt8 → String) (room : ℕ)

/-- The elements of a base that was read, and those `apply_operations` makes of such. -/
inductive Produced : List Element → Prop
  | none : Produced []
  | read {rows : List ElementRow} {elements : List Element}
      (h : (rows.mapM fun row => elementFromJson room row.elementJson) = .ok elements) : Produced elements
  | applied {objects : ObjectModel} {base : Snapshot} {operations : List ChangeOperation}
      {elements : List Element} {findings : List ValidationFinding} (hbase : Produced base.elements)
      (h : applyOperations nfc sha256 base operations = .ok (elements, findings)) : Produced elements

/-- A version under its digest, as `_version_for` makes it. -/
structure Publication.Made (p : Publication) : Prop where
  accepted : p.version.postInit = .ok ()
  produced : Produced nfc sha256 room p.version.elements
  digest : modelVersionDigest nfc sha256 p.version = .ok p.version.contentDigest

end Produced

/-- The version has the default meta-model version, which is not stored, and its elements can be read
again. -/
structure Publication.Rereadable (nfc : Str → Str) (p : Publication) : Prop where
  metaModelVersion : p.version.metaModelVersion = META_MODEL_VERSION
  elements : ∀ e ∈ p.version.elements, SemanticRegistry.Rereadable nfc e

variable {nfc : Str → Str} {sha256 : List UInt8 → String} {room : ℕ}

/-! ## Types of fields -/

section Typed

variable {fields : Fields} {kind : ElementKind} {e e' : Element} {id : Str} {index : ℕ} {op : ChangeOperation}
variable {elements elements' : Elements}

theorem coerced_json {name : String} (h : name ∉ COERCED_NAMES) (value : Value) : Coerced (name, .json value) :=
  ⟨value, coerceField_of_notMem h value⟩

theorem coerced_lifecycleState (state : LifecycleState) :
    Coerced ("lifecycle_state", .lifecycleState state) := by
  refine ⟨textValue state.value, ?_⟩
  cases state <;> rfl

theorem coerced_constraintKind (kind : ConstraintKind) : Coerced ("constraint_kind", .constraintKind kind) := by
  refine ⟨textValue kind.value, ?_⟩
  cases kind <;> rfl

theorem coerced_empty {name : String} (h : name ∈ ["parent_concept_ids", "classifications", "characteristics"]) :
    Coerced (name, .tuple []) := by
  refine ⟨.sequence [], ?_⟩
  simp only [List.mem_cons, List.not_mem_nil, or_false] at h
  rcases h with rfl | rfl | rfl <;> rfl

theorem coerced_default (kind : ElementKind) : ∀ d ∈ kind.declared, Coerced (d.1, d.2.getD (.json .none)) := by
  have hdefault : ∀ d ∈ kind.declared, d.2.getD (.json .none) = .json .none ∨
      (d.1 ∈ ["parent_concept_ids", "classifications", "characteristics"] ∧ d.2 = some (.tuple [])) ∨
      (d.1 = "lifecycle_state" ∧ d.2 = some (.lifecycleState .active)) ∨
      (d.1 ∉ COERCED_NAMES ∧ ∃ value, d.2 = some (.json value)) := by
    cases kind <;> simp [ElementKind.declared, COERCED_NAMES]
  intro d hd
  obtain ⟨name, default⟩ := d
  rcases hdefault _ hd with hnone | ⟨hname, rfl⟩ | ⟨rfl, rfl⟩ | ⟨hname, value, rfl⟩
  · rw [hnone]
    exact ⟨.none, coerceField_none name⟩
  · exact coerced_empty hname
  · exact coerced_lifecycleState .active
  · exact coerced_json hname value

theorem coerced_coerceElementFields {values : JsonMapping} (h : coerceElementFields values = .ok fields) :
    ∀ f ∈ fields, Coerced f := by
  intro f hf
  obtain ⟨m, -, hm⟩ := exists_of_forall₂_right (mapM_eq_ok.1 h) hf
  simp only [bind_eq_ok, pure_eq_ok] at hm
  obtain ⟨value, hvalue, rfl⟩ := hm
  exact ⟨m.2, hvalue⟩

theorem coerced_of_lookup {name : String} {value : FieldValue} (h : ∀ f ∈ fields, Coerced f)
    (hlookup : fields.lookup name = some value) : Coerced (name, value) := by
  obtain ⟨l, r, rfl, -⟩ := List.lookup_eq_some_iff.1 hlookup
  exact h _ (List.mem_append_right _ List.mem_cons_self)

theorem coerced_given (h : ∀ f ∈ fields, Coerced f) : ∀ f ∈ Element.given kind fields, Coerced f := by
  intro f hf
  obtain ⟨d, hd, rfl⟩ := List.mem_map.1 hf
  cases hlookup : fields.lookup d.1 with
  | none => exact coerced_default kind d hd
  | some value => exact coerced_of_lookup h hlookup

theorem typed_construct (h : ∀ f ∈ fields, Coerced f) (he : Element.construct kind id fields = .ok e) :
    e.Typed := by
  simp only [Element.construct, bind_eq_ok, exists_unit, require_eq_ok] at he
  obtain ⟨-, -, -, hbuild⟩ := he
  obtain ⟨-, hfields⟩ := Element.build_eq_ok hbuild
  intro f hf
  rw [hfields] at hf
  exact coerced_given (List.forall_mem_cons.2 ⟨coerced_json (by decide) _, h⟩) f hf

theorem typed_ofFields (h : ∀ f ∈ fields, Coerced f) (he : Element.ofFields kind fields = .ok e) : e.Typed := by
  simp only [Element.ofFields, bind_eq_ok, exists_unit, require_eq_ok] at he
  obtain ⟨-, -, hbuild⟩ := he
  obtain ⟨-, hfields⟩ := Element.build_eq_ok hbuild
  intro f hf
  rw [hfields] at hf
  exact coerced_given h f hf

theorem typed_replace (h : ∀ f ∈ fields, Coerced f) (htyped : e.Typed) (he : e.replace fields = .ok e') :
    e'.Typed := by
  simp only [Element.replace, bind_eq_ok, exists_unit, require_eq_ok] at he
  obtain ⟨-, hbuild⟩ := he
  obtain ⟨-, hfields⟩ := Element.build_eq_ok hbuild
  intro f hf
  rw [hfields] at hf
  obtain ⟨g, hg, rfl⟩ := List.mem_map.1 hf
  cases hlookup : fields.lookup g.1 with
  | none => exact htyped g hg
  | some value => exact coerced_of_lookup h hlookup

/-- Every element of a snapshot has fields of their types. -/
def Elements.Typed (elements : Elements) : Prop := ∀ id e, elements.get id = some e → e.Typed

theorem Elements.Typed.set (h : elements.Typed) (he : e.Typed) : Elements.Typed (elements.set id e) := by
  intro key e' hget
  rw [Dict.get_set] at hget
  split at hget
  · obtain rfl := Option.some.inj hget
    exact he
  · exact h key e' hget

theorem Elements.Typed.applyOperation [ObjectModel] (h : elements.Typed)
    (happlied : applyOperation nfc sha256 index op elements = .ok (.applied elements')) : elements'.Typed := by
  unfold SemanticRegistry.applyOperation at happlied
  split at happlied
  · next kind id _ _ =>
    obtain ⟨fields, e, -, hfields, he, rfl⟩ := applyAdd_applied (Except.ok.inj happlied)
    exact h.set (typed_construct (coerced_coerceElementFields hfields) he)
  · dsimp only at happlied
    split at happlied
    · cases happlied
    · next e hget =>
      obtain ⟨finding, -, hchange⟩ := bind_eq_ok.1 happlied
      split at hchange
      · cases hchange
      rcases applyChange_applied hchange with ⟨state, e', he', rfl⟩ | rfl | ⟨kind, constraint, -, hconstraint, rfl⟩ |
        ⟨fields, e', -, -, hfields, he', rfl⟩
      · refine h.set (typed_replace ?_ (h _ e hget) he')
        exact List.forall_mem_singleton.2 (coerced_lifecycleState state)
      · intro key e' hdel
        rw [Dict.get_del] at hdel
        split at hdel
        · cases hdel
        · exact h key e' hdel
      · refine h.set (typed_construct ?_ hconstraint)
        simp only [List.forall_mem_cons]
        exact ⟨coerced_json (by decide) _, coerced_constraintKind kind, coerced_json (by decide) _,
          fun f hf => absurd hf List.not_mem_nil⟩
      · exact h.set (typed_replace (coerced_coerceElementFields hfields) (h _ e hget) he')

theorem Elements.Typed.applyEach [ObjectModel] {operations : List (ChangeOperation × ℕ)}
    {findings : List ValidationFinding} (h : elements.Typed) (happlied : applyEach nfc sha256 operations elements = .ok (elements', findings)) :
    elements'.Typed := by
  induction operations generalizing elements findings with
  | nil =>
    cases happlied
    exact h
  | cons op operations ih =>
    rw [SemanticRegistry.applyEach] at happlied
    obtain ⟨outcome, houtcome, hrest⟩ := bind_eq_ok.1 happlied
    cases outcome with
    | applied elements => exact ih (h.applyOperation houtcome) hrest
    | refused finding =>
      simp only [bind_eq_ok, pure_eq_ok] at hrest
      obtain ⟨⟨rest, others⟩, hrest, heq⟩ := hrest
      cases heq
      exact ih h hrest

theorem typed_elementFromJson {text : List Char} (h : elementFromJson room text = .ok e) : e.Typed := by
  simp only [elementFromJson, bind_eq_ok, mapError_eq_ok] at h
  obtain ⟨read, -, h⟩ := h
  cases read with
  | mapping document =>
    simp only [elementOfDocument, bind_eq_ok, mapError_eq_ok] at h
    obtain ⟨kind, -, h⟩ := h
    split at h
    · cases h
    · split at h
      · cases h
      · simp only [bind_eq_ok, mapError_eq_ok] at h
        obtain ⟨values, hvalues, h⟩ := h
        exact typed_ofFields (coerced_coerceElementFields hvalues) h
      · cases h
  | none | bool | int | float | str | binary | other | sequence => cases h

theorem Produced.typed {elements : List Element} (h : Produced nfc sha256 room elements) :
    ∀ e ∈ elements, e.Typed := by
  induction h with
  | none => exact fun e he => absurd he List.not_mem_nil
  | read h =>
    intro e he
    obtain ⟨row, -, hrow⟩ := exists_of_forall₂_right (mapM_eq_ok.1 h) he
    exact typed_elementFromJson hrow
  | @applied objects base operations elements findings _ h ih =>
    simp only [applyOperations, bind_eq_ok, pure_eq_ok] at h
    obtain ⟨⟨applied, _⟩, happlied, _, -, _, -, _, -, heq⟩ := h
    cases heq
    have hbase : Elements.Typed (Dict.ofList Element.elementId base.elements) := by
      intro id e hget
      exact ih e ((Dict.get_ofList base.nodup).1 hget).1
    intro e he
    obtain ⟨id, hget⟩ := Dict.mem_values.1 (mem_sortBy.1 he)
    exact hbase.applyEach happlied id e hget

end Typed

/-! ## Elements and what is read of their rows -/

/-- An element that was read of a row: its document is the element's, its members in another order. -/
structure ReadAs (nfc : Str → Str) (e e' : Element) : Prop where
  elementId : e'.elementId = e.elementId
  documents : ∃ value value', plainElement nfc e = .ok value ∧ plainElement nfc e' = .ok value' ∧
    Normal nfc value ∧ Normal nfc value' ∧ Rewrites value ∧ Reordered (reread value) value'

theorem FieldValue.Rewrites.plain {field : FieldValue} (h : field.Rewrites) {lowered : Value}
    (hlowered : plain nfc field = .ok lowered) : CanonicalJson.Rewrites lowered := by
  cases field with
  | json value =>
    rw [plainValue_eq_ok hlowered]
    exact rewrites_normalized h hlowered
  | lifecycleState | valueKind | constraintKind =>
    cases hlowered
    exact .str _
  | tuple items =>
    simp only [SemanticRegistry.plain, bind_eq_ok, pure_eq_ok] at hlowered
    obtain ⟨items', hitems, rfl⟩ := hlowered
    refine .sequence fun item hitem => ?_
    rw [mem_sortedTexts] at hitem
    rw [plainItems_eq] at hitems
    obtain ⟨value, hvalue, hplain⟩ := exists_of_forall₂_right (mapM_eq_ok.1 hitems) hitem
    rw [plainValue_eq_ok hplain]
    exact rewrites_normalized (h value hvalue) hplain

theorem rewrites_mappingOf {named : List (String × Value)} (h : ∀ m ∈ named, Rewrites m.2) :
    Rewrites (mappingOf named) := by
  refine .mapping fun m hm => ?_
  obtain ⟨n, hn, rfl⟩ := List.mem_map.1 hm
  exact h n hn

/-- What is read of a literal is the literal of what is read of its members, in another order. -/
theorem reordered_reread (named : List (String × Value)) :
    Reordered (reread (mappingOf named)) (mappingOf (named.map fun m => (m.1, reread m.2))) := by
  rw [mappingOf, reread, rereadMembers_eq, mappingOf, List.map_map, List.map_map]
  exact .perm (perm_sortBy _)

theorem ascii_of_isAlphanum {c : Char} (h : c.isAlphanum = true) : c.toNat < 128 := by
  simp only [Char.isAlphanum, Char.isAlpha, Char.isUpper, Char.isLower, Char.isDigit, Bool.or_eq_true,
    Bool.and_eq_true, decide_eq_true_eq, UInt32.le_iff_toNat_le] at h
  have hnat : c.toNat = c.val.toNat := rfl
  rw [hnat]
  rcases h with (⟨-, h⟩ | ⟨-, h⟩) | ⟨-, h⟩
  all_goals exact lt_of_le_of_lt h (by decide)

theorem exists_ascii {s : Str} (h : isStoredIdentifier s) :
    ∃ chars : List Char, s = ofChars chars ∧ ∀ c ∈ chars, c.toNat < 128 := by
  have hall : ∀ p ∈ s, ∃ c : Char, p = .scalar c ∧ c.toNat < 128 := by
    simp only [isStoredIdentifier, Bool.and_eq_true] at h
    obtain ⟨-, h⟩ := h
    split at h
    · rw [Bool.and_eq_true, List.all_eq_true] at h
      intro p hp
      have hp := h.2 p hp
      cases p with
      | scalar c =>
        simp only [Bool.or_eq_true, decide_eq_true_eq] at hp
        refine ⟨c, rfl, hp.elim ascii_of_isAlphanum fun hmem => ?_⟩
        simp only [List.mem_cons, List.not_mem_nil, or_false] at hmem
        rcases hmem with rfl | rfl | rfl | rfl <;> decide
      | surrogate n => cases hp
    · cases h
  clear h
  induction s with
  | nil => exact ⟨[], rfl, fun c hc => absurd hc List.not_mem_nil⟩
  | cons p s ih =>
    rw [List.forall_mem_cons] at hall
    obtain ⟨⟨c, rfl, hc⟩, hrest⟩ := hall
    obtain ⟨chars, rfl, hchars⟩ := ih hrest
    exact ⟨c :: chars, rfl, List.forall_mem_cons.2 ⟨hc, hchars⟩⟩

theorem nfc_of_stored (hnfc : Normalizes nfc) {s : Str} (h : isStoredIdentifier s) : nfc s = s := by
  obtain ⟨chars, rfl, hascii⟩ := exists_ascii h
  exact hnfc.ascii chars hascii

theorem eq_of_codePoints {s t : Str} (hs : isStoredIdentifier s) (ht : isStoredIdentifier t)
    (h : codePoints s = codePoints t) : s = t := by
  obtain ⟨chars, rfl, -⟩ := exists_ascii hs
  obtain ⟨chars', rfl, -⟩ := exists_ascii ht
  rw [codePoints_ofChars, codePoints_ofChars] at h
  rw [textKey_injective h]

theorem exists_readAs (hnfc : Normalizes nfc) (hroom : JCS_MAX_NESTING_DEPTH < room) {e : Element}
    {row : ElementRow} (htyped : e.Typed) (hr : Rereadable nfc e) (hrow : elementRow nfc sha256 e = .ok row)
    (hid : isStoredIdentifier e.elementId) :
    ∃ e', elementFromJson room row.elementJson = .ok e' ∧ ReadAs nfc e e' := by
  simp only [elementRow, bind_eq_ok, pure_eq_ok] at hrow
  obtain ⟨document, hdocument, text, htext, rfl⟩ := hrow
  obtain ⟨e', named, he', hkind, hstored, hnamed, hlowered⟩ :=
    exists_stored hnfc hroom htyped hr hdocument htext
  refine ⟨e', he', ?_, mappingOf named, mappingOf (named.map fun m => (m.1, reread m.2)),
    plainElement_eq_ok.2 ⟨_, hnamed, rfl⟩, plainElement_eq_ok.2 ⟨_, hlowered, rfl⟩,
    hnamed.normal hnfc e.declared, hlowered.normal hnfc e'.declared, ?_, reordered_reread named⟩
  · have hfield := hstored.field "element_id"
    have hid' := e'.field_elementId
    unfold Element.field at hid'
    rw [show Fields.field e.fields "element_id" = .json (.str e.elementId) from e.field_elementId] at hfield
    rw [hfield.text, FieldValue.json.injEq, Value.str.injEq, nfc_of_stored hnfc hid] at hid'
    exact hid'.symm
  · refine rewrites_mappingOf fun m hm => ?_
    obtain ⟨f, hf, -, hplain⟩ := exists_of_forall₂_right hnamed hm
    exact (hr.numbers f hf).plain hplain

/-! ## The payload of a version -/

def payloadOf (modelId : Str) (documents : List Value) : Value :=
  mappingOf [("model_id", .str modelId), ("meta_model_version", .str META_MODEL_VERSION),
    ("elements", .sequence documents)]

theorem normal_payloadOf (hnfc : Normalizes nfc) {modelId : Str} (hid : nfc modelId = modelId)
    {documents : List Value} (h : ∀ document ∈ documents, Normal nfc document) :
    Normal nfc (payloadOf modelId documents) := by
  refine normal_mappingOf hnfc ?_ (by simp) ?_
  · simp only [List.forall_mem_cons]
    exact ⟨by simp, by simp, by simp, fun m hm => absurd hm List.not_mem_nil⟩
  · simp only [List.forall_mem_cons]
    exact ⟨.str hid, .str (hnfc.ascii "1.0.0".toList (by simp)), .sequence h,
      fun m hm => absurd hm List.not_mem_nil⟩

/-- Documents read again and reordered make what is read of their payload, reordered. -/
theorem reordered_payloadOf {modelId : Str} {documents documents' : List Value}
    (h : List.Forall₂ (fun d d' => Reordered (reread d) d') documents documents') :
    Reordered (reread (payloadOf modelId documents)) (payloadOf modelId documents') := by
  refine (reordered_reread _).trans ?_
  have hitems : Reordered (.sequence (documents.map reread)) (.sequence documents') := by
    have hpairs := Reordered.sequence [] ((documents.map reread).zip documents') ?_
    · have hlength : (documents.map reread).length = documents'.length := by
        rw [List.length_map]
        exact h.length_eq
      rwa [List.map_fst_zip hlength.le, List.map_snd_zip hlength.ge] at hpairs
    · intro p hp
      have hall := List.forall₂_map_left_iff.2 h
      exact (List.forall₂_iff_zip.1 hall).2 hp
  have hmembers := Reordered.member [(.name (ofChars "model_id".toList), .str modelId),
    (.name (ofChars "meta_model_version".toList), .str META_MODEL_VERSION)] []
    (.name (ofChars "elements".toList)) hitems
  refine Reordered.trans ?_ hmembers
  simp only [List.map_cons, List.map_nil, reread, rereadItems_eq]
  exact .refl _

theorem canonicalText_of_normal {value : Value} (h : Normal nfc value) {text : List Char} :
    canonicalText nfc value = .ok text ↔ canonicalize value [] = .ok text := by
  rw [canonicalText, h.plainValue, ok_bind, registryText_eq_ok]

/-! ## Rows that verify -/

variable (nfc sha256 room) in
/-- The row is read, and both digests of what is read are the one it has. -/
def Verifiable (row : StoredVersion) : Prop :=
  ∃ version, versionRow room row = .ok version ∧ digestsHold nfc sha256 room version = .ok true

theorem valueDigest_of_text {value : Value} {text : List Char} (h : canonicalText nfc value = .ok text) :
    valueDigest nfc sha256 value = .ok ("sha256:" ++ sha256 (text.flatMap String.utf8EncodeChar)) := by
  rw [valueDigest, h]
  rfl

theorem exists_read (hnfc : Normalizes nfc) (hroom : JCS_MAX_NESTING_DEPTH < room) {elements : List Element}
    {rows : List ElementRow} (h : List.Forall₂ (fun e row => elementRow nfc sha256 e = .ok row) elements rows)
    (helements : ∀ e ∈ elements, e.Typed ∧ Rereadable nfc e ∧ isStoredIdentifier e.elementId) :
    ∃ read, (rows.mapM fun row => elementFromJson room row.elementJson) = .ok read ∧
      List.Forall₂ (ReadAs nfc) elements read := by
  simp only [mapM_eq_ok]
  induction h with
  | nil => exact ⟨[], .nil, .nil⟩
  | @cons e row elements rows hrow _ ih =>
    rw [List.forall_mem_cons] at helements
    obtain ⟨⟨htyped, hr, hid⟩, hrest⟩ := helements
    obtain ⟨e', he', hread⟩ := exists_readAs hnfc hroom htyped hr hrow hid
    obtain ⟨read, hall, hreads⟩ := ih hrest
    exact ⟨e' :: read, .cons he' hall, .cons hread hreads⟩

theorem exists_documents {elements read : List Element} (h : List.Forall₂ (ReadAs nfc) elements read) :
    ∃ documents documents', elements.mapM (plainElement nfc) = .ok documents ∧
      read.mapM (plainElement nfc) = .ok documents' ∧ (∀ d ∈ documents, Normal nfc d ∧ Rewrites d) ∧
      (∀ d ∈ documents', Normal nfc d) ∧
      List.Forall₂ (fun d d' => Reordered (reread d) d') documents documents' := by
  simp only [mapM_eq_ok]
  induction h with
  | nil => exact ⟨[], [], .nil, .nil, fun d hd => absurd hd List.not_mem_nil,
      fun d hd => absurd hd List.not_mem_nil, .nil⟩
  | cons hread _ ih =>
    obtain ⟨documents, documents', hall, hall', hnormal, hnormal', hreordered⟩ := ih
    obtain ⟨d, d', hd, hd', hdnormal, hdnormal', hdrewrites, hdreordered⟩ := hread.documents
    exact ⟨d :: documents, d' :: documents', .cons hd hall, .cons hd' hall',
      List.forall_mem_cons.2 ⟨⟨hdnormal, hdrewrites⟩, hnormal⟩, List.forall_mem_cons.2 ⟨hdnormal', hnormal'⟩,
      .cons hdreordered hreordered⟩

theorem publishVersion_eq_ok {stored stored' : List StoredVersion} {version : ModelVersion} {sequence : ℕ}
    (h : publishVersion nfc sha256 stored version sequence = .ok stored') :
    ∃ payload text rows, modelVersionPayload nfc version = .ok payload ∧ canonicalText nfc payload = .ok text ∧
      List.Forall₂ (fun e row => elementRow nfc sha256 e = .ok row) version.elements rows ∧
      Admits stored ⟨version.modelId, version.modelVersionId, version.versionLabel, sequence,
        version.contentDigest, text, rows, version.parentVersionIds⟩ ∧
      stored' = stored ++ [⟨version.modelId, version.modelVersionId, version.versionLabel, sequence,
        version.contentDigest, text, rows, version.parentVersionIds⟩] := by
  simp only [publishVersion, bind_eq_ok, mapError_eq_ok, exists_unit, require_eq_ok, pure_eq_ok] at h
  obtain ⟨payload, hpayload, text, htext, rows, hrows, hadmits, rfl⟩ := h
  exact ⟨payload, text, rows, hpayload, htext, mapM_eq_ok.1 hrows, hadmits, rfl⟩

theorem elementRow_elementId {e : Element} {row : ElementRow} (h : elementRow nfc sha256 e = .ok row) :
    e.elementId = row.elementId := by
  simp only [elementRow, bind_eq_ok, pure_eq_ok] at h
  obtain ⟨_, _, _, _, rfl⟩ := h
  rfl

/-- The version a row makes with the elements that are read of it. -/
def ModelVersion.rebuilt (v : ModelVersion) (sequence : ℕ) (read : List Element) : ModelVersion :=
  { v with
    versionSequence := sequence + 1
    parentVersionIds := sortBy codePoints v.parentVersionIds
    metaModelVersion := META_MODEL_VERSION
    elements := read }

theorem ModelVersion.postInit_eq_ok {v : ModelVersion} :
    v.postInit = .ok () ↔ v.modelVersionId.all isSpace = false ∧ v.modelId.all isSpace = false ∧
      1 ≤ v.versionSequence ∧ isVersionLabel v.versionLabel ∧
      (ofChars v.contentDigest.toList).all isSpace = false ∧ v.modelVersionId ∉ v.parentVersionIds ∧
      v.parentVersionIds.Nodup ∧ (v.elements.map Element.elementId).Nodup := by
  simp only [ModelVersion.postInit, bind_eq_ok, exists_unit, require_eq_ok]

theorem postInit_rebuilt {v : ModelVersion} (haccepted : v.postInit = .ok ()) (sequence : ℕ) {read : List Element}
    (hids : read.map Element.elementId =
      (sortBy (fun e => codePoints (Element.elementId e)) v.elements).map Element.elementId) :
    (v.rebuilt sequence read).postInit = .ok () := by
  rw [ModelVersion.postInit_eq_ok] at haccepted ⊢
  obtain ⟨hversionId, hmodel, -, hlabel, hcontent, hown, hparents, hdistinct⟩ := haccepted
  refine ⟨hversionId, hmodel, Nat.le_add_left 1 sequence, hlabel, hcontent, fun hmem => hown (mem_sortBy.1 hmem),
    (perm_sortBy _).nodup_iff.2 hparents, ?_⟩
  have hread : (v.rebuilt sequence read).elements = read := rfl
  rw [hread, hids]
  exact ((perm_sortBy _).map _).nodup_iff.2 hdistinct

/-- A rebuilt version is digested over the documents of the elements that were read, in their order. -/
theorem modelVersionPayload_rebuilt {v : ModelVersion} (sequence : ℕ) {read : List Element}
    (hids : read.map Element.elementId =
      (sortBy (fun e => codePoints (Element.elementId e)) v.elements).map Element.elementId)
    {documents : List Value} (hdocuments : read.mapM (plainElement nfc) = .ok documents) :
    modelVersionPayload nfc (v.rebuilt sequence read) = .ok (payloadOf v.modelId documents) := by
  have hpairwise : read.Pairwise fun a b => codePoints a.elementId ≤ codePoints b.elementId := by
    have hsorted : (sortBy (fun e => codePoints (Element.elementId e)) v.elements).Pairwise
        fun a b => codePoints a.elementId ≤ codePoints b.elementId := pairwise_sortBy _
    rw [← List.pairwise_map (f := Element.elementId) (R := fun a b => codePoints a ≤ codePoints b)] at hsorted ⊢
    rwa [hids]
  rw [modelVersionPayload, ModelVersion.rebuilt, sortBy_of_pairwise hpairwise, hdocuments]
  rfl

/-- The row of a version whose elements can be read again verifies. -/
theorem publishVersion_verifiable (hnfc : Normalizes nfc) (hroom : JCS_MAX_NESTING_DEPTH < room)
    {p : Publication} (hmade : p.Made nfc sha256 room) (hr : p.Rereadable nfc) {stored stored' : List StoredVersion}
    (h : publishVersion nfc sha256 stored p.version p.sequence = .ok stored') :
    ∃ row, stored' = stored ++ [row] ∧ Verifiable nfc sha256 room row := by
  obtain ⟨payload, text, rows, hpayload, htext, hrows, hadmits, rfl⟩ := publishVersion_eq_ok h
  have hidentifiers := hadmits.identifiers
  simp only [List.cons_append, List.nil_append, List.forall_mem_cons, List.forall_mem_append] at hidentifiers
  obtain ⟨hmodelId, -, -, -, hrowIds⟩ := hidentifiers
  have hids : rows.map ElementRow.elementId = p.version.elements.map Element.elementId :=
    (map_eq_map_iff_forall₂.2 (hrows.imp fun _ _ => elementRow_elementId)).symm
  -- The rows are read in the order of the identifiers, which is that of the elements.
  have hsorted : List.Forall₂ (fun e row => elementRow nfc sha256 e = .ok row)
      (sortBy (fun e => codePoints (Element.elementId e)) p.version.elements)
      (sortBy (fun row => codePoints row.elementId) rows) := by
    refine forall₂_sortBy (fun e row hrow => congrArg codePoints (elementRow_elementId hrow)) hrows ?_
    intro row hrow other hother heq
    refine List.inj_on_of_nodup_map hadmits.keys.1 hrow hother (eq_of_codePoints ?_ ?_ heq)
    · exact hrowIds _ (List.mem_map_of_mem hrow)
    · exact hrowIds _ (List.mem_map_of_mem hother)
  obtain ⟨read, hread, hreadAs⟩ := exists_read hnfc hroom hsorted fun e he => by
    rw [mem_sortBy] at he
    refine ⟨hmade.produced.typed e he, hr.elements e he, hrowIds _ ?_⟩
    rw [hids]
    exact List.mem_map_of_mem he
  obtain ⟨documents, documents', hdocuments, hdocuments', hnormal, hnormal', hreordered⟩ :=
    exists_documents hreadAs
  have hreadIds := (map_eq_map_iff_forall₂.2 (hreadAs.imp fun _ _ h => h.elementId.symm)).symm
  have hid : nfc p.version.modelId = p.version.modelId := nfc_of_stored hnfc hmodelId
  obtain rfl : payload = payloadOf p.version.modelId documents := by
    rw [modelVersionPayload, hdocuments, ok_bind, hr.metaModelVersion] at hpayload
    exact (Except.ok.inj hpayload).symm
  have hpayloadNormal := normal_payloadOf hnfc hid fun d hd => (hnormal d hd).1
  have hpayloadNormal' := normal_payloadOf hnfc hid hnormal'
  have hdigest : "sha256:" ++ sha256 (text.flatMap String.utf8EncodeChar) = p.version.contentDigest := by
    have hmadeDigest := hmade.digest
    rw [modelVersionDigest, hpayload, ok_bind, valueDigest_of_text htext] at hmadeDigest
    exact Except.ok.inj hmadeDigest
  rw [canonicalText_of_normal hpayloadNormal] at htext
  -- The snapshot document is read and written again.
  have hsnapshot : canonicalize (reread (payloadOf p.version.modelId documents)) [] = .ok text := by
    refine canonicalize_reread htext (rewrites_mappingOf ?_)
    simp only [List.forall_mem_cons]
    exact ⟨.str _, .str _, .sequence fun d hd => (hnormal d hd).2, fun m hm => absurd hm List.not_mem_nil⟩
  -- So is the payload of the version that is rebuilt, whose members stand in another order.
  have hrebuilt : canonicalize (payloadOf p.version.modelId documents') [] = .ok text :=
    ((reordered_payloadOf hreordered).canonicalize_iff [] text).1 hsnapshot
  refine ⟨_, rfl, ⟨p.version.modelVersionId, p.version.modelId, p.version.versionLabel, p.sequence,
    p.version.contentDigest, text, sortBy codePoints p.version.parentVersionIds, read⟩, ?_, ?_⟩
  · rw [versionRow, hread]
    rfl
  · have hversion : versionOf ⟨p.version.modelVersionId, p.version.modelId, p.version.versionLabel, p.sequence,
        p.version.contentDigest, text, sortBy codePoints p.version.parentVersionIds, read⟩ =
        .ok (p.version.rebuilt p.sequence read) := by
      have haccepted := postInit_rebuilt hmade.accepted p.sequence hreadIds
      unfold ModelVersion.rebuilt at haccepted
      rw [versionOf]
      dsimp only
      rw [haccepted]
      rfl
    have hsnapshotText := (canonicalText_of_normal hpayloadNormal.reread).2 hsnapshot
    have hrebuiltText := (canonicalText_of_normal hpayloadNormal').2 hrebuilt
    unfold digestsHold
    rw [plainLoads_canonicalize htext hroom, Except.mapError, ok_bind, valueDigest_of_text hsnapshotText,
      Except.mapError, ok_bind, hversion, Except.mapError, ok_bind, modelVersionDigest,
      modelVersionPayload_rebuilt p.sequence hreadIds hdocuments', ok_bind, valueDigest_of_text hrebuiltText,
      Except.mapError, ok_bind, hdigest]
    simp

/-! ## Histories -/

theorem verify_eq_nil {stored : List StoredVersion} (h : ∀ row ∈ stored, Verifiable nfc sha256 room row)
    (modelId : Str) : verifyVersionDigests nfc sha256 room stored modelId = .ok [] := by
  have hrows : ∀ row ∈ sortBy StoredVersion.sequence (stored.filter fun row => row.modelId = modelId),
      Verifiable nfc sha256 room row := fun row hrow => h row (List.mem_filter.1 (mem_sortBy.1 hrow)).1
  obtain ⟨versions, hversions⟩ : ∃ versions, readVersions room stored modelId = .ok versions := by
    refine mapM_isOk.2 fun row hrow => ?_
    obtain ⟨version, hversion, -⟩ := hrows row hrow
    exact ⟨version, hversion⟩
  have hheld : versions.mapM (digestsHold nfc sha256 room) = .ok (versions.map fun _ => true) := by
    refine mapM_eq_ok.2 (List.forall₂_map_right_iff.2 (List.forall₂_same.2 fun version hversion => ?_))
    obtain ⟨row, hrow, hread⟩ := exists_of_forall₂_right (mapM_eq_ok.1 hversions) hversion
    obtain ⟨version', hversion', hholds⟩ := hrows row hrow
    obtain rfl := Except.ok.inj (hread.symm.trans hversion')
    exact hholds
  have hnone : (versions.zip (versions.map fun _ => true)).filter (fun v => v.2 = false) = [] := by
    refine List.filter_eq_nil_iff.2 fun v hv => ?_
    obtain ⟨_, -, htrue⟩ := List.mem_map.1 (List.of_mem_zip hv).2
    simp [← htrue]
  rw [verifyVersionDigests, hversions, ok_bind, hheld, ok_bind, hnone]
  rfl

theorem run_verifiable (hnfc : Normalizes nfc) (hroom : JCS_MAX_NESTING_DEPTH < room)
    {publications : List Publication}
    (h : ∀ p ∈ publications, p.Made nfc sha256 room ∧ p.Rereadable nfc) {stored : List StoredVersion}
    (hstored : ∀ row ∈ stored, Verifiable nfc sha256 room row) :
    ∀ row ∈ run (publish nfc sha256) stored publications, Verifiable nfc sha256 room row := by
  induction publications generalizing stored with
  | nil => exact hstored
  | cons p publications ih =>
    rw [List.forall_mem_cons] at h
    refine ih h.2 ?_
    unfold publish
    split
    · next stored' hpublish =>
      obtain ⟨row, rfl, hrow⟩ := publishVersion_verifiable hnfc hroom h.1.1 h.1.2 hpublish
      intro other hother
      rcases List.mem_append.1 hother with hother | hother
      · exact hstored other hother
      · obtain rfl := List.mem_singleton.1 hother
        exact hrow
    · exact hstored

/-- Where every element that is published can be read again, every row is read and has the digests it was
stored under, so no version is reported. -/
theorem stored_versions_verify (nfc : Str → Str) (sha256 : List UInt8 → String) (room : ℕ)
    (hnfc : Normalizes nfc) (hroom : JCS_MAX_NESTING_DEPTH < room) (publications : List Publication)
    (hpublications : ∀ p ∈ publications, p.Made nfc sha256 room ∧ p.Rereadable nfc) :
    (∀ row ∈ run (publish nfc sha256) [] publications, Verifiable nfc sha256 room row) ∧ ∀ modelId,
      verifyVersionDigests nfc sha256 room (run (publish nfc sha256) [] publications) modelId = .ok [] := by
  have hrows : ∀ row ∈ run (publish nfc sha256) [] publications, Verifiable nfc sha256 room row :=
    run_verifiable hnfc hroom hpublications fun row hrow => absurd hrow List.not_mem_nil
  exact ⟨hrows, verify_eq_nil hrows⟩

/-! ## A first version -/

section Orders

def storedDigest : List UInt8 → String :=
  spelledDigest [] "e3b0c44298fc1c149afbf4c8996fb92427ae41e4649b934ca495991b7852b855"

def addOrder : ChangeOperation where
  operationId := str "op-order"
  kind := .addConcept
  after := payload [("label", textValue "Order")]
  targetElementId := none
  proposedElementId := some (str "order")
  basePayloadDigest := none
  before := none
  dependsOnOperationIds := []
  valid := by decide +kernel

/-- The first version of a model, under its digest. -/
def firstVersion (elements : List Element) : Publication where
  version :=
    { modelVersionId := str "mv-1"
      modelId := str "sales"
      versionSequence := 1
      versionLabel := str "0.1.0"
      contentDigest := ((modelVersionDigest id storedDigest
        ⟨str "mv-1", str "sales", 1, str "0.1.0", "", [], META_MODEL_VERSION, elements⟩).toOption).getD ""
      parentVersionIds := []
      metaModelVersion := META_MODEL_VERSION
      elements := elements }
  sequence := 0

theorem normalizes_id : Normalizes id := ⟨fun _ => rfl, fun _ _ => rfl, fun _ h => h⟩

theorem firstVersion_made {elements : List Element} (operations : List ChangeOperation)
    (happlied : @applyOperations fieldsAlone id storedDigest ⟨[], List.nodup_nil⟩ operations =
      .ok (elements, []))
    (hnodup : (elements.map Element.elementId).Nodup)
    (hdigest : (modelVersionDigest id storedDigest (firstVersion elements).version).isOk = true) :
    (firstVersion elements).Made id storedDigest 1000 := by
  obtain ⟨digest, hdigest⟩ := exists_ok_of_isOk hdigest
  have hdraft : modelVersionDigest id storedDigest
      ⟨str "mv-1", str "sales", 1, str "0.1.0", "", [], META_MODEL_VERSION, elements⟩ = .ok digest := hdigest
  have hcontent : (firstVersion elements).version.contentDigest = digest := by
    rw [firstVersion, hdraft]
    rfl
  have hmade : modelVersionDigest id storedDigest (firstVersion elements).version =
      .ok (firstVersion elements).version.contentDigest := by rw [hdigest, hcontent]
  refine ⟨?_, .applied .none happlied, hmade⟩
  simp only [modelVersionDigest, valueDigest, bind_eq_ok, pure_eq_ok] at hdigest
  obtain ⟨payload, -, text, -, rfl⟩ := hdigest
  rw [ModelVersion.postInit_eq_ok, hcontent, String.toList_append]
  exact ⟨by rfl, by rfl, le_refl 1, by rfl, by rfl, List.not_mem_nil, List.nodup_nil, hnodup⟩

theorem rereadable_order : Rereadable id order := by
  have hparents : ∀ items, order.field "parent_concept_ids" = .tuple items → items = [] := fun items hitems =>
    (FieldValue.tuple.inj hitems).symm
  refine ⟨?_, ?_, ?_, ?_⟩
  · simp only [order, List.forall_mem_cons]
    exact ⟨.str _, .str _, .none, fun item hitem => absurd hitem List.not_mem_nil, .bool _,
      fun item hitem => absurd hitem List.not_mem_nil, trivial, fun f hf => absurd hf List.not_mem_nil⟩
  · intro name hname n negative x hn
    rcases List.mem_pair.1 hname with rfl | rfl <;> cases hn
  · intro name hname items hitems
    rcases List.mem_pair.1 hname with rfl | rfl
    · rw [hparents items hitems]
      exact List.nodup_nil
    · cases hitems
  · intro items hitems
    rw [hparents items hitems]
    exact List.not_mem_nil

/-- The order can be read again. -/
theorem stored_versions_verify_order : verifyVersionDigests id storedDigest 1000
    (run (publish id storedDigest) [] [firstVersion [order]]) (str "sales") = .ok [] := by
  refine (stored_versions_verify id storedDigest 1000 normalizes_id (by decide) [firstVersion [order]]
    fun p hp => ?_).2 (str "sales")
  rw [List.mem_singleton.1 hp]
  refine ⟨firstVersion_made [addOrder] (by rfl) (by decide +kernel) (by decide +kernel), rfl, ?_⟩
  intro e he
  obtain rfl : e = order := List.mem_singleton.1 he
  exact rereadable_order

end Orders

end OmniviaCore.SemanticRegistry
