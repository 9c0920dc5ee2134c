import OmniviaCore.SemanticRegistry.ImpactSteps

/-!
# Version-impact soundness

A change set that applies without findings and is classified below a major impact leaves a compatible
snapshot, as far as its changes keep to the fields they are about and name the upper bounds they
replace. An alias or a vocabulary member has no lifecycle, and deprecating one drops it.
-/

namespace OmniviaCore.SemanticRegistry

open Lib CanonicalJson

variable {op : ChangeOperation} {nfc : Str → Str} {sha256 : List UInt8 → String} {index : ℕ}
  {elements elements' : Elements}

/-! ## A step -/

/-- A change of a label, a description or a cardinality names no other field. -/
def ChangeOperation.NamesItsFields (op : ChangeOperation) : Prop :=
  match op.kind with
  | .changeLabel | .changeDescription => ∀ m ∈ op.after, m.1.spelling ∈ ["label", "description"]
  | .changeCardinality =>
    ∀ m ∈ op.after, m.1.spelling ∈ ["label", "description", "min_cardinality", "max_cardinality"]
  | _ => True

def Elements.Keyed (elements : Elements) : Prop := ∀ id e, elements.get id = some e → e.elementId = id

/-- An operation deprecates an element by its identifier. -/
def ChangeOperation.Deprecates (op : ChangeOperation) (id : Str) : Prop :=
  op.kind = .deprecateElement ∧ op.targetElementId = some id

/-- Each element is still there, compatible, unless it has no lifecycle and may be dropped. -/
def Preserved (dropped : Str → Prop) (before after : Elements) : Prop :=
  ∀ id e, before.get id = some e →
    (∃ e', after.get id = some e' ∧ e.Compatible e') ∨ e.has "lifecycle_state" = false ∧ dropped id

theorem Elements.Keyed.set {id : Str} {e : Element} (h : elements.Keyed) (he : e.elementId = id) :
    Elements.Keyed (Dict.set elements id e) := by
  intro k e' hk
  rw [Dict.get_set] at hk
  split at hk
  · next heq =>
    cases hk
    rw [he, heq]
  · exact h k e' hk

theorem Preserved.set {dropped : Str → Prop} {id : Str} {e e' : Element}
    (h : elements.get id = some e) (he : e.Compatible e') :
    Preserved dropped elements (Dict.set elements id e') := by
  intro k b hb
  left
  by_cases hk : k = id
  · subst hk
    rw [h, Option.some.injEq] at hb
    subst hb
    exact ⟨e', Dict.get_set_self, he⟩
  · exact ⟨b, by rw [Dict.get_set_of_ne hk, hb], .refl b⟩

theorem Preserved.set_fresh {dropped : Str → Prop} {id : Str} {e : Element}
    (h : elements.get id = none) : Preserved dropped elements (Dict.set elements id e) := by
  intro k b hb
  have hk : k ≠ id := by
    rintro rfl
    rw [h] at hb
    cases hb
  exact .inl ⟨b, by rw [Dict.get_set_of_ne hk, hb], .refl b⟩

theorem names_of_coerce {values : JsonMapping} {fields : Fields}
    (h : coerceElementFields values = .ok fields) {names : List String}
    (hnames : ∀ m ∈ values, m.1.spelling ∈ names) : ∀ c ∈ fields, c.1 ∈ names := by
  intro c hc
  have hmem : c.1 ∈ fields.map Prod.fst := List.mem_map_of_mem hc
  rw [map_fst_coerceElementFields h] at hmem
  obtain ⟨m, hm, heq⟩ := List.mem_map.1 hmem
  exact heq ▸ hnames m hm

/-- A change of a label or a description relabels the element it targets. -/
theorem relabel_step (hkind : op.kind = .changeLabel ∨ op.kind = .changeDescription)
    (hnames : op.NamesItsFields) {id : Str} {e : Element}
    (h : applyChange index op id e elements = .ok (.applied elements')) :
    ∃ e', e.Relabelled e' ∧ elements' = Dict.set elements id e' := by
  have hlifecycle : op.kind.lifecycle = none := by rcases hkind with hk | hk <;> rw [hk] <;> rfl
  have hstatement : op.kind.axiomKind = none := by rcases hkind with hk | hk <;> rw [hk] <;> rfl
  obtain ⟨fields, e', hfields, hreplace, rfl⟩ := applyChange_direct hlifecycle hstatement h
  have hafter : ∀ m ∈ op.after, m.1.spelling ∈ ["label", "description"] := by
    rcases hkind with hk | hk <;> simpa only [ChangeOperation.NamesItsFields, hk] using hnames
  exact ⟨e', Element.replace_relabelled hreplace (names_of_coerce hfields hafter), rfl⟩

theorem cardinalityImpact_eq_ok {impact : VersionImpact} (h : cardinalityImpact op = .ok impact) :
    impact = .minor ∨ impact = .major := by
  simp only [cardinalityImpact, bind_eq_ok, pure_eq_ok] at h
  obtain ⟨_, _, _, _, rfl⟩ := h
  split
  · exact .inr rfl
  · exact .inl rfl

theorem kind_of_patch (h : classifyOperation op = .ok .patch) :
    op.kind = .addAlias ∨ op.kind = .changeLabel ∨ op.kind = .changeDescription := by
  unfold classifyOperation at h
  split at h
  · next hkind => exact .inl hkind
  · next hkind => exact .inr (.inl hkind)
  · next hkind => exact .inr (.inr hkind)
  · rcases cardinalityImpact_eq_ok h with h | h <;> cases h
  all_goals cases h

theorem preserved_step [ObjectModel] {impact : VersionImpact} (hclass : classifyOperation op = .ok impact)
    (hminor : impact.rank ≤ 1) (hnames : op.NamesItsFields) (hupper : op.NamesUpperBound)
    (hkeyed : elements.Keyed)
    (h : applyOperation nfc sha256 index op elements = .ok (.applied elements')) :
    elements'.Keyed ∧ Preserved op.Deprecates elements elements' := by
  rcases applyOperation_applied h with ⟨_, id, e, _, _, hfresh, _, hid, rfl⟩ |
    ⟨id, e, hadded, htarget, he, hpre, hchange⟩
  · exact ⟨hkeyed.set hid, .set_fresh hfresh⟩
  · have hcompatible : ∀ {e'}, e.Compatible e' → elements' = Dict.set elements id e' →
        elements'.Keyed ∧ Preserved op.Deprecates elements elements' := by
      rintro e' hc rfl
      exact ⟨hkeyed.set (hc.elementId.trans (hkeyed id e he)), .set he hc⟩
    by_cases hlabel : op.kind = .changeLabel ∨ op.kind = .changeDescription
    · obtain ⟨e', he', heq⟩ := relabel_step hlabel hnames hchange
      exact hcompatible he'.compatible heq
    by_cases hcardinality : op.kind = .changeCardinality
    · obtain ⟨fields, e', hfields, hreplace, heq⟩ :=
        applyChange_direct (by rw [hcardinality]; rfl) (by rw [hcardinality]; rfl) hchange
      have hafter := hnames
      simp only [ChangeOperation.NamesItsFields, hcardinality] at hafter
      obtain ⟨hid, hkind, hother⟩ :=
        Element.replace_names hreplace (names_of_coerce hfields hafter) (by decide)
      rw [classifyOperation, hcardinality] at hclass
      obtain rfl : impact = .minor := by
        rcases cardinalityImpact_eq_ok hclass with rfl | rfl
        · rfl
        · simp [VersionImpact.rank] at hminor
      refine hcompatible ⟨hid, hkind, fun name hname => hother name ?_, fun n hn => ?_⟩ heq
      · intro hmem
        exact hname (by simp_all)
      · exact admits_of_cardinalityImpact hclass hcardinality hpre hfields hreplace hupper hn
    by_cases hdeprecate : op.kind = .deprecateElement
    · rcases applyChange_deprecate hdeprecate hchange with ⟨e', he', heq⟩ | ⟨hhas, rfl⟩
      · have hstate : ∀ c ∈ ([("lifecycle_state", .lifecycleState .deprecated)] : Fields),
            c.1 ∈ ["lifecycle_state"] := by simp
        obtain ⟨hid, hkind, hother⟩ := Element.replace_names he' hstate (by decide)
        refine hcompatible ⟨hid, hkind, fun name hname => hother name ?_, fun n hn => ?_⟩ heq
        · intro hmem
          exact hname (by simp_all)
        · exact hn.congr (hother _ (by decide)) (hother _ (by decide))
      · refine ⟨?_, ?_⟩
        · intro k b hk
          rw [Dict.get_del] at hk
          split at hk
          · cases hk
          · exact hkeyed k b hk
        · intro k b hb
          by_cases hk : k = id
          · subst hk
            rw [he, Option.some.injEq] at hb
            subst hb
            exact .inr ⟨hhas, hdeprecate, htarget⟩
          · exact .inl ⟨b, by rw [Dict.get_del, if_neg hk, hb], .refl b⟩
    -- Every other kind is an addition or a major change.
    · exfalso
      cases hkind : op.kind <;> simp_all [classifyOperation, OperationKind.added] <;>
        · subst hclass
          simp [VersionImpact.rank] at hminor

/-- Elements are relabelled and aliases added, and nothing else. -/
def Patched (before after : Elements) : Prop :=
  (∀ id e, before.get id = some e → ∃ e', after.get id = some e' ∧ e.Relabelled e') ∧
    ∀ id e', after.get id = some e' → (∃ e, before.get id = some e) ∨ e'.kind = .alias

theorem patched_step [ObjectModel] (hclass : classifyOperation op = .ok .patch) (hnames : op.NamesItsFields)
    (h : applyOperation nfc sha256 index op elements = .ok (.applied elements')) :
    Patched elements elements' := by
  rcases applyOperation_applied h with ⟨kind, id, e, hadded, _, hfresh, hkind, _, rfl⟩ |
    ⟨id, e, hadded, _, he, _, hchange⟩
  · have halias : kind = .alias := by
      rcases kind_of_patch hclass with hk | hk | hk <;> rw [hk] at hadded <;> cases hadded
      rfl
    constructor
    · intro k b hb
      have hk : k ≠ id := by
        rintro rfl
        rw [hfresh] at hb
        cases hb
      exact ⟨b, by rw [Dict.get_set_of_ne hk, hb], .refl b⟩
    · intro k b hb
      rw [Dict.get_set] at hb
      split at hb
      · cases hb
        exact .inr (hkind.trans halias)
      · exact .inl ⟨b, hb⟩
  · have hlabel : op.kind = .changeLabel ∨ op.kind = .changeDescription := by
      rcases kind_of_patch hclass with hk | hk
      · rw [hk] at hadded
        cases hadded
      · exact hk
    obtain ⟨e', he', rfl⟩ := relabel_step hlabel hnames hchange
    constructor
    · intro k b hb
      by_cases hk : k = id
      · subst hk
        rw [he, Option.some.injEq] at hb
        subst hb
        exact ⟨e', Dict.get_set_self, he'⟩
      · exact ⟨b, by rw [Dict.get_set_of_ne hk, hb], .refl b⟩
    · intro k b hb
      rw [Dict.get_set] at hb
      split at hb
      · next hk => exact .inl ⟨e, by rw [hk, he]⟩
      · exact .inl ⟨b, hb⟩

/-! ## A run -/

/-- Operations that are all applied, each a step of a preorder, are a step of it together. -/
theorem applyEach_induct [ObjectModel] {R : Elements → Elements → Prop} (refl : ∀ x, R x x)
    (trans : ∀ x y z, R x y → R y z → R x z) {operations : List (ChangeOperation × ℕ)}
    (step : ∀ p ∈ operations, ∀ x y, x.Keyed →
      applyOperation nfc sha256 p.2 p.1 x = .ok (.applied y) → y.Keyed ∧ R x y)
    (hkeyed : elements.Keyed)
    (h : applyEach nfc sha256 operations elements = .ok (elements', [])) :
    elements'.Keyed ∧ R elements elements' := by
  induction operations generalizing elements with
  | nil =>
    cases h
    exact ⟨hkeyed, refl _⟩
  | cons p operations ih =>
    simp only [applyEach, bind_eq_ok] at h
    obtain ⟨outcome, houtcome, h⟩ := h
    cases outcome with
    | refused finding =>
      simp only [bind_eq_ok, pure_eq_ok, Prod.mk.injEq, reduceCtorEq, and_false, exists_false] at h
    | applied next =>
      obtain ⟨hnext, hR⟩ := step p List.mem_cons_self _ _ hkeyed houtcome
      obtain ⟨hlast, hR'⟩ := ih (fun q hq => step q (List.mem_cons_of_mem _ hq)) hnext h
      exact ⟨hlast, trans _ _ _ hR hR'⟩

theorem Preserved.mono {p q : Str → Prop} (h : Preserved p elements elements')
    (hpq : ∀ id, p id → q id) : Preserved q elements elements' := by
  intro id e he
  rcases h id e he with hkept | ⟨hhas, hp⟩
  · exact .inl hkept
  · exact .inr ⟨hhas, hpq id hp⟩

theorem Preserved.trans {p : Str → Prop} {x y z : Elements} (h : Preserved p x y)
    (h' : Preserved p y z) : Preserved p x z := by
  intro id e he
  rcases h id e he with ⟨e', he', hc⟩ | hdropped
  · rcases h' id e' he' with ⟨e'', he'', hc'⟩ | ⟨hhas, hp⟩
    · exact .inl ⟨e'', he'', hc.trans hc'⟩
    · rw [Element.has, hc.kind] at hhas
      exact .inr ⟨hhas, hp⟩
  · exact .inr hdropped

theorem Patched.trans {x y z : Elements} (h : Patched x y) (h' : Patched y z) : Patched x z := by
  constructor
  · intro id e he
    obtain ⟨e', he', hr⟩ := h.1 id e he
    obtain ⟨e'', he'', hr'⟩ := h'.1 id e' he'
    exact ⟨e'', he'', hr.trans hr'⟩
  · intro id e'' he''
    rcases h'.2 id e'' he'' with ⟨e', he'⟩ | halias
    · rcases h.2 id e' he' with hbase | halias
      · exact .inl hbase
      · obtain ⟨e, he, hr⟩ := h'.1 id e' he'
        rw [he'', Option.some.injEq] at he
        exact .inr (he ▸ hr.kind.trans halias)
    · exact .inr halias

/-! ## Change sets -/

theorem keyed_base (base : Snapshot) : Elements.Keyed (Dict.ofList Element.elementId base.elements) :=
  fun _ _ h => ((Dict.get_ofList base.nodup).1 h).2

theorem get_base (base : Snapshot) {e : Element} (h : e ∈ base.elements) :
    (Dict.ofList Element.elementId base.elements).get e.elementId = some e :=
  (Dict.get_ofList base.nodup).2 ⟨h, rfl⟩

/-- A change set without findings is a run whose operations are all applied. -/
theorem applyOperations_eq_ok [ObjectModel] {base : Snapshot} {operations : List ChangeOperation}
    {result : List Element} (h : applyOperations nfc sha256 base operations = .ok (result, [])) :
    ∃ elements, applyEach nfc sha256 operations.zipIdx
      (Dict.ofList Element.elementId base.elements) = .ok (elements, []) ∧
      ∀ e, e ∈ result ↔ ∃ id, elements.get id = some e := by
  simp only [applyOperations, bind_eq_ok, pure_eq_ok, Prod.mk.injEq, List.append_eq_nil_iff] at h
  obtain ⟨⟨elements, findings⟩, heach, _, -, _, -, _, -, rfl, ⟨⟨⟨rfl, -⟩, -⟩, -⟩, -⟩ := h
  refine ⟨elements, heach, fun e => ?_⟩
  rw [mem_sortBy, Dict.mem_values]

/-- What a list of elements says of a base: each element the base has and may not lose is there under
its identifier alone, related to what it was. -/
def Carries (R : Element → Element → Prop) (kept : Element → Prop) (base result : List Element) : Prop :=
  ∀ e ∈ base, kept e → ∃ e' ∈ result, R e e' ∧ ∀ e'' ∈ result, e''.elementId = e.elementId → e'' = e'

theorem carries_of_get {R : Element → Element → Prop} {kept : Element → Prop} {base : Snapshot}
    {result : List Element} (hkeyed : elements.Keyed)
    (hresult : ∀ e, e ∈ result ↔ ∃ id, elements.get id = some e)
    (h : ∀ e ∈ base.elements, kept e → ∃ e', elements.get e.elementId = some e' ∧ R e e') :
    Carries R kept base.elements result := by
  intro e he hkept
  obtain ⟨e', he', hR⟩ := h e he hkept
  refine ⟨e', (hresult e').2 ⟨_, he'⟩, hR, fun e'' he'' hid => ?_⟩
  obtain ⟨id, hget⟩ := (hresult e'').1 he''
  rw [hkeyed id e'' hget] at hid
  rw [hid, he', Option.some.injEq] at hget
  exact hget.symm

/-- A change set that applies without findings and is no major one leaves every element of the base,
but an alias or vocabulary member it deprecates, compatible under its identifier; a patch relabels
elements and adds aliases, and does nothing else. -/
theorem version_impact_sound [ObjectModel] (nfc : Str → Str) (sha256 : List UInt8 → String) (base : Snapshot)
    (operations : List ChangeOperation) (result : List Element) (impact : VersionImpact)
    (applied : applyOperations nfc sha256 base operations = .ok (result, []))
    (classified : classifyChangeSet operations = .ok impact)
    (compatible : impactToCompatibility impact = .compatible)
    (fields : ∀ op ∈ operations, op.NamesItsFields)
    (upper : ∀ op ∈ operations, op.NamesUpperBound) :
    Carries Element.Compatible
      (fun e => e.has "lifecycle_state" ∨ ∀ op ∈ operations, ¬op.Deprecates e.elementId)
      base.elements result ∧
    (impact = .patch → Carries Element.Relabelled (fun _ => True) base.elements result ∧
      ∀ e' ∈ result, e'.kind = .alias ∨ ∃ e ∈ base.elements, e.elementId = e'.elementId) := by
  obtain ⟨elements, heach, hresult⟩ := applyOperations_eq_ok applied
  have hminor : impact.rank ≤ 1 := by cases impact <;> first | decide | cases compatible
  have hmem : ∀ p ∈ operations.zipIdx, p.1 ∈ operations := fun p hp =>
    (List.mem_zipIdx' hp).2 ▸ List.getElem_mem _
  constructor
  · obtain ⟨hkeyed, hpreserved⟩ := applyEach_induct
      (R := Preserved fun id => ∃ op ∈ operations, op.Deprecates id)
      (fun _ id e he => .inl ⟨e, he, .refl e⟩) (fun _ _ _ => Preserved.trans)
      (fun p hp x y hx happly => by
        obtain ⟨i, hi, hle⟩ := classifyOperation_of_mem classified (hmem p hp)
        obtain ⟨hy, hxy⟩ := preserved_step hi (hle.trans hminor) (fields _ (hmem p hp))
          (upper _ (hmem p hp)) hx happly
        exact ⟨hy, hxy.mono fun id hid => ⟨p.1, hmem p hp, hid⟩⟩)
      (keyed_base base) heach
    refine carries_of_get hkeyed hresult fun e he hkept => ?_
    rcases hpreserved _ e (get_base base he) with hfound | ⟨hhas, op, hop, hdeprecates⟩
    · exact hfound
    · rcases hkept with hlifecycle | hnone
      · rw [hhas] at hlifecycle
        cases hlifecycle
      · exact absurd hdeprecates (hnone op hop)
  · rintro rfl
    obtain ⟨hkeyed, hpatched⟩ := applyEach_induct (R := Patched)
      (fun _ => ⟨fun id e he => ⟨e, he, .refl e⟩, fun id e he => .inl ⟨e, he⟩⟩)
      (fun _ _ _ => Patched.trans)
      (fun p hp x y hx happly => by
        obtain ⟨i, hi, hle⟩ := classifyOperation_of_mem classified (hmem p hp)
        obtain rfl : i = .patch := by cases i <;> first | rfl | simp [VersionImpact.rank] at hle
        obtain ⟨hy, -⟩ := preserved_step hi (by decide) (fields _ (hmem p hp)) (upper _ (hmem p hp))
          hx happly
        exact ⟨hy, patched_step hi (fields _ (hmem p hp)) happly⟩)
      (keyed_base base) heach
    refine ⟨carries_of_get hkeyed hresult fun e he _ => hpatched.1 _ e (get_base base he), ?_⟩
    intro e' he'
    obtain ⟨id, hget⟩ := (hresult e').1 he'
    rcases hpatched.2 id e' hget with ⟨e, he⟩ | halias
    · obtain ⟨hbase, hid⟩ := (Dict.get_ofList base.nodup).1 he
      exact .inr ⟨e, hbase, hid.trans (hkeyed id e' hget).symm⟩
    · exact .inl halias

/-! ## A registry of orders -/

section Orders

def str (s : String) : Str := ofChars s.toList

def textField (s : String) : FieldValue := .json (textValue s)

def payload (members : List (String × Value)) : JsonMapping := members.map fun m => (.name (str m.1), m.2)

def order : Element where
  kind := .concept
  fields := [("element_id", textField "order"), ("label", textField "Order"),
    ("description", .json .none), ("parent_concept_ids", .tuple []), ("abstract", .json (.bool false)),
    ("classifications", .tuple []), ("lifecycle_state", .lifecycleState .active)]
  declared := by decide
  valid := by decide

def orderTotal : Element where
  kind := .property
  fields := [("element_id", textField "order.total"), ("label", textField "Total"),
    ("value_kind", .valueKind .data), ("domain_id", textField "order"), ("range_id", .json .none),
    ("datatype", .json .none), ("min_cardinality", .json (.int 0)), ("max_cardinality", .json (.int 1)),
    ("description", .json .none), ("lifecycle_state", .lifecycleState .active)]
  declared := by decide
  valid := by decide +kernel

def orderAlias : Element where
  kind := .alias
  fields := [("element_id", textField "order.alias"), ("target_element_id", textField "order"),
    ("value", textField "PO"), ("locale", .json .none), ("scope", textField "workspace")]
  declared := by decide
  valid := by decide +kernel

def orders : Snapshot := ⟨[order, orderTotal, orderAlias], by decide +kernel⟩

def renameOrder : ChangeOperation where
  operationId := str "op-rename"
  kind := .changeLabel
  after := payload [("label", textValue "Sales order")]
  targetElementId := some (str "order")
  proposedElementId := none
  basePayloadDigest := none
  before := some (payload [("label", textValue "Order")])
  dependsOnOperationIds := []
  valid := by decide +kernel

def widenTotal : ChangeOperation where
  operationId := str "op-widen"
  kind := .changeCardinality
  after := payload [("min_cardinality", .int 0), ("max_cardinality", .int 2)]
  targetElementId := some (str "order.total")
  proposedElementId := none
  basePayloadDigest := none
  before := some (payload [("min_cardinality", .int 0), ("max_cardinality", .int 1)])
  dependsOnOperationIds := []
  valid := by decide +kernel

def deprecateAlias : ChangeOperation where
  operationId := str "op-deprecate"
  kind := .deprecateElement
  after := payload [("reason_code", textValue "superseded")]
  targetElementId := some (str "order.alias")
  proposedElementId := none
  basePayloadDigest := none
  before := none
  dependsOnOperationIds := []
  valid := by decide +kernel

abbrev fieldsAlone : ObjectModel := ⟨fun _ _ => none⟩

def applyOrders (operations : List ChangeOperation) :
    Except ElementError (List Element × List ValidationFinding) :=
  @applyOperations fieldsAlone id (fun _ => "") orders operations

def isClean : Except ElementError (List Element × List ValidationFinding) → Bool
  | .ok (_, []) => true
  | _ => false

theorem exists_of_isClean {x : Except ElementError (List Element × List ValidationFinding)}
    (h : isClean x = true) : ∃ result, x = .ok (result, []) := by
  unfold isClean at h
  split at h
  · exact ⟨_, rfl⟩
  · cases h

/-- A rename and a wider bound apply without findings, and leave a compatible snapshot. -/
theorem version_impact_sound_widened :
    ∃ result, applyOrders [renameOrder, widenTotal] = .ok (result, []) ∧
      Carries Element.Compatible (fun e => e.has "lifecycle_state" ∨
        ∀ op ∈ [renameOrder, widenTotal], ¬op.Deprecates e.elementId) orders.elements result := by
  obtain ⟨result, hresult⟩ := exists_of_isClean
    (show isClean (applyOrders [renameOrder, widenTotal]) = true by decide +kernel)
  refine ⟨result, hresult, (@version_impact_sound fieldsAlone id (fun _ => "") orders [renameOrder, widenTotal] _
    .minor hresult (by decide +kernel) rfl ?_ ?_).1⟩
  · intro op hop
    rcases List.mem_pair.1 hop with rfl | rfl
    · change ∀ m ∈ renameOrder.after, m.1.spelling ∈ ["label", "description"]
      decide +kernel
    · change ∀ m ∈ widenTotal.after, m.1.spelling ∈
        ["label", "description", "min_cardinality", "max_cardinality"]
      decide +kernel
  · intro op hop _
    rcases List.mem_pair.1 hop with rfl | rfl
    · decide +kernel
    · decide +kernel

def relabelTotal : ChangeOperation where
  operationId := str "op-relabel"
  kind := .changeLabel
  after := payload [("label", textValue "Total"), ("value_kind", textValue "object")]
  targetElementId := some (str "order.total")
  proposedElementId := none
  basePayloadDigest := none
  before := none
  dependsOnOperationIds := []
  valid := by decide +kernel

def capTotal : ChangeOperation where
  operationId := str "op-cap"
  kind := .changeCardinality
  after := payload [("max_cardinality", .int 0)]
  targetElementId := some (str "order.total")
  proposedElementId := none
  basePayloadDigest := none
  before := none
  dependsOnOperationIds := []
  valid := by decide +kernel

def isObject : FieldValue → Bool
  | .valueKind .object => true
  | _ => false

/-- Deprecating an alias is a minor change, and the alias is gone. A change of a label that also names
a value kind is a patch, and a new upper bound that no `before` names a minor change. -/
theorem compatible_change_sets_break :
    impactToCompatibility .minor = .compatible ∧ impactToCompatibility .patch = .compatible ∧
    (∃ result, applyOrders [deprecateAlias] = .ok (result, []) ∧
      classifyChangeSet [deprecateAlias] = .ok .minor ∧
      orderAlias ∈ orders.elements ∧ ∀ e ∈ result, e.elementId ≠ orderAlias.elementId) ∧
    (∃ result, applyOrders [relabelTotal] = .ok (result, []) ∧
      classifyChangeSet [relabelTotal] = .ok .patch ∧
      orderTotal ∈ orders.elements ∧ isObject (orderTotal.field "value_kind") = false ∧
      ∀ e ∈ result, e.elementId = orderTotal.elementId → isObject (e.field "value_kind")) ∧
    ∃ result, applyOrders [capTotal] = .ok (result, []) ∧
      classifyChangeSet [capTotal] = .ok .minor ∧
      orderTotal ∈ orders.elements ∧ bound (orderTotal.field "max_cardinality") = some 1 ∧
      ∀ e ∈ result, e.elementId = orderTotal.elementId →
        bound (e.field "max_cardinality") = some 0 :=
  ⟨rfl, rfl, ⟨_, by rfl, by decide +kernel, by simp [orders], by decide +kernel⟩,
    ⟨_, by rfl, by decide +kernel, by simp [orders], by decide +kernel, by decide +kernel⟩,
    ⟨_, by rfl, by decide +kernel, by simp [orders], by decide +kernel, by decide +kernel⟩⟩

end Orders

end OmniviaCore.SemanticRegistry
