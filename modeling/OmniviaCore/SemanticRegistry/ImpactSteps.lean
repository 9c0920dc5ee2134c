import OmniviaCore.SemanticRegistry.Application

/-!
# Compatible change sets

What the operations below a major impact leave of the elements they are applied to. A step keeps every
element under its identifier, compatible with what it was, unless it is the deprecation of an element
without a lifecycle; a run of steps keeps as much (`applyEach_induct`).
-/

namespace OmniviaCore.SemanticRegistry

open Lib CanonicalJson

/-! ## Compatibility -/

/-- The numbers of values within the bounds of an element. -/
def Element.Admits (e : Element) (n : ℕ) : Prop :=
  (∀ m ∈ bound (e.field "min_cardinality"), m ≤ n) ∧ ∀ m ∈ bound (e.field "max_cardinality"), n ≤ m

/-- The second element is the first under other labels, in another state, or within looser bounds. -/
structure Element.Compatible (e e' : Element) : Prop where
  elementId : e'.elementId = e.elementId
  kind : e'.kind = e.kind
  fields : ∀ name, name ∉ ["label", "description", "lifecycle_state", "min_cardinality",
    "max_cardinality"] → e'.field name = e.field name
  bounds : ∀ n, e.Admits n → e'.Admits n

/-- The second element is the first under another label or description. -/
structure Element.Relabelled (e e' : Element) : Prop where
  elementId : e'.elementId = e.elementId
  kind : e'.kind = e.kind
  fields : ∀ name, name ∉ ["label", "description"] → e'.field name = e.field name

namespace Element

variable {e e' e'' : Element}

theorem Compatible.refl (e : Element) : e.Compatible e := ⟨rfl, rfl, fun _ _ => rfl, fun _ h => h⟩

theorem Compatible.trans (h : e.Compatible e') (h' : e'.Compatible e'') : e.Compatible e'' :=
  ⟨h'.elementId.trans h.elementId, h'.kind.trans h.kind,
    fun name hname => (h'.fields name hname).trans (h.fields name hname),
    fun n hn => h'.bounds n (h.bounds n hn)⟩

theorem Relabelled.refl (e : Element) : e.Relabelled e := ⟨rfl, rfl, fun _ _ => rfl⟩

theorem Relabelled.trans (h : e.Relabelled e') (h' : e'.Relabelled e'') : e.Relabelled e'' :=
  ⟨h'.elementId.trans h.elementId, h'.kind.trans h.kind,
    fun name hname => (h'.fields name hname).trans (h.fields name hname)⟩

theorem Admits.congr (hmin : e'.field "min_cardinality" = e.field "min_cardinality")
    (hmax : e'.field "max_cardinality" = e.field "max_cardinality") {n : ℕ} (h : e.Admits n) :
    e'.Admits n := by
  rwa [Admits, hmin, hmax]

theorem Relabelled.compatible (h : e.Relabelled e') : e.Compatible e' where
  elementId := h.elementId
  kind := h.kind
  fields name hname := h.fields name (by simp_all)
  bounds _ hn := hn.congr (h.fields _ (by decide)) (h.fields _ (by decide))

/-- Changing none but some fields leaves the identifier and the others. -/
theorem replace_names {changes : Fields} (h : e.replace changes = .ok e') {names : List String}
    (hnames : ∀ c ∈ changes, c.1 ∈ names) (hid : "element_id" ∉ names) :
    e'.elementId = e.elementId ∧ e'.kind = e.kind ∧
      ∀ name, name ∉ names → e'.field name = e.field name := by
  have hfields : ∀ name, name ∉ names → e'.field name = e.field name := by
    intro name hname
    refine field_replace_of_none h (lookup_eq_none_of_notMem fun hmem => ?_)
    obtain ⟨c, hc, rfl⟩ := List.mem_map.1 hmem
    exact hname (hnames c hc)
  exact ⟨elementId_eq (hfields _ hid), (replace_eq_ok h).1, hfields⟩

theorem replace_relabelled {changes : Fields} (h : e.replace changes = .ok e')
    (hnames : ∀ c ∈ changes, c.1 ∈ ["label", "description"]) : e.Relabelled e' := by
  obtain ⟨hid, hkind, hfields⟩ := replace_names h hnames (by decide)
  exact ⟨hid, hkind, hfields⟩

end Element

/-! ## Lowered payloads -/

/-- A payload names a value other than `None`. -/
def JsonMapping.sets (payload : JsonMapping) (name : String) : Bool :=
  match payload.get name with
  | .none => false
  | _ => true

theorem JsonMapping.sets_iff {payload : JsonMapping} {name : String} :
    payload.sets name ↔ payload.get name ≠ .none := by
  unfold sets
  split <;> simp_all

theorem map_fst_coerceElementFields {values : JsonMapping} {fields : Fields}
    (h : coerceElementFields values = .ok fields) :
    fields.map Prod.fst = values.map fun m => m.1.spelling := by
  unfold coerceElementFields at h
  induction values generalizing fields with
  | nil =>
    cases h
    rfl
  | cons m values ih =>
    simp only [List.mapM_cons, bind_eq_ok, pure_eq_ok] at h
    obtain ⟨_, ⟨v, _, rfl⟩, rest, hrest, rfl⟩ := h
    rw [List.map_cons, List.map_cons, ih hrest]

theorem lookup_coerceElementFields {named : List (List Char × Value)} {fields : Fields}
    (h : coerceElementFields (named.map withName) = .ok fields) (name : String) :
    (lookup (named.map withName) name.toList = none ∧ fields.lookup name = none) ∨
      ∃ value v, lookup (named.map withName) name.toList = some value ∧
        coerceField name value = .ok v ∧ fields.lookup name = some v := by
  unfold coerceElementFields at h
  induction named generalizing fields with
  | nil =>
    cases h
    exact .inl ⟨rfl, rfl⟩
  | cons m named ih =>
    simp only [List.map_cons, List.mapM_cons, bind_eq_ok, pure_eq_ok] at h
    obtain ⟨_, ⟨v, hv, rfl⟩, rest, hrest, rfl⟩ := h
    have hspelling : (withName m).1.spelling = String.ofList m.1 := by
      have heq := spelling_ofChars (String.ofList m.1)
      rwa [String.toList_ofList] at heq
    by_cases hname : name = String.ofList m.1
    · subst hname
      rw [hspelling] at hv
      refine .inr ⟨m.2, v, ?_, hv, ?_⟩
      · simp [lookup, withName]
      · simp [hspelling]
    · have hkey : (withName m).1 ≠ .name (ofChars name.toList) := by
        intro heq
        rw [withName, Key.name.injEq] at heq
        rw [ofChars_injective heq, String.ofList_toList] at hname
        exact hname rfl
      have hskip : lookup (List.map withName (m :: named)) name.toList =
          lookup (named.map withName) name.toList := by
        rw [lookup, List.map_cons, List.find?_cons_of_neg (by simpa using hkey), lookup]
      have hrest' : List.lookup name (((withName m).1.spelling, v) :: rest) = rest.lookup name := by
        rw [hspelling, List.lookup_cons, beq_eq_false_iff_ne.2 hname]
      rw [hskip, hrest']
      exact ih hrest

theorem coerceField_bound {name : String} (h : name ∈ ["min_cardinality", "max_cardinality"])
    (value : Value) : coerceField name value = .ok (.json value) := by
  rcases List.mem_pair.1 h with rfl | rfl <;> cases value <;> rfl

theorem exists_named {values : JsonMapping} (h : validateJsonMapping values = .ok ()) :
    ∃ named : List (List Char × Value), values = named.map withName := by
  unfold validateJsonMapping at h
  split at h
  · next text htext =>
    obtain ⟨haccepted, -⟩ := (canonicalizeInto_eq_ok _ _ _ _).1 htext
    cases haccepted with
    | mapping _ _ _ => exact ⟨_, rfl⟩
  · cases h
  · cases h

theorem lookup_bound {values : JsonMapping} (hvalid : validateJsonMapping values = .ok ())
    {fields : Fields} (h : coerceElementFields values = .ok fields) {name : String}
    (hname : name ∈ ["min_cardinality", "max_cardinality"]) :
    (fields.lookup name = none ∧ values.get name = .none) ∨
      fields.lookup name = some (.json (values.get name)) := by
  obtain ⟨named, rfl⟩ := exists_named hvalid
  rcases lookup_coerceElementFields h name with ⟨hlookup, hnone⟩ | ⟨value, v, hlookup, hv, hsome⟩
  · exact .inl ⟨hnone, by rw [JsonMapping.get, hlookup]; rfl⟩
  · rw [coerceField_bound hname, Except.ok.injEq] at hv
    subst hv
    refine .inr ?_
    rw [hsome, JsonMapping.get, hlookup]
    rfl

/-! ## Admissible operations -/

variable {op : ChangeOperation}

theorem ChangeOperation.valid_after (op : ChangeOperation) :
    validateJsonMapping op.after = .ok () := by
  have hvalid := op.valid
  simp only [OperationMembers.postInit, bind_eq_ok, exists_unit] at hvalid
  exact hvalid.2.2.1

theorem ChangeOperation.valid_before (op : ChangeOperation) {before : JsonMapping}
    (h : op.before = some before) : validateJsonMapping before = .ok () := by
  have hvalid := op.valid
  simp only [OperationMembers.postInit, bind_eq_ok, exists_unit, h, validateOptional] at hvalid
  exact hvalid.2.2.2.1

theorem ChangeOperation.valid_identifier (op : ChangeOperation) :
    (op.kind.added.isSome → ∃ id, op.proposedElementId = some id) ∧
      (op.kind.added = none → ∃ id, op.targetElementId = some id) := by
  have hvalid := op.valid
  simp only [OperationMembers.postInit, bind_eq_ok, exists_unit] at hvalid
  obtain ⟨-, hidentifier, -⟩ := hvalid
  unfold OperationMembers.requireIdentifier at hidentifier
  constructor
  · intro hadded
    rw [if_pos hadded, require_eq_ok] at hidentifier
    exact Option.isSome_iff_exists.1 hidentifier.1
  · intro hadded
    rw [hadded, if_neg (by decide), require_eq_ok] at hidentifier
    exact Option.isSome_iff_exists.1 hidentifier.1

/-! ## One operation -/

section Step

variable {nfc : Str → Str} {sha256 : List UInt8 → String} {index : ℕ} {elements elements' : Elements}

theorem applyAdd_applied {kind : ElementKind} {id : Str}
    (h : applyAdd index op kind id elements = .applied elements') :
    ∃ fields e, elements.get id = none ∧ coerceElementFields op.after = .ok fields ∧
      Element.construct kind id fields = .ok e ∧ elements' = elements.set id e := by
  unfold applyAdd at h
  split at h
  · cases h
  · next hfresh =>
    rw [Option.not_isSome_iff_eq_none] at hfresh
    split at h
    · next e he =>
      cases h
      simp only [bind_eq_ok] at he
      obtain ⟨fields, hfields, he⟩ := he
      exact ⟨fields, e, hfresh, hfields, he, rfl⟩
    · cases h

/-- An applied operation added an element under a new identifier, or changed one that was there. -/
theorem applyOperation_applied [ObjectModel]
    (h : applyOperation nfc sha256 index op elements = .ok (.applied elements')) :
    (∃ kind id e, op.kind.added = some kind ∧ op.proposedElementId = some id ∧ elements.get id = none ∧
      e.kind = kind ∧ e.elementId = id ∧ elements' = elements.set id e) ∨
    ∃ id e, op.kind.added = none ∧ op.targetElementId = some id ∧ elements.get id = some e ∧
      precondition nfc sha256 index op id e = .ok none ∧
      applyChange index op id e elements = .ok (.applied elements') := by
  unfold applyOperation at h
  split at h
  · next kind id hadded hproposed =>
    obtain ⟨fields, e, hfresh, -, he, rfl⟩ := applyAdd_applied (Except.ok.inj h)
    obtain ⟨hkind, hid⟩ := Element.construct_eq_ok he
    exact .inl ⟨kind, id, e, hadded, hproposed, hfresh, hkind, hid, rfl⟩
  · next hnot =>
    have hadded : op.kind.added = none := by
      rw [Option.eq_none_iff_forall_ne_some]
      intro kind hkind
      obtain ⟨id, hid⟩ := op.valid_identifier.1 (by rw [hkind]; rfl)
      exact hnot kind id hkind hid
    obtain ⟨id, hid⟩ := op.valid_identifier.2 hadded
    simp only [hid, Option.getD_some] at h
    split at h
    · cases h
    · next e he =>
      simp only [bind_eq_ok] at h
      obtain ⟨finding, hpre, h⟩ := h
      split at h
      · cases h
      · exact .inr ⟨id, e, hadded, hid, he, hpre, h⟩

/-- A change that is no transition and no axiom replaces the fields `after` names. -/
theorem applyChange_direct {id : Str} {e : Element} (hlifecycle : op.kind.lifecycle = none)
    (hstatement : op.kind.axiomKind = none)
    (h : applyChange index op id e elements = .ok (.applied elements')) :
    ∃ fields e', coerceElementFields op.after = .ok fields ∧ e.replace fields = .ok e' ∧
      elements' = elements.set id e' := by
  unfold applyChange at h
  rw [hlifecycle, hstatement] at h
  simp only at h
  split at h
  · next e' he' =>
    cases h
    simp only [bind_eq_ok] at he'
    obtain ⟨fields, hfields, he'⟩ := he'
    exact ⟨fields, e', hfields, he', rfl⟩
  · cases h

/-- Deprecating an element changes its state, or drops it if its type has none. -/
theorem applyChange_deprecate {id : Str} {e : Element} (hkind : op.kind = .deprecateElement)
    (h : applyChange index op id e elements = .ok (.applied elements')) :
    (∃ e', e.replace [("lifecycle_state", .lifecycleState .deprecated)] = .ok e' ∧
      elements' = elements.set id e') ∨
    e.has "lifecycle_state" = false ∧ elements' = elements.del id := by
  unfold applyChange at h
  simp only [hkind, OperationKind.lifecycle, reduceCtorEq, if_false, bind_eq_ok, pure_eq_ok,
    exists_eq_left'] at h
  simp only [applyTransition, bind_eq_ok] at h
  obtain ⟨transitioned, htransitioned, h⟩ := h
  unfold applyLifecycle at htransitioned
  split at htransitioned
  · obtain ⟨e', he', rfl⟩ := except_map_eq_ok.1 htransitioned
    cases h
    exact .inl ⟨e', he', rfl⟩
  · next hhas =>
    cases htransitioned
    cases h
    exact .inr ⟨by simpa using hhas, rfl⟩

/-! ## Bounds -/

/-- A precondition that held found every field it names as it expects. -/
theorem matchesField_of_precondition [ObjectModel] {id : Str} {e : Element}
    (h : precondition nfc sha256 index op id e = .ok none) {before : JsonMapping}
    (hbefore : op.before = some before) :
    ∃ fields, coerceElementFields before = .ok fields ∧
      ∀ f ∈ fields, matchesField nfc e f = .ok true := by
  simp only [precondition, bind_eq_ok] at h
  obtain ⟨holds, -, h⟩ := h
  split at h
  · cases h
  · simp only [hbefore, bind_eq_ok, pure_eq_ok] at h
    obtain ⟨stale, hstale, h⟩ := h
    split at h
    · next hnil =>
      subst hnil
      simp only [staleBeforeFields, bind_eq_ok, pure_eq_ok] at hstale
      obtain ⟨fields, hfields, current, hcurrent, hstale⟩ := hstale
      refine ⟨fields, hfields, fun f hf => ?_⟩
      rw [List.map_eq_nil_iff, List.filter_eq_nil_iff] at hstale
      have hall := mapM_eq_ok.1 hcurrent
      clear hfields hcurrent
      induction hall with
      | nil => cases hf
      | @cons g b fields current hg hall ih =>
        rcases List.mem_cons.1 hf with rfl | hf
        · have hhead := hstale (f, b) (by simp)
          have hb : b = true := by simpa using hhead
          rw [hg, hb]
        · refine ih (fun p hp => hstale p ?_) hf
          rw [List.zip_cons_cons]
          exact List.mem_cons_of_mem _ hp
    · cases h

theorem matchesField_eq_true [ObjectModel] {e : Element} {f : String × FieldValue} (hhas : e.has f.1 = true)
    (h : matchesField nfc e f = .ok true) :
    ∃ bytes, fieldBytes nfc (e.field f.1) = .ok bytes ∧ fieldBytes nfc f.2 = .ok bytes := by
  unfold matchesField attributeBytes at h
  rw [if_pos hhas] at h
  simp only [bind_eq_ok, pure_eq_ok] at h
  obtain ⟨actual, hactual, expected, hexpected, heq⟩ := h
  exact ⟨actual, hactual, by rw [hexpected, of_decide_eq_true heq]⟩

theorem bound_cases {fields : Fields} {name : String} (h : requireBound fields name = .ok ()) :
    fields.field name = .json .none ∨ (∃ n, fields.field name = .json (.int n)) ∨
      ∃ b, fields.field name = .json (.bool b) := by
  unfold requireBound at h
  split at h
  · next hnone => exact .inl hnone
  · rw [require_eq_ok] at h
    cases hfield : Fields.field fields name with
    | json value =>
      rw [hfield] at h
      cases value with
      | none => exact .inl rfl
      | int n => exact .inr (.inl ⟨n, rfl⟩)
      | bool b => exact .inr (.inr ⟨b, rfl⟩)
      | _ => cases h
    | _ =>
      rw [hfield] at h
      cases h

theorem registryBytes_eq {a b : Value} {bytes : List UInt8} (ha : registryBytes a = .ok bytes)
    (hb : registryBytes b = .ok bytes) : denote a = denote b := by
  unfold registryBytes at ha hb
  split at ha <;> cases ha
  next hbytes =>
  split at hb <;> cases hb
  next hbytes' => exact (canonicalBytes_eq_iff hbytes hbytes').1 rfl

theorem bound_of_bytes {v : FieldValue} {b : Value} {bytes : List UInt8} {p : ℚ}
    (hv : v = .json .none ∨ (∃ n, v = .json (.int n)) ∨ ∃ b, v = .json (.bool b))
    (hactual : fieldBytes nfc v = .ok bytes) (hexpected : fieldBytes nfc (.json b) = .ok bytes)
    (hb : number b = some p) : ∃ m, bound v = some m ∧ (m : ℚ) = p := by
  have hplain : plainValue nfc b = .ok b := by
    cases b with
    | bool | int | float => rfl
    | _ => cases hb
  simp only [fieldBytes, plain, hplain, ok_bind] at hexpected
  rcases hv with rfl | ⟨n, rfl⟩ | ⟨flag, rfl⟩
  · have hdenote := registryBytes_eq (show registryBytes .none = .ok bytes from hactual) hexpected
    cases b with
    | bool | int => simp [denote] at hdenote
    | float x =>
      cases x with
      | finite negative x => simp [denote] at hdenote
      | _ => cases hb
    | _ => cases hb
  · have hdenote := registryBytes_eq (show registryBytes (.int n) = .ok bytes from hactual) hexpected
    refine ⟨n, rfl, ?_⟩
    cases b with
    | bool => simp [denote] at hdenote
    | int k =>
      simp only [denote, IJson.number.injEq, number, Option.some.injEq] at hdenote hb
      rw [hdenote, hb]
    | float x =>
      cases x with
      | finite negative x =>
        simp only [denote, IJson.number.injEq, number, Option.some.injEq] at hdenote hb
        rw [hdenote, hb]
      | _ => cases hb
    | _ => cases hb
  · have hdenote := registryBytes_eq (show registryBytes (.bool flag) = .ok bytes from hactual) hexpected
    cases b with
    | bool flag' =>
      simp only [denote, IJson.bool.injEq, number, Option.some.injEq] at hdenote hb
      subst hdenote
      refine ⟨_, rfl, ?_⟩
      rw [← hb]
      split <;> rfl
    | int k => simp [denote] at hdenote
    | float x =>
      cases x with
      | finite negative x => simp [denote] at hdenote
      | _ => cases hb
    | _ => cases hb

theorem kind_of_bound {kind : ElementKind} {name : String}
    (hname : name ∈ ["min_cardinality", "max_cardinality"]) (h : name ∈ kind.fieldNames) :
    kind = .property := by
  rcases List.mem_pair.1 hname with rfl | rfl <;> cases kind <;> first | rfl | exact absurd h (by decide)

theorem bound_before [ObjectModel] {id : Str} {e : Element} (hkind : e.kind = .property)
    (h : precondition nfc sha256 index op id e = .ok none) {name : String}
    (hname : name ∈ ["min_cardinality", "max_cardinality"]) {p : ℚ}
    (hp : number ((op.before.getD []).get name) = some p) :
    ∃ m, bound (e.field name) = some m ∧ (m : ℚ) = p := by
  cases hbefore : op.before with
  | none =>
    rw [hbefore] at hp
    cases hp
  | some before =>
    rw [hbefore, Option.getD_some] at hp
    obtain ⟨fields, hfields, hmatch⟩ := matchesField_of_precondition h hbefore
    rcases lookup_bound (op.valid_before hbefore) hfields hname with ⟨-, hnone⟩ | hsome
    · rw [hnone] at hp
      cases hp
    · have hmem : (name, FieldValue.json (before.get name)) ∈ fields := by
        obtain ⟨l, r, heq, -⟩ := List.lookup_eq_some_iff.1 hsome
        rw [heq]
        simp
      have hhas : e.has name = true := by
        unfold Element.has
        rw [hkind]
        rcases List.mem_pair.1 hname with rfl | rfl <;> decide
      obtain ⟨bytes, hactual, hexpected⟩ := matchesField_eq_true hhas (hmatch _ hmem)
      have hvalid := e.valid
      simp only [hkind, ElementKind.postInit, bind_eq_ok, exists_unit] at hvalid
      obtain ⟨-, -, hmin, hmax, -⟩ := hvalid
      refine bound_of_bytes ?_ hactual hexpected hp
      rcases List.mem_pair.1 hname with rfl | rfl
      · exact bound_cases hmin
      · exact bound_cases hmax

theorem number_of_bound {value : Value} {m : ℤ} (h : bound (.json value) = some m) :
    number value = some (m : ℚ) ∧ value ≠ .none := by
  cases value with
  | int n =>
    cases h
    exact ⟨rfl, by simp⟩
  | bool b =>
    cases h
    refine ⟨?_, by simp⟩
    cases b <;> rfl
  | _ => cases h

theorem greater_eq_false {a b : Value} {q : ℚ} (h : greater a b = .ok false)
    (hq : number a = some q ∨ number b = some q) :
    ∃ p p', number a = some p ∧ number b = some p' ∧ p ≤ p' := by
  have hcompare : ∀ p p', number a = some p → number b = some p' → p ≤ p' := by
    intro p p' hp hp'
    have heq : greater a b = .ok (decide (p' < p)) := by
      cases a with
      | bool | int | float => cases b <;> simp_all [greater]
      | _ => cases hp
    rw [heq, Except.ok.injEq, decide_eq_false_iff_not, not_lt] at h
    exact h
  cases hnumber : number a with
  | none =>
    cases hnumber' : number b with
    | none => rw [hnumber, hnumber'] at hq; simp at hq
    | some p' => cases a <;> cases b <;> simp_all [greater, number]
  | some p =>
    cases hnumber' : number b with
    | none => cases a <;> cases b <;> simp_all [greater, number]
    | some p' => exact ⟨p, p', rfl, rfl, hcompare p p' hnumber hnumber'⟩

/-- An upper bound that is set is set over one `before` names. -/
def ChangeOperation.NamesUpperBound (op : ChangeOperation) : Prop :=
  op.kind = .changeCardinality → op.after.sets "max_cardinality" →
    JsonMapping.sets (op.before.getD []) "max_cardinality"

/-- A change that tightens neither bound it names leaves every number of values it admitted. -/
theorem admits_of_cardinalityImpact [ObjectModel] {id : Str} {e e' : Element} {fields : Fields}
    (himpact : cardinalityImpact op = .ok .minor) (hkind : op.kind = .changeCardinality)
    (hpre : precondition nfc sha256 index op id e = .ok none)
    (hfields : coerceElementFields op.after = .ok fields) (hreplace : e.replace fields = .ok e')
    (hupper : op.NamesUpperBound) {n : ℕ} (hn : e.Admits n) : e'.Admits n := by
  simp only [cardinalityImpact, bind_eq_ok, pure_eq_ok] at himpact
  obtain ⟨minTightened, hmin, maxTightened, hmax, himpact⟩ := himpact
  have hloose : minTightened = false ∧ maxTightened = false := by
    cases minTightened <;> cases maxTightened <;> simp_all
  obtain ⟨rfl, rfl⟩ := hloose
  -- A bound `after` names becomes the field; another one stays.
  have hfield : ∀ name ∈ ["min_cardinality", "max_cardinality"], ∀ m ∈ bound (e'.field name),
      m ∈ bound (e.field name) ∨ e.kind = .property ∧ bound (.json (op.after.get name)) = some m := by
    intro name hname m hm
    rcases lookup_bound op.valid_after hfields hname with ⟨hnone, -⟩ | hsome
    · rw [Element.field_replace_of_none hreplace hnone] at hm
      exact .inl hm
    · rw [Element.field_replace_of_some hreplace hsome] at hm
      refine .inr ⟨kind_of_bound hname ?_, hm⟩
      have hmem : name ∈ fields.map Prod.fst := Element.lookup_isSome_iff.1 (by rw [hsome]; rfl)
      obtain ⟨c, hc, rfl⟩ := List.mem_map.1 hmem
      exact (Element.replace_eq_ok hreplace).2.1 c hc
  constructor
  · intro m hm
    rcases hfield _ (by decide) m hm with hsame | ⟨hproperty, hafter⟩
    · exact hn.1 m hsame
    · obtain ⟨hnumber, hset⟩ := number_of_bound hafter
      have hgreater : greater (op.after.get "min_cardinality")
          (JsonMapping.get (op.before.getD []) "min_cardinality") = .ok false := by
        unfold tightensMin at hmin
        split at hmin
        · next hnone => exact absurd hnone hset
        · cases hmin
        · exact hmin
      obtain ⟨p, p', hp, hp', hle⟩ := greater_eq_false hgreater (.inl hnumber)
      obtain ⟨k, hk, rfl⟩ := bound_before hproperty hpre (by decide) hp'
      rw [hnumber, Option.some.injEq] at hp
      subst hp
      exact (Int.cast_le.1 hle).trans (hn.1 k hk)
  · intro m hm
    rcases hfield _ (by decide) m hm with hsame | ⟨hproperty, hafter⟩
    · exact hn.2 m hsame
    · obtain ⟨hnumber, hset⟩ := number_of_bound hafter
      have hgreater : greater (JsonMapping.get (op.before.getD []) "max_cardinality")
          (op.after.get "max_cardinality") = .ok false := by
        have hbefore := hupper hkind (JsonMapping.sets_iff.2 hset)
        unfold tightensMax at hmax
        split at hmax
        · next hnone => exact absurd hnone hset
        · next hnone _ => exact absurd hnone (JsonMapping.sets_iff.1 hbefore)
        · exact hmax
      obtain ⟨p, p', hp, hp', hle⟩ := greater_eq_false hgreater (.inr hnumber)
      obtain ⟨k, hk, rfl⟩ := bound_before hproperty hpre (by decide) hp
      rw [hnumber, Option.some.injEq] at hp'
      subst hp'
      exact (hn.2 k hk).trans (Int.cast_le.1 hle)

end Step

end OmniviaCore.SemanticRegistry
