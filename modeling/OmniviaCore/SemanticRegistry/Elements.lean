import OmniviaCore.CanonicalJson.Documents
import OmniviaCore.Lib.Check

/-!
# Semantic elements

The element dataclasses of `semantic_registry/models.py`. An element is an instance of one of seven types:
its kind, and a value for every field the type declares. A field holds what it was given, a JSON value as
often as not; `__post_init__` is the only check made of it, and an `Element` carries the proof that it
passed. `Element.construct` and `Element.replace` build an element the way a dataclass and
`dataclasses.replace` do.
-/

namespace OmniviaCore.SemanticRegistry

open Lib CanonicalJson

/-! ## Vocabularies -/

inductive LifecycleState where
  | active | deprecated | replaced | removed
  deriving DecidableEq

inductive PropertyValueKind where
  | data | object
  deriving DecidableEq

inductive ConstraintKind where
  | required | optional | minCardinality | maxCardinality | datatype | pattern | disjointness
  | equivalence
  deriving DecidableEq

/-- The codes of `SemanticErrorCode` raised here. -/
inductive SemanticErrorCode where
  | missingField | invalidField | duplicateId | cyclicDependency
  deriving DecidableEq

/-- The seven element types, under the names of `ELEMENT_TYPES`. -/
inductive ElementKind where
  | actionType | alias | concept | constraint | property | relationship | vocabularyMember
  deriving DecidableEq

/-- What building, lowering or writing an element raises: an error of the registry, the
canonicalizer's, or a bare `TypeError` or `ValueError`. -/
inductive ElementError where
  | semantic (code : SemanticErrorCode) (message : String)
  | keyType (typeName : String)
  | keysCollide (name : Str)
  | canonical (error : ContractSemanticError)
  | typeError
  | valueError
  deriving DecidableEq

def LifecycleState.value : LifecycleState → String
  | .active => "active"
  | .deprecated => "deprecated"
  | .replaced => "replaced"
  | .removed => "removed"

def PropertyValueKind.value : PropertyValueKind → String
  | .data => "data"
  | .object => "object"

def ConstraintKind.value : ConstraintKind → String
  | .required => "required"
  | .optional => "optional"
  | .minCardinality => "min_cardinality"
  | .maxCardinality => "max_cardinality"
  | .datatype => "datatype"
  | .pattern => "pattern"
  | .disjointness => "disjointness"
  | .equivalence => "equivalence"

/-! ## Field values -/

/-- The value of a field: a JSON value, a member of an enumeration, or a tuple. -/
inductive FieldValue where
  | json (value : Value)
  | lifecycleState (state : LifecycleState)
  | valueKind (kind : PropertyValueKind)
  | constraintKind (kind : ConstraintKind)
  | tuple (items : List Value)

abbrev Fields := List (String × FieldValue)

/-- A JSON mapping, as `items()` yields it. -/
abbrev JsonMapping := List (Key × Value)

/-- `payload.get(name)`. -/
def JsonMapping.get (payload : JsonMapping) (name : String) : Value :=
  (lookup payload name.toList).getD .none

/-- `name in payload`. -/
def JsonMapping.has (payload : JsonMapping) (name : String) : Bool :=
  (lookup payload name.toList).isSome

/-- The white space `str.strip` removes. -/
def isSpace : CodePoint → Bool
  | .scalar c =>
    c.toNat ∈ [0x20, 0x85, 0xA0, 0x1680, 0x2028, 0x2029, 0x202F, 0x205F, 0x3000] ||
      (0x09 ≤ c.toNat && c.toNat ≤ 0x0D) || (0x1C ≤ c.toNat && c.toNat ≤ 0x1F) ||
      (0x2000 ≤ c.toNat && c.toNat ≤ 0x200A)
  | .surrogate _ => false

/-- What two hashable JSON values are compared as: a flag is a number. -/
inductive Hashed where
  | none
  | number (q : ℚ)
  | text (s : Str)
  deriving DecidableEq

/-- The hash key of a value; a list or a mapping has none. -/
def hashed : Value → Except ElementError Hashed
  | .none => .ok .none
  | .bool b => .ok (.number (if b then 1 else 0))
  | .int n => .ok (.number n)
  | .float (.finite negative x) => .ok (.number (x.signedValue negative))
  | .str s => .ok (.text s)
  | _ => .error .typeError

/-! ## Lowering a payload -/

/-- The member of an enumeration that has a value. -/
def enumMember {α : Type} (members : List α) (valueOf : α → String) (value : Value) :
    Except ElementError α :=
  match members.find? fun member => hashed value = .ok (.text (ofChars (valueOf member).toList)) with
  | some member => .ok member
  | none => .error .valueError

def PropertyValueKind.ofValue : Value → Except ElementError PropertyValueKind :=
  enumMember [.data, .object] PropertyValueKind.value

def ConstraintKind.ofValue : Value → Except ElementError ConstraintKind :=
  enumMember [.required, .optional, .minCardinality, .maxCardinality, .datatype, .pattern,
    .disjointness, .equivalence] ConstraintKind.value

def LifecycleState.ofValue : Value → Except ElementError LifecycleState :=
  enumMember [.active, .deprecated, .replaced, .removed] LifecycleState.value

/-- `tuple` of a JSON value. -/
def tupleOf : Value → Except ElementError (List Value)
  | .sequence items => .ok items
  | .str s => .ok (s.map fun c => .str [c])
  | .mapping members => .ok (members.filterMap fun
    | (.name s, _) => some (.str s)
    | (.other _, _) => none)
  | _ => .error .typeError

/-- `_FIELD_COERCERS`, applied to the value of a field. -/
def coerceField (name : String) (value : Value) : Except ElementError FieldValue :=
  match value with
  | .none => .ok (.json .none)
  | value =>
    if name = "value_kind" then FieldValue.valueKind <$> PropertyValueKind.ofValue value
    else if name = "constraint_kind" then FieldValue.constraintKind <$> ConstraintKind.ofValue value
    else if name = "lifecycle_state" then FieldValue.lifecycleState <$> LifecycleState.ofValue value
    else if name ∈ ["parent_concept_ids", "classifications", "characteristics"] then
      FieldValue.tuple <$> tupleOf value
    else .ok (.json value)

/-- `coerce_element_fields`. -/
def coerceElementFields (values : JsonMapping) : Except ElementError Fields :=
  values.mapM fun member => do
    let value ← coerceField member.1.spelling member.2
    pure (member.1.spelling, value)

/-! ## Declarations -/

/-- The fields of a type, with the defaults of those that have one. -/
def ElementKind.declared : ElementKind → List (String × Option FieldValue)
  | .concept => [("element_id", none), ("label", none), ("description", some (.json .none)),
    ("parent_concept_ids", some (.tuple [])), ("abstract", some (.json (.bool false))),
    ("classifications", some (.tuple [])), ("lifecycle_state", some (.lifecycleState .active))]
  | .property => [("element_id", none), ("label", none), ("value_kind", none),
    ("domain_id", some (.json .none)), ("range_id", some (.json .none)),
    ("datatype", some (.json .none)), ("min_cardinality", some (.json .none)),
    ("max_cardinality", some (.json .none)), ("description", some (.json .none)),
    ("lifecycle_state", some (.lifecycleState .active))]
  | .relationship => [("element_id", none), ("label", none), ("subject_concept_id", none),
    ("object_concept_id", none), ("inverse_id", some (.json .none)),
    ("characteristics", some (.tuple [])), ("description", some (.json .none)),
    ("lifecycle_state", some (.lifecycleState .active))]
  | .constraint => [("element_id", none), ("target_element_id", none), ("constraint_kind", none),
    ("parameters", some (.json (.mapping []))), ("severity", some (.json (textValue "error"))),
    ("lifecycle_state", some (.lifecycleState .active))]
  | .alias => [("element_id", none), ("target_element_id", none), ("value", none),
    ("locale", some (.json .none)), ("scope", some (.json (textValue "workspace")))]
  | .vocabularyMember => [("element_id", none), ("vocabulary_element_id", none), ("value", none),
    ("order_key", some (.json (.int 0)))]
  | .actionType => [("element_id", none), ("label", none), ("subject_concept_id", none),
    ("parameter_schema_digest", none), ("target_concept_id", some (.json .none)),
    ("result_schema_digest", some (.json .none)), ("risk_class", some (.json (textValue "standard"))),
    ("lifecycle_state", some (.lifecycleState .active))]

def ElementKind.fieldNames (kind : ElementKind) : List String := kind.declared.map Prod.fst

def Fields.field (fields : Fields) (name : String) : FieldValue :=
  (fields.lookup name).getD (.json .none)

/-! ## `__post_init__` -/

/-- `_require_id` and `_require_text`: a `str` that is not blank. -/
def requireText (fields : Fields) (name : String) : Except ElementError Unit :=
  match fields.field name with
  | .json (.str s) => require (s.all isSpace = false) (.semantic .missingField s!"{name} is required")
  | _ => .error (.semantic .missingField s!"{name} is required")

def tupleItems (fields : Fields) (name : String) : Except ElementError (List Hashed) :=
  match fields.field name with
  | .tuple items => items.mapM hashed
  | _ => .error .typeError

/-- `_no_duplicates`. -/
def noDuplicates (fields : Fields) (name : String) : Except ElementError Unit := do
  let items ← tupleItems fields name
  require items.Nodup (.semantic .duplicateId s!"{name} must not repeat an id")

/-- A bound that is an `int`: `True` and `False` are. -/
def bound : FieldValue → Option ℤ
  | .json (.int n) => some n
  | .json (.bool b) => some (if b then 1 else 0)
  | _ => none

def requireBound (fields : Fields) (name : String) : Except ElementError Unit :=
  match fields.field name with
  | .json .none => .ok ()
  | value => require ((bound value).any (0 ≤ ·)) (.semantic .invalidField
      s!"{name} must be a non-negative integer")

/-- `min_cardinality <= max_cardinality`, of bounds that are set. -/
def boundsOrdered (fields : Fields) : Prop :=
  ∀ m ∈ bound (fields.field "min_cardinality"), ∀ n ∈ bound (fields.field "max_cardinality"), m ≤ n

instance (fields : Fields) : Decidable (boundsOrdered fields) := by
  unfold boundsOrdered
  infer_instance

def requireNotOwnParent (fields : Fields) : Except ElementError Unit := do
  let parents ← tupleItems fields "parent_concept_ids"
  let element_id := match fields.field "element_id" with
    | .json value => hashed value
    | _ => .error .typeError
  require (∀ parent ∈ parents, element_id ≠ .ok parent)
    (.semantic .invalidField "a concept cannot be its own parent")

def requireMapping (fields : Fields) (name : String) : Except ElementError Unit :=
  match fields.field name with
  | .json (.mapping _) => .ok ()
  | _ => .error (.semantic .invalidField s!"{name} must be a mapping")

/-- `__post_init__` of the type. -/
def ElementKind.postInit (kind : ElementKind) (fields : Fields) : Except ElementError Unit := do
  requireText fields "element_id"
  match kind with
  | .concept =>
    requireText fields "label"
    noDuplicates fields "parent_concept_ids"
    requireNotOwnParent fields
  | .property =>
    requireText fields "label"
    requireBound fields "min_cardinality"
    requireBound fields "max_cardinality"
    require (boundsOrdered fields)
      (.semantic .invalidField "min_cardinality must not exceed max_cardinality")
  | .relationship =>
    requireText fields "label"
    requireText fields "subject_concept_id"
    requireText fields "object_concept_id"
    noDuplicates fields "characteristics"
  | .constraint =>
    requireText fields "target_element_id"
    requireMapping fields "parameters"
  | .alias =>
    requireText fields "target_element_id"
    requireText fields "value"
  | .vocabularyMember =>
    requireText fields "vocabulary_element_id"
    requireText fields "value"
  | .actionType =>
    requireText fields "label"
    requireText fields "subject_concept_id"
    requireText fields "parameter_schema_digest"

/-! ## Elements -/

/-- An element: a value for every declared field, accepted by `__post_init__`. -/
structure Element where
  kind : ElementKind
  fields : Fields
  declared : fields.map Prod.fst = kind.fieldNames
  valid : kind.postInit fields = .ok ()

namespace Element

/-- The value of a field; `None` if the type does not declare it. -/
def field (e : Element) (name : String) : FieldValue := Fields.field e.fields name

/-- `hasattr(element, name)`. -/
def has (e : Element) (name : String) : Bool := name ∈ e.kind.fieldNames

/-- `element.element_id`. -/
def elementId (e : Element) : Str :=
  match e.field "element_id" with
  | .json (.str s) => s
  | _ => []

/-- An instance of the type, once `__post_init__` accepts the fields. -/
def build (kind : ElementKind) (fields : Fields) (declared : fields.map Prod.fst = kind.fieldNames) :
    Except ElementError Element :=
  match valid : kind.postInit fields with
  | .ok () => .ok ⟨kind, fields, declared, valid⟩
  | .error e => .error e

/-- A declared field takes the value it is given, or else its default. -/
def given (kind : ElementKind) (values : Fields) : Fields :=
  kind.declared.map fun d => (d.1, (values.lookup d.1).getD (d.2.getD (.json .none)))

theorem map_fst_given (kind : ElementKind) (values : Fields) :
    (given kind values).map Prod.fst = kind.fieldNames := by
  rw [given, List.map_map]
  rfl

/-- `element_type(element_id=element_id, **values)`. -/
def construct (kind : ElementKind) (elementId : Str) (values : Fields) : Except ElementError Element := do
  require (values.lookup "element_id" = none) .typeError
  require (∀ v ∈ values, v.1 ∈ kind.fieldNames) .typeError
  let values := ("element_id", .json (.str elementId)) :: values
  require (∀ d ∈ kind.declared, d.2 = none → (values.lookup d.1).isSome) .typeError
  build kind (given kind values) (map_fst_given kind values)

/-- The fields of an element with some of them changed. -/
def changed (fields changes : Fields) : Fields :=
  fields.map fun f => (f.1, (changes.lookup f.1).getD f.2)

theorem map_fst_changed (fields changes : Fields) :
    (changed fields changes).map Prod.fst = fields.map Prod.fst := by
  rw [changed, List.map_map]
  rfl

/-- `dataclasses.replace(element, **changes)`. -/
def replace (e : Element) (changes : Fields) : Except ElementError Element := do
  require (∀ c ∈ changes, c.1 ∈ e.kind.fieldNames) .typeError
  build e.kind (changed e.fields changes) ((map_fst_changed e.fields changes).trans e.declared)

/-! ## What a built element holds -/

variable {e e' : Element} {kind : ElementKind}

theorem build_eq_ok {fields : Fields} {declared : fields.map Prod.fst = kind.fieldNames}
    (h : build kind fields declared = .ok e) : e.kind = kind ∧ e.fields = fields := by
  unfold build at h
  split at h
  · cases h
    exact ⟨rfl, rfl⟩
  · cases h

theorem lookup_map_snd {α β : Type} (f : String → α → β) (l : List (String × α)) (name : String) :
    (l.map fun m => (m.1, f m.1 m.2)).lookup name = (l.lookup name).map (f name) := by
  induction l with
  | nil => rfl
  | cons m l ih =>
    obtain ⟨key, value⟩ := m
    rw [List.map_cons, List.lookup_cons, List.lookup_cons]
    by_cases h : name = key
    · simp [h]
    · simpa only [beq_eq_false_iff_ne.2 h] using ih

theorem lookup_isSome_iff {α : Type} {l : List (String × α)} {name : String} :
    (l.lookup name).isSome ↔ name ∈ l.map Prod.fst := by
  rw [List.lookup_isSome_iff, List.mem_map]
  constructor
  · rintro ⟨m, hm, heq⟩
    exact ⟨m, hm, (beq_iff_eq.1 heq).symm⟩
  · rintro ⟨m, hm, rfl⟩
    exact ⟨m, hm, beq_self_eq_true _⟩

theorem lookup_eq_none_of_notMem {α : Type} {l : List (String × α)} {name : String}
    (h : name ∉ l.map Prod.fst) : l.lookup name = none := by
  rwa [← lookup_isSome_iff, Option.not_isSome_iff_eq_none] at h

/-- A replaced element keeps its type, the changes are to declared fields, and each field holds its
change or what it held. -/
theorem replace_eq_ok {changes : Fields} (h : e.replace changes = .ok e') :
    e'.kind = e.kind ∧ (∀ c ∈ changes, c.1 ∈ e.kind.fieldNames) ∧
      ∀ name, e'.field name =
        if name ∈ e.kind.fieldNames then (changes.lookup name).getD (e.field name)
        else .json .none := by
  simp only [replace, bind_eq_ok, exists_unit, require_eq_ok] at h
  obtain ⟨hnames, hbuild⟩ := h
  obtain ⟨hkind, hfields⟩ := build_eq_ok hbuild
  refine ⟨hkind, hnames, fun name => ?_⟩
  have hlookup := lookup_map_snd (fun n v => (changes.lookup n).getD v) e.fields name
  rw [field, Fields.field, hfields, changed, hlookup, field, Fields.field]
  have hiff : (e.fields.lookup name).isSome ↔ name ∈ e.kind.fieldNames := by
    rw [lookup_isSome_iff, e.declared]
  split
  · next hname =>
    obtain ⟨v, hv⟩ := Option.isSome_iff_exists.1 (hiff.2 hname)
    rw [hv]
    rfl
  · next hname =>
    rw [← hiff, Option.not_isSome_iff_eq_none] at hname
    rw [hname]
    rfl

theorem field_of_not_declared {name : String} (h : name ∉ e.kind.fieldNames) :
    e.field name = .json .none := by
  rw [← e.declared] at h
  rw [field, Fields.field, lookup_eq_none_of_notMem h]
  rfl

theorem field_replace_of_none {changes : Fields} (h : e.replace changes = .ok e') {name : String}
    (hname : changes.lookup name = none) : e'.field name = e.field name := by
  rw [(replace_eq_ok h).2.2, hname]
  split
  · rfl
  · next hnot => exact (field_of_not_declared hnot).symm

theorem field_replace_of_some {changes : Fields} (h : e.replace changes = .ok e') {name : String}
    {value : FieldValue} (hname : changes.lookup name = some value) : e'.field name = value := by
  have hmem : name ∈ changes.map Prod.fst := by
    rw [← lookup_isSome_iff, hname]
    rfl
  obtain ⟨c, hc, rfl⟩ := List.mem_map.1 hmem
  rw [(replace_eq_ok h).2.2, if_pos ((replace_eq_ok h).2.1 c hc), hname]
  rfl

theorem requireText_eq_ok {fields : Fields} {name : String} (h : requireText fields name = .ok ()) :
    ∃ s, Fields.field fields name = .json (.str s) := by
  unfold requireText at h
  split at h
  · next s hs => exact ⟨s, hs⟩
  · cases h

theorem field_elementId (e : Element) : e.field "element_id" = .json (.str e.elementId) := by
  have hvalid := e.valid
  simp only [ElementKind.postInit, bind_eq_ok, exists_unit] at hvalid
  obtain ⟨s, hs⟩ := requireText_eq_ok hvalid.1
  rw [elementId, field, hs]

theorem elementId_eq (h : e'.field "element_id" = e.field "element_id") :
    e'.elementId = e.elementId := by
  rw [field_elementId, field_elementId] at h
  simpa using h

/-- A constructed element is of the type asked for, under the identifier it was given. -/
theorem construct_eq_ok {elementId : Str} {values : Fields}
    (h : construct kind elementId values = .ok e) : e.kind = kind ∧ e.elementId = elementId := by
  simp only [construct, bind_eq_ok, exists_unit, require_eq_ok] at h
  obtain ⟨-, -, -, hbuild⟩ := h
  obtain ⟨hkind, hfields⟩ := build_eq_ok hbuild
  refine ⟨hkind, ?_⟩
  have hfield : e.field "element_id" = .json (.str elementId) := by
    have hlookup := lookup_map_snd
      (fun n (d : Option FieldValue) => ((("element_id", .json (.str elementId)) :: values).lookup n).getD
        (d.getD (.json .none))) kind.declared "element_id"
    rw [field, Fields.field, hfields, given, hlookup]
    cases kind <;> rfl
  rw [field_elementId] at hfield
  simpa using hfield

end Element

end OmniviaCore.SemanticRegistry
