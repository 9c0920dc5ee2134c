import OmniviaCore.SemanticRegistry.VersionImpact
import OmniviaCore.Lib.Dict
import OmniviaCore.Lib.SortBy

/-!
# Applying a change set

`apply_operations` of `service/semantic_registry.py`, over the elements of a base snapshot kept under
their identifiers. An operation is refused with a finding or applied; what `coerce_element_fields` or
the canonicalizer raises about a precondition escapes. Once every operation is done the candidate is
checked as a whole: references that lead nowhere, aliases of several targets, concepts that are their
own ancestors, and references to elements of another kind. Unicode normalization, the digest and the
attributes a Python object has beside its fields are parameters.
-/

namespace OmniviaCore.SemanticRegistry

open Lib CanonicalJson

/-! ## Findings -/

/-- A `ValidationFinding`: where it was made, its code and what it names. -/
inductive ValidationFinding where
  | duplicateId (index : ℕ) (elementId : Str)
  | invalidElement (index : ℕ) (error : ElementError) (elementId : Str)
  | unknownTarget (index : ℕ) (elementId : Str)
  | staleBaseDigest (index : ℕ) (elementId : Str)
  | staleBefore (index : ℕ) (fields : List String) (elementId : Str)
  | unknownReplacement (index : ℕ) (replacement : Value) (elementId : Str)
  | invalidChange (index : ℕ) (error : ElementError) (elementId : Str)
  | unknownReference (index : ℕ) (referenced : Hashed) (elementId : Str)
  | aliasCollision (index : ℕ) (value : Str) (locale : Option Str) (scope : Hashed) (elementId : Str)
  | conceptParentCycle (index : ℕ) (elementId : Str)
  | invalidReferenceKind (index : ℕ) (field : String) (kind : ElementKind) (elementId : Str)

abbrev Elements := Dict Str Element

/-- What `getattr` finds on an element under a name that is no field, such as `__class__`: the bytes
`canonical_bytes` writes of it, or what that raises. It is the interpreter's, and the type's. -/
class ObjectModel where
  getattr : ElementKind → String → Option (Except ElementError (List UInt8))

section Canonical

variable (nfc : Str → Str) (sha256 : List UInt8 → String)

mutual

/-- `_plain` of a JSON value. -/
def plainValue : Value → Except ElementError Value
  | .str s => .ok (.str (nfc s))
  | .mapping members => do
    let members ← plainMembers [] members
    pure (.mapping members)
  | .sequence items => do
    let items ← plainItems items
    pure (.sequence items)
  | value => .ok value

def plainMembers : List Str → List (Key × Value) → Except ElementError (List (Key × Value))
  | _, [] => .ok []
  | seen, (key, item) :: members =>
    match key with
    | .other typeName => .error (.keyType typeName)
    | .name name => do
      let name := nfc name
      require (name ∉ seen) (.keysCollide name)
      let item ← plainValue item
      let members ← plainMembers (name :: seen) members
      pure ((.name name, item) :: members)

def plainItems : List Value → Except ElementError (List Value)
  | [] => .ok []
  | item :: items => do
    let item ← plainValue item
    let items ← plainItems items
    pure (item :: items)

end

def sortedTexts (items : List Value) : List Value :=
  let texts := items.filterMap fun
    | .str s => some s
    | _ => none
  if texts.length = items.length then (sortBy codePoints texts).map .str else items

/-- `_plain` of the value of a field. -/
def plain : FieldValue → Except ElementError Value
  | .json value => plainValue nfc value
  | .lifecycleState state => plainValue nfc (textValue state.value)
  | .valueKind kind => plainValue nfc (textValue kind.value)
  | .constraintKind kind => plainValue nfc (textValue kind.value)
  | .tuple items => do
    let items ← plainItems nfc items
    pure (.sequence (sortedTexts items))

/-- `canonical_bytes` of `semantic_registry/canonical.py`, of a value `_plain` has lowered. -/
def registryBytes (value : Value) : Except ElementError (List UInt8) :=
  match canonicalBytes value [] with
  | .ok bytes => .ok bytes
  | .error (.contract error) => .error (.canonical error)
  | .error .valueError => .error .valueError

def fieldBytes (value : FieldValue) : Except ElementError (List UInt8) := do
  let value ← plain nfc value
  registryBytes value

/-- `content_digest`. -/
def contentDigest (element : Element) : Except ElementError String := do
  let members ← element.fields.mapM fun f => do
    let value ← plain nfc f.2
    pure (Key.name (ofChars f.1.toList), value)
  let bytes ← registryBytes (.mapping members)
  pure ("sha256:" ++ sha256 bytes)

/-- `canonical_bytes(getattr(element, name))`, where the element has the attribute. -/
def attributeBytes [ObjectModel] (element : Element) (name : String) :
    Option (Except ElementError (List UInt8)) :=
  if element.has name then some (fieldBytes nfc (element.field name))
  else ObjectModel.getattr element.kind name

/-- Whether an attribute has the value a precondition expects. -/
def matchesField [ObjectModel] (element : Element) (expected : String × FieldValue) :
    Except ElementError Bool :=
  match attributeBytes nfc element expected.1 with
  | none => .ok false
  | some actual => do
    let actual ← actual
    let expected ← fieldBytes nfc expected.2
    pure (actual = expected)

/-- `_stale_before_fields`. -/
def staleBeforeFields [ObjectModel] (element : Element) (before : JsonMapping) :
    Except ElementError (List String) := do
  let fields ← coerceElementFields before
  let current ← fields.mapM (matchesField nfc element)
  pure (((fields.zip current).filter fun f => f.2 = false).map fun f => f.1.1)

/-- The digest an operation was written for, if it names one, is the element's. -/
def digestHolds (element : Element) : Option String → Except ElementError Bool
  | none => .ok true
  | some digest => do
    let current ← contentDigest nfc sha256 element
    pure (digest = current)

/-- Both preconditions of an operation, against the element it targets. -/
def precondition [ObjectModel] (index : ℕ) (op : ChangeOperation) (elementId : Str) (element : Element) :
    Except ElementError (Option ValidationFinding) := do
  let holds ← digestHolds nfc sha256 element op.basePayloadDigest
  if holds = false then pure (some (.staleBaseDigest index elementId))
  else match op.before with
    | none => pure none
    | some before => do
      let stale ← staleBeforeFields nfc element before
      pure (if stale = [] then none
        else some (.staleBefore index (sortBy String.toList stale) elementId))

end Canonical

/-! ## One operation -/

/-- What became of an operation. -/
inductive Outcome where
  | refused (finding : ValidationFinding)
  | applied (elements : Elements)

/-- `_LIFECYCLE_BY_KIND`. -/
def OperationKind.lifecycle : OperationKind → Option LifecycleState
  | .deprecateElement => some .deprecated
  | .replaceElement => some .replaced
  | .removeElement => some .removed
  | _ => none

/-- `_AXIOM_KINDS`. -/
def OperationKind.axiomKind : OperationKind → Option ConstraintKind
  | .changeEquivalence => some .equivalence
  | .changeDisjointness => some .disjointness
  | _ => none

/-- `_apply_lifecycle`: the element in its new state, or nothing if its type has no lifecycle. -/
def applyLifecycle (element : Element) (state : LifecycleState) : Except ElementError (Option Element) :=
  if element.has "lifecycle_state" then
    some <$> element.replace [("lifecycle_state", .lifecycleState state)]
  else .ok none

/-- `_axiom_constraint`. -/
def axiomConstraint (targetElementId : Str) (kind : ConstraintKind) (parameters : JsonMapping) :
    Except ElementError Element :=
  Element.construct .constraint (targetElementId ++ .scalar '.' :: ofChars kind.value.toList)
    [("target_element_id", .json (.str targetElementId)), ("constraint_kind", .constraintKind kind),
      ("parameters", .json (.mapping parameters))]

/-- `elements.get` of a JSON value. -/
def Elements.find (elements : Elements) (key : Value) : Except ElementError (Option Element) := do
  match ← hashed key with
  | .text s => pure (elements.get s)
  | _ => pure none

def applyAdd (index : ℕ) (op : ChangeOperation) (kind : ElementKind) (elementId : Str)
    (elements : Elements) : Outcome :=
  if (elements.get elementId).isSome then .refused (.duplicateId index elementId)
  else
    match (do
      let fields ← coerceElementFields op.after
      Element.construct kind elementId fields) with
    | .ok element => .applied (elements.set elementId element)
    | .error error => .refused (.invalidElement index error elementId)

/-- A lifecycle transition of the element an operation targets. -/
def applyTransition (state : LifecycleState) (elementId : Str) (element : Element)
    (elements : Elements) : Except ElementError Outcome := do
  match ← applyLifecycle element state with
  | none => pure (.applied (elements.del elementId))
  | some element => pure (.applied (elements.set elementId element))

/-- An operation on the element it targets, once the preconditions hold. -/
def applyChange (index : ℕ) (op : ChangeOperation) (elementId : Str) (element : Element)
    (elements : Elements) : Except ElementError Outcome :=
  match op.kind.lifecycle, op.kind.axiomKind with
  | some state, _ => do
    let replacement ← if op.kind = .replaceElement
      then elements.find (op.after.get "replacement_element_id") else pure (some element)
    match replacement with
    | none =>
      pure (.refused (.unknownReplacement index (op.after.get "replacement_element_id") elementId))
    | some _ => applyTransition state elementId element elements
  | none, some kind => do
    let constraint ← axiomConstraint elementId kind op.after
    pure (.applied (elements.set constraint.elementId constraint))
  | none, none =>
    match (do
      let fields ← coerceElementFields op.after
      element.replace fields) with
    | .ok element => .ok (.applied (elements.set elementId element))
    | .error error => .ok (.refused (.invalidChange index error elementId))

section Apply

variable (nfc : Str → Str) (sha256 : List UInt8 → String)

def applyOperation [ObjectModel] (index : ℕ) (op : ChangeOperation) (elements : Elements) :
    Except ElementError Outcome :=
  match op.kind.added, op.proposedElementId with
  | some kind, some elementId => .ok (applyAdd index op kind elementId elements)
  | _, _ =>
    let elementId := op.targetElementId.getD (ofChars "None".toList)
    match elements.get elementId with
    | none => .ok (.refused (.unknownTarget index elementId))
    | some element => do
      match ← precondition nfc sha256 index op elementId element with
      | some finding => pure (.refused finding)
      | none => applyChange index op elementId element elements

/-- The operations in the order given, each with its index. -/
def applyEach [ObjectModel] : List (ChangeOperation × ℕ) → Elements →
    Except ElementError (Elements × List ValidationFinding)
  | [], elements => .ok (elements, [])
  | (op, index) :: operations, elements => do
    match ← applyOperation nfc sha256 index op elements with
    | .applied elements => applyEach operations elements
    | .refused finding => do
      let (elements, findings) ← applyEach operations elements
      pure (elements, finding :: findings)

end Apply

/-! ## The candidate as a whole -/

/-- `_REFERENCE_FIELDS`. -/
def REFERENCE_FIELDS : List String :=
  ["parent_concept_ids", "domain_id", "range_id", "subject_concept_id", "object_concept_id",
    "inverse_id", "target_element_id", "target_concept_id", "vocabulary_element_id"]

/-- `_REFERENCE_PARAMETERS`. -/
def REFERENCE_PARAMETERS : List String := ["equivalent_element_id", "disjoint_with_element_id"]

def referencesOf : FieldValue → List Value
  | .json (.str s) => [.str s]
  | .tuple items => items
  | _ => []

/-- `_referenced_ids`. -/
def referencedIds (element : Element) : List Value :=
  REFERENCE_FIELDS.flatMap (fun name => referencesOf (element.field name)) ++
    match element.field "parameters" with
    | .json (.mapping parameters) => REFERENCE_PARAMETERS.flatMap fun key =>
      referencesOf (.json (JsonMapping.get parameters key))
    | _ => []

/-- The references of the elements that lead nowhere. -/
def unknownReferences (index : ℕ) (elements : Elements) :
    Except ElementError (List ValidationFinding) := do
  let findings ← elements.values.mapM fun element =>
    (referencedIds element).mapM fun referenced => do
      let found ← elements.find referenced
      let name ← hashed referenced
      pure (if found.isSome then none else some (.unknownReference index name element.elementId))
  pure ((findings.flatten).filterMap id)

section Aliases

variable (nfc : Str → Str)

def aliasKey (element : Element) : Except ElementError (Str × Option Str × Hashed) := do
  let value ← match element.field "value" with
    | .json (.str s) => pure (nfc s)
    | _ => throw .typeError
  let locale ← match element.field "locale" with
    | .json .none => pure none
    | .json (.str s) => pure (some (nfc s))
    | _ => throw .typeError
  let scope ← match element.field "scope" with
    | .json scope => hashed scope
    | _ => throw .typeError
  pure (value, locale, scope)

def aliasTargets (aliases : List Element) : List Str :=
  (aliases.filterMap fun element => match element.field "target_element_id" with
    | .json (.str s) => some s
    | _ => none).dedup

/-- `_alias_collision_findings`. -/
def aliasCollisionFindings (index : ℕ) (elements : Elements) :
    Except ElementError (List ValidationFinding) := do
  let keyed ← (elements.values.filter fun element => element.kind = .alias).mapM fun element => do
    let key ← aliasKey nfc element
    pure (key, element)
  let groups : Dict (Str × Option Str × Hashed) (List Element) :=
    keyed.foldl (fun groups k => groups.set k.1 ((groups.get k.1).getD [] ++ [k.2]))
      ⟨[], List.nodup_nil⟩
  pure (groups.entries.flatMap fun group =>
    if 1 < (aliasTargets group.2).length then group.2.map fun element =>
      .aliasCollision index group.1.1 group.1.2.1 group.1.2.2 element.elementId
    else [])

end Aliases

inductive Color where
  | white | gray | black
  deriving DecidableEq

/-- The walk over the concepts: their colours, and those found on a cycle. -/
structure Walk where
  color : Dict Str Color
  cyclic : List Str

/-- The parents of a concept that are named by a text. -/
def parentsOf (element : Element) : List Str :=
  (referencesOf (element.field "parent_concept_ids")).filterMap fun
    | .str s => some s
    | _ => none

/-- `visit`: the fuel bounds the stack, which never holds a concept twice. -/
def visit (concepts : Elements) : ℕ → Str → List Str → Walk → Walk
  | 0, _, _, walk => walk
  | fuel + 1, node, stack, walk =>
    let stack := stack ++ [node]
    let parents := ((concepts.get node).map parentsOf).getD []
    let walk := parents.foldl (fun walk parent =>
      match walk.color.get parent with
      | some .gray => { walk with cyclic := walk.cyclic ++ stack.dropWhile (· ≠ parent) }
      | some .white => visit concepts fuel parent stack walk
      | _ => walk) { walk with color := walk.color.set node .gray }
    { walk with color := walk.color.set node .black }

/-- `_concept_cycle_findings`. -/
def conceptCycleFindings (index : ℕ) (elements : Elements) : List ValidationFinding :=
  let concepts := elements.filterValues fun element => element.kind = .concept
  let names := concepts.entries.map Prod.fst
  let start : Walk := ⟨concepts.mapValues fun _ => .white, []⟩
  let walk := names.foldl (fun walk name =>
    match walk.color.get name with
    | some .white => visit concepts names.length name [] walk
    | _ => walk) start
  (sortBy codePoints walk.cyclic.dedup).map fun name => .conceptParentCycle index name

/-- `require_concept`. -/
def requireConcept (index : ℕ) (elements : Elements) (owner : Element) (name : String) :
    Except ElementError (List ValidationFinding) :=
  match owner.field name with
  | .json .none => .ok []
  | .json target => do
    match ← elements.find target with
    | none => pure []
    | some target => pure (if target.kind = .concept then []
      else [.invalidReferenceKind index name target.kind owner.elementId])
  | _ => .error .typeError

/-- The fields of an element that must lead to concepts. -/
def conceptFields (element : Element) : List String :=
  match element.kind with
  | .relationship => ["subject_concept_id", "object_concept_id"]
  | .actionType => ["subject_concept_id", "target_concept_id"]
  | .property =>
    match element.field "value_kind" with
    | .valueKind .object => ["domain_id", "range_id"]
    | _ => ["domain_id"]
  | _ => []

/-- `_reference_kind_findings`. -/
def referenceKindFindings (index : ℕ) (elements : Elements) :
    Except ElementError (List ValidationFinding) := do
  let findings ← elements.values.mapM fun element =>
    (conceptFields element).mapM (requireConcept index elements element)
  pure (findings.flatten.flatten)

/-- A base snapshot: elements no two of which share an identifier. -/
structure Snapshot where
  elements : List Element
  nodup : (elements.map Element.elementId).Nodup

/-- `apply_operations`. -/
def applyOperations [ObjectModel] (nfc : Str → Str) (sha256 : List UInt8 → String) (base : Snapshot)
    (operations : List ChangeOperation) : Except ElementError (List Element × List ValidationFinding) := do
  let elements := Dict.ofList Element.elementId base.elements
  let (elements, findings) ← applyEach nfc sha256 operations.zipIdx elements
  let structural := operations.length
  let unknown ← unknownReferences structural elements
  let collisions ← aliasCollisionFindings nfc structural elements
  let cycles := conceptCycleFindings structural elements
  let kinds ← referenceKindFindings structural elements
  pure (sortBy (fun e => codePoints (Element.elementId e)) elements.values,
    findings ++ unknown ++ collisions ++ cycles ++ kinds)

end OmniviaCore.SemanticRegistry
