import OmniviaCore.SemanticRegistry.ConceptCycles
import OmniviaCore.SemanticRegistry.ImpactSoundness

/-!
# Where an operation is safe

The body of the loop of `apply_operations` answers an operation with a finding or applies it, unless
something raises outside its `try`: a digest or a precondition that cannot be evaluated, a replacement that
cannot be looked up. `EvaluableStep` says that nothing does (`applyOperation_returns`), and `KeepingStep` that
the operation does not rename its target, so that every element stays under its own identifier
(`KeepingStep.keyed`).
-/

namespace OmniviaCore.SemanticRegistry

open Lib CanonicalJson

variable {nfc : Str → Str} {sha256 : List UInt8 → String} {op : ChangeOperation} {index : ℕ}
  {elements elements' : Elements} {id : Str} {e e' : Element}

/-! ## Operations and their targets -/

/-- The operation changes an element that is there. -/
def ChangeOperation.Targets (op : ChangeOperation) (elements : Elements) (id : Str) (e : Element) : Prop :=
  op.kind.added = none ∧ op.targetElementId = some id ∧ elements.get id = some e

/-- The operation names an identifier: as its target, as what it proposes, or as the constraint that states
an axiom of its target. -/
def ChangeOperation.Names (op : ChangeOperation) (id : Str) : Prop :=
  op.targetElementId = some id ∨ op.proposedElementId = some id ∨
    ∃ kind target, op.kind.axiomKind = some kind ∧ op.targetElementId = some target ∧
      id = target ++ .scalar '.' :: ofChars kind.value.toList

/-- A direct change its target accepts names no other identifier for it. -/
def KeepingStep [ObjectModel] (nfc : Str → Str) (sha256 : List UInt8 → String) (op : ChangeOperation)
    (elements : Elements) : Prop :=
  ∀ id e, op.Targets elements id e → precondition nfc sha256 0 op id e = .ok none →
    op.kind.lifecycle = none → op.kind.axiomKind = none → ∀ fields e',
      coerceElementFields op.after = .ok fields → e.replace fields = .ok e' →
        ∀ value, lookup op.after "element_id".toList = some value → value = .str id

/-! ## Elements -/

namespace Element

theorem build_of_valid {kind : ElementKind} {fields : Fields}
    (declared : fields.map Prod.fst = kind.fieldNames) (hvalid : kind.postInit fields = .ok ()) :
    build kind fields declared = .ok ⟨kind, fields, declared, hvalid⟩ := by
  unfold build
  split
  · rfl
  · next h => rw [hvalid] at h; cases h

end Element

/-- Whether a precondition holds does not depend on the place of the operation. -/
theorem precondition_none [ObjectModel] {i j : ℕ} (h : precondition nfc sha256 i op id e = .ok none) :
    precondition nfc sha256 j op id e = .ok none := by
  unfold precondition at h ⊢
  obtain ⟨holds, hholds, h⟩ := bind_eq_ok.1 h
  rw [hholds, ok_bind]
  cases holds with
  | false => cases h
  | true =>
    rw [if_neg (by decide)] at h ⊢
    cases hbefore : op.before with
    | none => rfl
    | some before =>
      rw [hbefore] at h
      obtain ⟨stale, hstale, h⟩ := bind_eq_ok.1 h
      simp only [hstale, ok_bind]
      by_cases hnil : stale = []
      · rw [if_pos hnil]
        rfl
      · rw [if_neg hnil] at h
        cases h

def replacementOf (op : ChangeOperation) (e : Element) (elements : Elements) :
    Except ElementError (Option Element) :=
  if op.kind = .replaceElement then elements.find (op.after.get "replacement_element_id") else .ok (some e)

theorem applyChange_lifecycle {state : LifecycleState} (h : op.kind.lifecycle = some state) :
    applyChange index op id e elements = replacementOf op e elements >>= fun
      | none => .ok (.refused (.unknownReplacement index (op.after.get "replacement_element_id") id))
      | some _ => applyTransition state id e elements := by
  unfold applyChange replacementOf
  rw [h]
  by_cases hkind : op.kind = .replaceElement
  · simp only [if_pos hkind]
    rfl
  · simp only [if_neg hkind]
    rfl

/-- No identifier an element stands under is blank. -/
def Elements.Given (elements : Elements) : Prop := ∀ id e, elements.get id = some e → id.all isSpace = false

/-- An applied change gives its target another state, drops it, states an axiom of it, or replaces the
fields it names. -/
theorem applyChange_applied (h : applyChange index op id e elements = .ok (.applied elements')) :
    (∃ state e', e.replace [("lifecycle_state", .lifecycleState state)] = .ok e' ∧
      elements' = elements.set id e') ∨
    elements' = elements.del id ∨
    (∃ kind constraint, op.kind.axiomKind = some kind ∧ axiomConstraint id kind op.after = .ok constraint ∧
      elements' = elements.set constraint.elementId constraint) ∨
    ∃ fields e', op.kind.lifecycle = none ∧ op.kind.axiomKind = none ∧
      coerceElementFields op.after = .ok fields ∧ e.replace fields = .ok e' ∧
      elements' = elements.set id e' := by
  cases hlifecycle : op.kind.lifecycle with
  | some state =>
    rw [applyChange_lifecycle hlifecycle] at h
    obtain ⟨found, -, h⟩ := bind_eq_ok.1 h
    cases found with
    | none => cases h
    | some replacement =>
      unfold applyTransition at h
      obtain ⟨transitioned, htransitioned, h⟩ := bind_eq_ok.1 h
      unfold applyLifecycle at htransitioned
      split at htransitioned
      · obtain ⟨e', he', rfl⟩ := except_map_eq_ok.1 htransitioned
        cases h
        exact .inl ⟨state, e', he', rfl⟩
      · cases htransitioned
        cases h
        exact .inr (.inl rfl)
  | none =>
    cases hkind : op.kind.axiomKind with
    | some kind =>
      unfold applyChange at h
      rw [hlifecycle, hkind] at h
      obtain ⟨constraint, hconstraint, h⟩ := bind_eq_ok.1 h
      cases h
      exact .inr (.inr (.inl ⟨kind, constraint, rfl, hconstraint, rfl⟩))
    | none =>
      obtain ⟨fields, e', hfields, he', hset⟩ := applyChange_direct hlifecycle hkind h
      exact .inr (.inr (.inr ⟨fields, e', rfl, rfl, hfields, he', hset⟩))

theorem Elements.Keyed.del (h : elements.Keyed) (id : Str) : Elements.Keyed (Dict.del elements id) := by
  intro key e he
  rw [Dict.get_del] at he
  split at he
  · cases he
  · exact h key e he

/-- A change that names no other identifier keeps the one it targets. -/
theorem elementId_of_replace {fields : Fields} (hfields : coerceElementFields op.after = .ok fields)
    (he' : e.replace fields = .ok e') (hid : e.elementId = id)
    (hrename : ∀ value, lookup op.after "element_id".toList = some value → value = .str id) :
    e'.elementId = id := by
  obtain ⟨named, hnamed⟩ := exists_named op.valid_after
  rw [hnamed] at hfields hrename
  rcases lookup_coerceElementFields hfields "element_id" with ⟨-, hnone⟩ | ⟨value, v, hlookup, hv, hsome⟩
  · rw [Element.elementId_eq (Element.field_replace_of_none he' hnone), hid]
  · obtain rfl := hrename value hlookup
    have hfield := Element.field_replace_of_some he' hsome
    rw [e'.field_elementId] at hfield
    have hv' : coerceField "element_id" (.str id) = .ok (.json (.str id)) := rfl
    rw [hv', Except.ok.injEq] at hv
    rw [← hv] at hfield
    simpa using hfield

/-- A step that renames nothing keeps every element under its own identifier. -/
theorem KeepingStep.keyed [ObjectModel] (h : KeepingStep nfc sha256 op elements) (hkeyed : elements.Keyed)
    (happlied : applyOperation nfc sha256 index op elements = .ok (.applied elements')) :
    elements'.Keyed := by
  rcases applyOperation_applied happlied with ⟨kind, id, e, -, -, -, -, hid, rfl⟩ |
    ⟨id, e, hadded, htarget, hget, hpre, hchange⟩
  · exact hkeyed.set hid
  · have hid := hkeyed id e hget
    rcases applyChange_applied hchange with ⟨state, e', he', rfl⟩ | rfl | ⟨kind, constraint, -, -, rfl⟩ |
      ⟨fields, e', hlifecycle, hkind, hfields, he', rfl⟩
    · refine hkeyed.set ?_
      rw [Element.elementId_eq (Element.field_replace_of_none he' rfl), hid]
    · exact hkeyed.del id
    · exact hkeyed.set rfl
    · have hrename := h id e ⟨hadded, htarget, hget⟩ (precondition_none hpre) hlifecycle hkind fields e'
        hfields he'
      exact hkeyed.set (elementId_of_replace hfields he' hid hrename)

theorem Elements.Given.set (h : elements.Given) (hid : id.all isSpace = false) (e : Element) :
    Elements.Given (Dict.set elements id e) := by
  intro key e' hget
  rw [Dict.get_set] at hget
  split at hget
  · next hkey => rwa [hkey]
  · exact h key e' hget

end OmniviaCore.SemanticRegistry
