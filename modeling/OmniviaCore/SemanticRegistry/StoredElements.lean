import OmniviaCore.SemanticRegistry.StoredFields

/-!
# What becomes of an element

A row holds an element's document, and `_element_from_json` builds an element of what is read of it.
`__post_init__` is asked again, about normalized texts and about numbers as they were written, and may
refuse what it had passed; `Rereadable` says that it does not. A rereadable element is read as one of its
type, whose fields are the stored ones, and which is written as the element was (`exists_stored`).
-/

namespace OmniviaCore.SemanticRegistry

open Lib CanonicalJson

variable {nfc : Str → Str} {sha256 : List UInt8 → String} {room : ℕ}

/-! ## Where an element can be read again -/

def FieldValue.Rewrites : FieldValue → Prop
  | .json value => CanonicalJson.Rewrites value
  | .tuple items => ∀ item ∈ items, CanonicalJson.Rewrites item
  | _ => True

/-- What the items of a tuple are compared as when they are read again. -/
def normalizedKeys (nfc : Str → Str) (items : List Value) : List (Except ElementError Hashed) :=
  items.map fun item => hashed (normalized nfc item)

/-- Numbers are exact, bounds are written as integers, and texts stay apart when they are normalized. -/
structure Rereadable (nfc : Str → Str) (e : Element) : Prop where
  numbers : ∀ f ∈ e.fields, f.2.Rewrites
  bounds : ∀ name ∈ ["min_cardinality", "max_cardinality"], ∀ n negative x, e.field name = .json (.int n) →
    requireBinary64 [] (.int n) = .ok (negative, x) →
      ∀ h : x.mantissa ≠ 0, IntegerText (x.shortest h)
  distinct : ∀ name ∈ ["parent_concept_ids", "characteristics"], ∀ items, e.field name = .tuple items →
    (normalizedKeys nfc items).Nodup
  parents : ∀ items, e.field "parent_concept_ids" = .tuple items →
    hashed (.str (nfc e.elementId)) ∉ normalizedKeys nfc items

/-! ## Numbers -/

theorem hashed_number {value : Value} {negative : Bool} {x : Magnitude}
    (h : requireBinary64 [] value = .ok (negative, x)) :
    hashed value = .ok (.number (x.signedValue negative)) := by
  cases value with
  | int n => rw [hashed, requireBinary64_int h]
  | float y =>
    cases y with
    | finite negative' y =>
      cases h
      rfl
    | infinite | nan => cases h
  | none | bool | str | binary | mapping | sequence | other => cases h

theorem hashed_rereadToken {value : Value} (h : ∀ negative x, requireBinary64 [] value = .ok (negative, x) →
    Exact x) : hashed (rereadToken value) = hashed value := by
  unfold rereadToken
  split
  · next negative x hx =>
    obtain ⟨negative', y, hy, hsame⟩ := (h negative x hx).requireBinary64 negative
    rw [hashed_number hy, hashed_number hx, hsame]
  · rfl

theorem hashed_reread {value : Value} (hw : Rewrites value) : hashed (reread value) = hashed value := by
  cases hw with
  | int h => exact hashed_rereadToken h
  | @float x h =>
    refine hashed_rereadToken fun negative y hy => ?_
    cases x with
    | finite negative' z =>
      cases hy
      exact h _ _ rfl
    | infinite | nan => cases hy
  | none | bool | str | binary | other | mapping | sequence => rfl

theorem rereadToken_int {n : ℤ} (h : ∀ negative x, requireBinary64 [] (.int n) = .ok (negative, x) → Exact x)
    (hinteger : ∀ negative x, requireBinary64 [] (.int n) = .ok (negative, x) →
      ∀ h : x.mantissa ≠ 0, IntegerText (x.shortest h)) : rereadToken (.int n) = .int n := by
  have hsame := hashed_rereadToken h
  cases hn : requireBinary64 [] (.int n) with
  | error e =>
    rw [rereadToken, hn]
  | ok p =>
    obtain ⟨negative, x⟩ := p
    have hreread : rereadToken (.int n) = rereadNumber negative x := by
      rw [rereadToken, hn]
    obtain ⟨m, hm⟩ : ∃ m, rereadNumber negative x = .int m := by
      unfold rereadNumber
      split
      next hx => exact ⟨_, if_pos (hinteger negative x hn hx)⟩
      next => exact ⟨0, rfl⟩
    rw [hreread, hm] at hsame ⊢
    simp only [hashed, Except.ok.injEq, Hashed.number.injEq, Int.cast_inj] at hsame
    rw [hsame]

/-! ## Tuples -/

theorem perm_sortedTexts (items : List Value) : (sortedTexts items).Perm items := by
  rcases texts_or_not items with ⟨texts, rfl⟩ | ⟨item, hitem, hne⟩
  · rw [sortedTexts_texts]
    exact (perm_sortBy texts).map _
  · rw [sortedTexts_of_not hitem hne]

theorem plainItems_eq_ok {items lowered : List Value} (h : plainItems nfc items = .ok lowered) :
    lowered = items.map (normalized nfc) := by
  rw [plainItems_eq] at h
  have hall := mapM_eq_ok.1 h
  clear h
  induction hall with
  | nil => rfl
  | cons hitem _ ih => rw [ih, List.map_cons, plainValue_eq_ok hitem]

theorem rewrites_normalized {value : Value} (h : Rewrites value) {lowered : Value}
    (hlowered : plainValue nfc value = .ok lowered) : Rewrites (normalized nfc value) := by
  obtain rfl := plainValue_eq_ok hlowered
  clear hlowered
  induction h with
  | none => exact .none
  | bool b => exact .bool b
  | int h => exact .int h
  | float h => exact .float h
  | str s => exact .str _
  | binary => exact .binary
  | other typeName => exact .other typeName
  | @mapping members h ih =>
    refine .mapping ?_
    induction members with
    | nil => exact fun m hm => absurd hm List.not_mem_nil
    | cons m members ih' =>
      rw [List.forall_mem_cons] at h ih
      rw [normalizedMembers, List.forall_mem_cons]
      exact ⟨ih.1, ih' h.2 ih.2⟩
  | @sequence items h ih =>
    refine .sequence ?_
    induction items with
    | nil => exact fun item hitem => absurd hitem List.not_mem_nil
    | cons item items ih' =>
      rw [List.forall_mem_cons] at h ih
      rw [normalizedItems, List.forall_mem_cons]
      exact ⟨ih.1, ih' h.2 ih.2⟩

/-- Items that can be compared can be compared when they are normalized. -/
theorem exists_hashed_normalized {value : Value} (h : ∃ key, hashed value = .ok key) :
    ∃ key, hashed (normalized nfc value) = .ok key := by
  obtain ⟨key, hkey⟩ := h
  cases value with
  | str s => exact ⟨_, rfl⟩
  | none | bool | int | float => exact ⟨key, hkey⟩
  | binary | other | mapping | sequence => cases hkey

/-! ## Fields that are read again -/

/-- What is read of the fields of an element, under their names. -/
def StoredFields (nfc : Str → Str) : Fields → Fields → Prop :=
  List.Forall₂ fun f g => g.1 = f.1 ∧ StoredField nfc f.2 g.2

section Fields

variable {fields stored : Fields} {name : String}

theorem StoredFields.names (h : StoredFields nfc fields stored) :
    stored.map Prod.fst = fields.map Prod.fst := by
  induction h with
  | nil => rfl
  | cons hfield _ ih => rw [List.map_cons, List.map_cons, hfield.1, ih]

theorem StoredFields.field (h : StoredFields nfc fields stored) (name : String) :
    StoredField nfc (Fields.field fields name) (Fields.field stored name) := by
  unfold Fields.field
  induction h with
  | nil => exact @StoredField.json nfc .none .none rfl
  | @cons f g fields stored hfield _ ih =>
    obtain ⟨key, value⟩ := f
    obtain ⟨key', value'⟩ := g
    obtain ⟨rfl, hvalue⟩ : key' = key ∧ StoredField nfc value value' := hfield
    rw [List.lookup_cons, List.lookup_cons]
    by_cases hname : name = key'
    · rw [beq_iff_eq.2 hname]
      exact hvalue
    · rw [beq_eq_false_iff_ne.2 hname]
      exact ih

theorem StoredField.text {s : Str} {field : FieldValue} (h : StoredField nfc (.json (.str s)) field) :
    field = .json (.str (nfc s)) := by
  cases h with
  | json h =>
    cases h
    rfl

theorem StoredFields.requireText (hnfc : Normalizes nfc) (h : StoredFields nfc fields stored)
    (hold : requireText fields name = .ok ()) : requireText stored name = .ok () := by
  have hfield := h.field name
  unfold SemanticRegistry.requireText at hold ⊢
  split at hold
  · next s hs =>
    rw [require_eq_ok] at hold
    rw [hs] at hfield
    rw [hfield.text]
    exact require_pos (hnfc.blank s hold)
  · cases hold

theorem StoredFields.requireMapping (h : StoredFields nfc fields stored)
    (hold : requireMapping fields name = .ok ()) : requireMapping stored name = .ok () := by
  have hfield := h.field name
  unfold SemanticRegistry.requireMapping at hold ⊢
  split at hold
  · next members hmembers =>
    rw [hmembers] at hfield
    generalize Fields.field stored name = field at hfield
    cases hfield with
    | json hlowered =>
      simp only [plainValue, bind_eq_ok, pure_eq_ok] at hlowered
      obtain ⟨members', -, rfl⟩ := hlowered
      rfl
  · cases hold

theorem StoredFields.bound (h : StoredFields nfc fields stored) (hold : requireBound fields name = .ok ())
    (hwritten : ∀ n, Fields.field fields name = .json (.int n) → rereadToken (.int n) = .int n) :
    Fields.field stored name = Fields.field fields name := by
  have hfield := h.field name
  unfold requireBound at hold
  generalize Fields.field stored name = field at hfield ⊢
  generalize Fields.field fields name = given at hold hfield hwritten ⊢
  cases hfield with
  | @json value lowered hlowered =>
    cases value with
    | none | bool => cases hlowered; rfl
    | int n =>
      cases hlowered
      exact congrArg FieldValue.json (hwritten n rfl)
    | float | str | binary | other | mapping | sequence =>
      rw [require_eq_ok] at hold
      cases hold
  | lifecycleState | valueKind | constraintKind => rfl
  | tuple =>
    rw [require_eq_ok] at hold
    cases hold

theorem mapM_hashed {items : List Value} {keys : List Hashed} :
    items.mapM hashed = .ok keys ↔ items.map hashed = keys.map .ok := by
  rw [mapM_eq_ok, map_eq_map_iff_forall₂]

/-- The items of a tuple are compared, when they are read, as they are when they are normalized. -/
theorem exists_tupleItems (h : StoredFields nfc fields stored)
    (hnumbers : (Fields.field fields name).Rewrites) {keys : List Hashed}
    (hkeys : tupleItems fields name = .ok keys) :
    ∃ items keys', Fields.field fields name = .tuple items ∧ tupleItems stored name = .ok keys' ∧
      (keys'.map Except.ok).Perm (normalizedKeys nfc items) := by
  have hfield := h.field name
  unfold tupleItems at hkeys ⊢
  split at hkeys
  · next items hitems =>
    rw [hitems] at hfield hnumbers
    generalize Fields.field stored name = field at hfield
    cases hfield with
    | @tuple _ lowered hlowered =>
      have hhashed : ∀ item ∈ items, ∃ key, hashed (normalized nfc item) = .ok key := fun item hitem =>
        exists_hashed_normalized (mapM_isOk.1 ⟨keys, hkeys⟩ item hitem)
      have hperm : (((sortedTexts lowered).map reread).map hashed).Perm (normalizedKeys nfc items) := by
        have hreread : ((sortedTexts lowered).map reread).map hashed = (sortedTexts lowered).map hashed := by
          rw [List.map_map]
          refine List.map_congr_left fun item hitem => hashed_reread ?_
          rw [plainItems_eq] at hlowered
          obtain ⟨value, hvalue, hplain⟩ :=
            exists_of_forall₂_right (mapM_eq_ok.1 hlowered) (mem_sortedTexts.1 hitem)
          rw [plainValue_eq_ok hplain]
          exact rewrites_normalized (hnumbers value hvalue) hplain
        rw [hreread, normalizedKeys, plainItems_eq_ok hlowered]
        refine ((perm_sortedTexts _).map hashed).trans (List.Perm.of_eq ?_)
        rw [List.map_map]
        rfl
      obtain ⟨keys', hkeys'⟩ : ∃ keys', ((sortedTexts lowered).map reread).mapM hashed = .ok keys' := by
        refine mapM_isOk.2 fun item hitem => ?_
        obtain ⟨value, hvalue, hkey⟩ := List.mem_map.1 (hperm.mem_iff.1 (List.mem_map_of_mem hitem))
        rw [← hkey]
        exact hhashed value hvalue
      exact ⟨items, keys', hitems, hkeys', mapM_hashed.1 hkeys' ▸ hperm⟩
  · cases hkeys

end Fields

/-- What is read of a rereadable element passes the check of its type. -/
theorem Rereadable.postInit (hnfc : Normalizes nfc) {e : Element} (hr : Rereadable nfc e) {stored : Fields}
    (h : StoredFields nfc e.fields stored) : e.kind.postInit stored = .ok () := by
  have hnumbers : ∀ name, (Fields.field e.fields name).Rewrites := by
    intro name
    unfold Fields.field
    cases hlookup : e.fields.lookup name with
    | none => exact .none
    | some value =>
      obtain ⟨l, r, heq, -⟩ := List.lookup_eq_some_iff.1 hlookup
      exact hr.numbers (name, value) (heq ▸ List.mem_append_right _ List.mem_cons_self)
  have hduplicates : ∀ name ∈ ["parent_concept_ids", "characteristics"],
      noDuplicates e.fields name = .ok () → noDuplicates stored name = .ok () := by
    intro name hname hold
    simp only [noDuplicates, bind_eq_ok, require_eq_ok] at hold
    obtain ⟨keys, hkeys, -⟩ := hold
    obtain ⟨items, keys', hitems, hkeys', hperm⟩ := exists_tupleItems h (hnumbers name) hkeys
    have hnodup := hperm.nodup_iff.2 (hr.distinct name hname items hitems)
    rw [noDuplicates, hkeys', ok_bind]
    exact require_pos (List.Nodup.of_map _ hnodup)
  have hbounds : ∀ name ∈ ["min_cardinality", "max_cardinality"], requireBound e.fields name = .ok () →
      Fields.field stored name = Fields.field e.fields name := by
    intro name hname hold
    refine h.bound hold fun n hn => ?_
    have hexact := hnumbers name
    rw [hn] at hexact
    cases hexact with
    | int hexact => exact rereadToken_int hexact fun negative x hx => hr.bounds name hname n negative x hn hx
  have hvalid := e.valid
  have hid := e.field_elementId
  unfold ElementKind.postInit at hvalid ⊢
  simp only [bind_eq_ok, exists_unit] at hvalid
  obtain ⟨htext, hvalid⟩ := hvalid
  rw [h.requireText hnfc htext, ok_bind]
  cases hkind : e.kind with
  | concept =>
    rw [hkind] at hvalid
    simp only [bind_eq_ok, exists_unit] at hvalid
    obtain ⟨hlabel, hparents, hself⟩ := hvalid
    dsimp only
    rw [h.requireText hnfc hlabel, ok_bind, hduplicates _ (by simp) hparents, ok_bind]
    simp only [requireNotOwnParent, bind_eq_ok] at hself
    obtain ⟨keys, hkeys, -⟩ := hself
    obtain ⟨items, keys', hitems, hkeys', hperm⟩ := exists_tupleItems h (hnumbers _) hkeys
    have hfield : Fields.field stored "element_id" = .json (.str (nfc e.elementId)) := by
      have hstored := h.field "element_id"
      unfold Element.field at hid
      rw [hid] at hstored
      exact hstored.text
    rw [requireNotOwnParent, hkeys', ok_bind, hfield]
    refine require_pos fun parent hparent heq => hr.parents items hitems ?_
    have hkey : hashed (.str (nfc e.elementId)) = .ok parent := heq
    rw [hkey]
    exact hperm.mem_iff.1 (List.mem_map_of_mem hparent)
  | property =>
    rw [hkind] at hvalid
    simp only [bind_eq_ok, exists_unit, require_eq_ok] at hvalid
    obtain ⟨hlabel, hmin, hmax, hordered⟩ := hvalid
    have hmin' := hbounds "min_cardinality" (by simp) hmin
    have hmax' := hbounds "max_cardinality" (by simp) hmax
    unfold requireBound at hmin hmax
    have hordered' : boundsOrdered stored := by
      unfold boundsOrdered at hordered ⊢
      rwa [hmin', hmax']
    dsimp only
    rw [h.requireText hnfc hlabel, ok_bind, requireBound, requireBound, hmin', hmax', hmin, ok_bind, hmax,
      ok_bind, require_pos hordered']
  | relationship =>
    rw [hkind] at hvalid
    simp only [bind_eq_ok, exists_unit] at hvalid
    obtain ⟨hlabel, hsubject, hobject, hcharacteristics⟩ := hvalid
    dsimp only
    rw [h.requireText hnfc hlabel, ok_bind, h.requireText hnfc hsubject, ok_bind,
      h.requireText hnfc hobject, ok_bind]
    exact hduplicates _ (by simp) hcharacteristics
  | constraint =>
    rw [hkind] at hvalid
    simp only [bind_eq_ok, exists_unit] at hvalid
    obtain ⟨htarget, hparameters⟩ := hvalid
    dsimp only
    rw [h.requireText hnfc htarget, ok_bind, h.requireMapping hparameters]
  | «alias» | vocabularyMember =>
    rw [hkind] at hvalid
    simp only [bind_eq_ok, exists_unit] at hvalid
    obtain ⟨htarget, hvalue⟩ := hvalid
    dsimp only
    rw [h.requireText hnfc htarget, ok_bind, h.requireText hnfc hvalue]
  | actionType =>
    rw [hkind] at hvalid
    simp only [bind_eq_ok, exists_unit] at hvalid
    obtain ⟨hlabel, hsubject, hdigest⟩ := hvalid
    dsimp only
    rw [h.requireText hnfc hlabel, ok_bind, h.requireText hnfc hsubject, ok_bind,
      h.requireText hnfc hdigest]

/-! ## Elements that are read again -/

/-- Every field has the type it is declared with. -/
def Element.Typed (e : Element) : Prop := ∀ f ∈ e.fields, Coerced f

/-- The fields of an element, lowered under their names. -/
def LoweredFields (nfc : Str → Str) : Fields → List (String × Value) → Prop :=
  List.Forall₂ fun f m => m.1 = f.1 ∧ plain nfc f.2 = .ok m.2

variable {fields stored : Fields} {named : List (String × Value)}

theorem LoweredFields.names (h : LoweredFields nfc fields named) :
    named.map Prod.fst = fields.map Prod.fst := by
  induction h with
  | nil => rfl
  | cons hfield _ ih => rw [List.map_cons, List.map_cons, hfield.1, ih]

theorem plainElement_eq_ok {e : Element} {value : Value} :
    plainElement nfc e = .ok value ↔ ∃ named, LoweredFields nfc e.fields named ∧ value = mappingOf named := by
  simp only [plainElement, bind_eq_ok, pure_eq_ok, mapM_eq_ok]
  generalize e.fields = fields
  constructor
  · rintro ⟨members, hmembers, rfl⟩
    obtain ⟨named, hnamed, hmap⟩ : ∃ named, LoweredFields nfc fields named ∧
        members = named.map fun m => (Key.name (ofChars m.1.toList), m.2) := by
      induction hmembers with
      | nil => exact ⟨[], .nil, rfl⟩
      | @cons f m fields members hfield _ ih =>
        obtain ⟨lowered, hlowered, rfl⟩ := hfield
        obtain ⟨named, hnamed, rfl⟩ := ih
        exact ⟨(f.1, lowered) :: named, .cons ⟨rfl, hlowered⟩ hnamed, rfl⟩
    exact ⟨named, hnamed, by rw [hmap]; rfl⟩
  · rintro ⟨named, hnamed, rfl⟩
    refine ⟨named.map fun m => (Key.name (ofChars m.1.toList), m.2), ?_, rfl⟩
    rw [List.forall₂_map_right_iff]
    refine hnamed.imp fun f m hfield => ⟨m.2, hfield.2, ?_⟩
    rw [hfield.1]

/-- Fields of their types have something stored of them, which is what their names are coerced to. -/
theorem exists_storedFields (hnfc : Normalizes nfc) (htyped : ∀ f ∈ fields, Coerced f)
    (h : LoweredFields nfc fields named) :
    ∃ stored, StoredFields nfc fields stored ∧
      LoweredFields nfc stored (named.map fun m => (m.1, reread m.2)) ∧
      List.Forall₂ (fun m g => g.1 = m.1 ∧ coerceField m.1 (reread m.2) = .ok g.2) named stored := by
  induction h with
  | nil => exact ⟨[], .nil, .nil, .nil⟩
  | @cons f m fields named hfield _ ih =>
    rw [List.forall_mem_cons] at htyped
    obtain ⟨stored, hstored, hlowered, hcoerced⟩ := ih htyped.2
    obtain ⟨g, hg, hcoerce, hplain⟩ := exists_storedField hnfc htyped.1 hfield.2
    refine ⟨(f.1, g) :: stored, .cons ⟨rfl, hg⟩ hstored, .cons ⟨hfield.1, hplain⟩ hlowered,
      .cons ⟨hfield.1.symm, ?_⟩ hcoerced⟩
    rw [hfield.1]
    exact hcoerce

theorem lookup_reread (nodup : (named.map Prod.fst).Nodup) :
    ∃ members : List (List Char × Value), reread (mappingOf named) = .mapping (members.map withName) ∧
      (∀ m ∈ members, ∃ n ∈ named, m = (n.1.toList, reread n.2)) ∧
      ∀ name : String, lookup (members.map withName) name.toList = (named.lookup name).map reread := by
  have hperm : ((sortBy (fun m => utf16Key m.1) (named.map fun m => (m.1.toList, m.2))).map
      fun m => (m.1, reread m.2)).Perm (named.map fun m => (m.1.toList, reread m.2)) := by
    refine ((perm_sortBy _).map _).trans (List.Perm.of_eq ?_)
    rw [List.map_map]
    rfl
  refine ⟨(sortBy (fun m => utf16Key m.1) (named.map fun m => (m.1.toList, m.2))).map
    fun m => (m.1, reread m.2), ?_, fun m hm => ?_, fun name => ?_⟩
  · rw [mappingOf_eq, reread_mapping, List.map_map]
    rfl
  · obtain ⟨n, hn, rfl⟩ := List.mem_map.1 (hperm.mem_iff.1 hm)
    exact ⟨n, hn, rfl⟩
  · have hnodup : (((named.map fun m => (m.1.toList, reread m.2)).map withName).map Prod.fst).Nodup := by
      refine nodup_withName ?_
      have hnames := nodup_toList nodup
      rw [List.map_map] at hnames ⊢
      exact hnames
    rw [← lookup_perm hnodup (hperm.map withName).symm]
    have hmembers := lookup_members (named.map fun m => (m.1, reread m.2)) name
    rw [List.map_map] at hmembers ⊢
    rw [← Element.lookup_map_snd (fun _ => reread)]
    exact hmembers

/-- Fields that are given under the names of a type are its fields. -/
theorem given_eq {kind : ElementKind} {values : Fields} (declared : stored.map Prod.fst = kind.fieldNames)
    (h : ∀ g ∈ stored, values.lookup g.1 = some g.2) : Element.given kind values = stored := by
  unfold Element.given
  unfold ElementKind.fieldNames at declared
  generalize kind.declared = declarations at declared
  induction declarations generalizing stored with
  | nil => exact (List.map_eq_nil_iff.1 declared).symm
  | cons d declarations ih =>
    obtain ⟨g, stored, rfl, hname, hnames⟩ := List.map_eq_cons_iff.1 declared
    rw [List.forall_mem_cons] at h
    rw [List.map_cons, ih h.2 hnames, ← hname, h.1]
    rfl

theorem nodup_fieldNames (kind : ElementKind) : kind.fieldNames.Nodup := by
  cases kind <;> decide

/-- What is read of an element's fields is taken as the fields of its type. -/
theorem ofFields_reread {kind : ElementKind} (declared : stored.map Prod.fst = kind.fieldNames)
    (hvalid : kind.postInit stored = .ok ())
    (h : List.Forall₂ (fun m g => g.1 = m.1 ∧ coerceField m.1 (reread m.2) = .ok g.2) named stored) :
    ∃ members values, reread (mappingOf named) = .mapping members ∧ coerceElementFields members = .ok values ∧
      Element.ofFields kind values = .ok ⟨kind, stored, declared, hvalid⟩ := by
  have hnames : named.map Prod.fst = kind.fieldNames := by
    rw [← declared]
    clear declared hvalid
    induction h with
    | nil => rfl
    | cons hfield _ ih => rw [List.map_cons, List.map_cons, hfield.1, ih]
  have hnodup := nodup_fieldNames kind
  rw [← hnames] at hnodup
  obtain ⟨members, hreread, hmembers, hlookup⟩ := lookup_reread hnodup
  have hfound : ∀ m ∈ named, lookup (members.map withName) m.1.toList = some (reread m.2) := by
    intro m hm
    have hlookup' : named.lookup m.1 = some m.2 := (Dict.get_eq_some (d := ⟨named, hnodup⟩)).2 hm
    rw [hlookup, hlookup']
    rfl
  have hspelling : ∀ m ∈ members.map withName, ∃ n ∈ named, m.1.spelling = n.1 ∧ m.2 = reread n.2 := by
    intro m hm
    obtain ⟨member, hmember, rfl⟩ := List.mem_map.1 hm
    obtain ⟨n, hn, rfl⟩ := hmembers member hmember
    exact ⟨n, hn, spelling_ofChars n.1, rfl⟩
  obtain ⟨values, hvalues⟩ : ∃ values, coerceElementFields (members.map withName) = .ok values := by
    refine mapM_isOk.2 fun m hm => ?_
    obtain ⟨n, hn, hname, hvalue⟩ := hspelling m hm
    obtain ⟨g, -, -, hcoerce⟩ := exists_of_forall₂_left h hn
    exact ⟨(n.1, g.2), by rw [hname, hvalue, hcoerce]; rfl⟩
  have hgiven : ∀ g ∈ stored, values.lookup g.1 = some g.2 := by
    intro g hg
    obtain ⟨m, hm, hname, hcoerce⟩ := exists_of_forall₂_right h hg
    rw [hname]
    rcases lookup_coerceElementFields hvalues m.1 with ⟨hnone, -⟩ | ⟨value, v, hvalue, hv, hsome⟩
    · rw [hfound m hm] at hnone
      cases hnone
    · obtain rfl := Option.some.inj ((hfound m hm).symm.trans hvalue)
      rw [hsome, Except.ok.inj (hcoerce.symm.trans hv)]
  have hbuild : ∀ (fields : Fields) (declared' : fields.map Prod.fst = kind.fieldNames), fields = stored →
      Element.build kind fields declared' = .ok ⟨kind, stored, declared, hvalid⟩ := by
    rintro _ declared' rfl
    exact Element.build_of_valid declared' hvalid
  refine ⟨_, values, hreread, hvalues, ?_⟩
  rw [Element.ofFields, require_pos, ok_bind, require_pos, ok_bind]
  · exact hbuild _ _ (given_eq declared hgiven)
  · intro d hd _
    have hname : d.1 ∈ stored.map Prod.fst := declared ▸ List.mem_map_of_mem hd
    obtain ⟨g, hg, hname⟩ := List.mem_map.1 hname
    rw [← hname, hgiven g hg]
    rfl
  · intro v hv
    have hname := List.mem_map_of_mem (f := Prod.fst) hv
    rw [map_fst_coerceElementFields hvalues] at hname
    obtain ⟨m, hm, hname⟩ := List.mem_map.1 hname
    obtain ⟨n, hn, hn', -⟩ := hspelling m hm
    rw [← hname, hn', ← hnames]
    exact List.mem_map_of_mem hn

/-! ## Documents -/

/-- A literal of normal members, named in ASCII, is in normal form. -/
theorem normal_mappingOf (hnfc : Normalizes nfc) (hascii : ∀ m ∈ named, ∀ c ∈ m.1.toList, c.toNat < 128)
    (nodup : (named.map Prod.fst).Nodup) (hnormal : ∀ m ∈ named, Normal nfc m.2) :
    Normal nfc (mappingOf named) := by
  refine .mapping (fun m hm => ?_) ?_ fun m hm => ?_
  · obtain ⟨n, hn, rfl⟩ := List.mem_map.1 hm
    exact ⟨_, rfl, hnfc.ascii _ (hascii n hn)⟩
  · have hnames := nodup_withName (nodup_toList nodup)
    rw [List.map_map, List.map_map] at hnames
    rw [List.map_map]
    exact hnames
  · obtain ⟨n, hn, rfl⟩ := List.mem_map.1 hm
    exact hnormal n hn

theorem plain_normal (hnfc : Normalizes nfc) {field : FieldValue} {lowered : Value}
    (h : plain nfc field = .ok lowered) : Normal nfc lowered := by
  cases field with
  | json | lifecycleState | valueKind | constraintKind => exact plainValue_normal hnfc _ h
  | tuple items =>
    simp only [plain, bind_eq_ok, pure_eq_ok] at h
    obtain ⟨items', hitems, rfl⟩ := h
    exact .sequence fun item hitem => plainItems_normal hnfc hitems item (mem_sortedTexts.1 hitem)

theorem ascii_fieldNames (kind : ElementKind) : ∀ name ∈ kind.fieldNames, ∀ c ∈ name.toList, c.toNat < 128 := by
  cases kind <;> simp [ElementKind.fieldNames, ElementKind.declared]

theorem LoweredFields.normal (hnfc : Normalizes nfc) {kind : ElementKind}
    (declared : fields.map Prod.fst = kind.fieldNames) (h : LoweredFields nfc fields named) :
    Normal nfc (mappingOf named) := by
  have hnames := h.names.trans declared
  refine normal_mappingOf hnfc (fun m hm => ascii_fieldNames kind m.1 ?_) ?_ fun m hm => ?_
  · rw [← hnames]
    exact List.mem_map_of_mem hm
  · rw [hnames]
    exact nodup_fieldNames kind
  · obtain ⟨f, -, hf⟩ := exists_of_forall₂_right h hm
    exact plain_normal hnfc hf.2

theorem registryText_eq_ok {value : Value} {text : List Char} :
    registryText value = .ok text ↔ canonicalize value [] = .ok text := by
  unfold registryText
  split <;> simp_all

theorem find_typeName (kind : ElementKind) :
    (ELEMENT_TYPES.find? fun entry => Hashed.text (ofChars kind.typeName.toList) =
      .text (ofChars entry.1.toList)) = some (kind.typeName, kind) := by
  cases kind <;> decide

/-- The document of a rereadable element is read as an element of its type that holds what is stored of its
fields, and which is lowered to what is read of them. -/
theorem exists_stored (hnfc : Normalizes nfc) (hroom : JCS_MAX_NESTING_DEPTH < room) {e : Element}
    (htyped : e.Typed) (hr : Rereadable nfc e) {document : Value} (hdocument : plainDocument nfc e = .ok document)
    {text : List Char} (htext : registryText document = .ok text) :
    ∃ e' named, elementFromJson room text = .ok e' ∧ e'.kind = e.kind ∧ StoredFields nfc e.fields e'.fields ∧
      LoweredFields nfc e.fields named ∧
      LoweredFields nfc e'.fields (named.map fun m => (m.1, reread m.2)) := by
  simp only [plainDocument, bind_eq_ok, pure_eq_ok] at hdocument
  obtain ⟨_, hvalue, rfl⟩ := hdocument
  obtain ⟨named, hnamed, rfl⟩ := plainElement_eq_ok.1 hvalue
  obtain ⟨stored, hstored, hlowered, hcoerced⟩ := exists_storedFields hnfc htyped hnamed
  have declared := hstored.names.trans e.declared
  obtain ⟨members, values, hreread, hvalues, hbuilt⟩ :=
    ofFields_reread declared (hr.postInit hnfc hstored) hcoerced
  refine ⟨⟨e.kind, stored, declared, hr.postInit hnfc hstored⟩, named, ?_, rfl, hstored, hnamed, hlowered⟩
  have hascii : ∀ c ∈ e.kind.typeName.toList, c.toNat < 128 := by
    cases e.kind <;> simp [ElementKind.typeName]
  rw [hnfc.ascii "kind".toList (by simp), hnfc.ascii "element".toList (by simp),
    hnfc.ascii _ hascii] at htext
  have houterNames : ([("kind", textValue e.kind.typeName), ("element", mappingOf named)].map Prod.fst).Nodup := by
    simp
  obtain ⟨outer, houter, -, hlookup⟩ := lookup_reread houterNames
  have hloads : plainLoads room text = .ok (.mapping (outer.map withName)) :=
    (plainLoads_canonicalize (registryText_eq_ok.1 htext) hroom).trans (congrArg _ houter)
  have hkind : JsonMapping.get (outer.map withName) "kind" = textValue e.kind.typeName := by
    rw [JsonMapping.get, hlookup]
    rfl
  have helement : lookup (outer.map withName) "element".toList = some (.mapping members) := by
    rw [hlookup, ← hreread]
    rfl
  have hdocument : elementOfDocument (outer.map withName) =
      .ok ⟨e.kind, stored, declared, hr.postInit hnfc hstored⟩ := by
    unfold elementOfDocument
    rw [hkind, textValue, hashed, Except.mapError, ok_bind, find_typeName, helement]
    dsimp only
    rw [hvalues, Except.mapError, ok_bind, hbuilt]
    rfl
  unfold elementFromJson
  rw [hloads, Except.mapError, ok_bind]
  exact hdocument

end OmniviaCore.SemanticRegistry
