import OmniviaCore.SemanticRegistry.ApplySteps
import OmniviaCore.SemanticRegistry.LiteralDigests
import OmniviaCore.SemanticRegistry.Versions

/-!
# What becomes of a field

A field is lowered by `_plain`, written, read, and coerced to its declared type again. What `_plain` makes
of a value is in normal form (`Normal`), and so is what is read of it, so lowering the field that was read
leaves what was read (`exists_storedField`).
-/

namespace OmniviaCore.SemanticRegistry

open Lib CanonicalJson

/-- What Unicode promises of NFC. -/
structure Normalizes (nfc : Str → Str) : Prop where
  idempotent : ∀ s, nfc (nfc s) = nfc s
  ascii : ∀ chars : List Char, (∀ c ∈ chars, c.toNat < 128) → nfc (ofChars chars) = ofChars chars
  blank : ∀ s : Str, s.all isSpace = false → (nfc s).all isSpace = false

variable {nfc : Str → Str}

/-! ## Values in normal form -/

/-- Every text of the value is normalized, and no mapping names a key twice. -/
inductive Normal (nfc : Str → Str) : Value → Prop where
  | none : Normal nfc .none
  | bool (b : Bool) : Normal nfc (.bool b)
  | int (n : ℤ) : Normal nfc (.int n)
  | float (x : Binary64) : Normal nfc (.float x)
  | str {s : Str} (h : nfc s = s) : Normal nfc (.str s)
  | binary : Normal nfc .binary
  | other (typeName : String) : Normal nfc (.other typeName)
  | mapping {members : List (Key × Value)} (names : ∀ m ∈ members, ∃ s, m.1 = .name s ∧ nfc s = s)
      (nodup : (members.map Prod.fst).Nodup) (items : ∀ m ∈ members, Normal nfc m.2) :
      Normal nfc (.mapping members)
  | sequence {items : List Value} (h : ∀ item ∈ items, Normal nfc item) : Normal nfc (.sequence items)

theorem plainItems_eq (items : List Value) : plainItems nfc items = items.mapM (plainValue nfc) := by
  induction items with
  | nil => rfl
  | cons item items ih =>
    rw [plainItems, ih, List.mapM_cons]

theorem plainMembers_normal (hnfc : Normalizes nfc) {members lowered : List (Key × Value)} {seen : List Str}
    (hitems : ∀ m ∈ members, ∀ item, plainValue nfc m.2 = .ok item → Normal nfc item)
    (h : plainMembers nfc seen members = .ok lowered) :
    (∀ m ∈ lowered, ∃ s, m.1 = .name s ∧ nfc s = s ∧ s ∉ seen) ∧ (lowered.map Prod.fst).Nodup ∧
      ∀ m ∈ lowered, Normal nfc m.2 := by
  induction members generalizing seen lowered with
  | nil =>
    cases h
    exact ⟨fun _ hm => absurd hm List.not_mem_nil, List.nodup_nil, fun _ hm => absurd hm List.not_mem_nil⟩
  | cons m members ih =>
    obtain ⟨key, item⟩ := m
    cases key with
    | other typeName => cases h
    | name name =>
      simp only [plainMembers, bind_eq_ok, require_eq_ok, exists_unit, pure_eq_ok] at h
      obtain ⟨hnew, value, hvalue, rest, hrest, rfl⟩ := h
      obtain ⟨hnames, hnodup, hnormal⟩ := ih (fun m hm => hitems m (List.mem_cons_of_mem _ hm)) hrest
      refine ⟨?_, ?_, ?_⟩
      · intro m hm
        rcases List.mem_cons.1 hm with rfl | hm
        · exact ⟨nfc name, rfl, hnfc.idempotent name, hnew⟩
        · obtain ⟨s, hs, hfixed, hfresh⟩ := hnames m hm
          exact ⟨s, hs, hfixed, fun hmem => hfresh (List.mem_cons_of_mem _ hmem)⟩
      · refine List.nodup_cons.2 ⟨fun hmem => ?_, hnodup⟩
        obtain ⟨m, hm, hkey⟩ := List.mem_map.1 hmem
        obtain ⟨s, hs, -, hfresh⟩ := hnames m hm
        obtain rfl : s = nfc name := Key.name.inj (hs.symm.trans hkey)
        exact hfresh List.mem_cons_self
      · intro m hm
        rcases List.mem_cons.1 hm with rfl | hm
        · exact hitems _ List.mem_cons_self value hvalue
        · exact hnormal m hm

theorem plainValue_normal (hnfc : Normalizes nfc) (value : Value) {lowered : Value}
    (h : plainValue nfc value = .ok lowered) : Normal nfc lowered := by
  induction value using Value.induct generalizing lowered with
  | none => cases h; exact .none
  | bool b => cases h; exact .bool b
  | int n => cases h; exact .int n
  | float x => cases h; exact .float x
  | str s => cases h; exact .str (hnfc.idempotent s)
  | binary => cases h; exact .binary
  | other typeName => cases h; exact .other typeName
  | mapping members ih =>
    simp only [plainValue, bind_eq_ok, pure_eq_ok] at h
    obtain ⟨members', hmembers, rfl⟩ := h
    obtain ⟨hnames, hnodup, hitems⟩ := plainMembers_normal hnfc (fun m hm item => ih m hm) hmembers
    refine .mapping (fun m hm => ?_) hnodup hitems
    obtain ⟨s, hs, hfixed, -⟩ := hnames m hm
    exact ⟨s, hs, hfixed⟩
  | sequence items ih =>
    simp only [plainValue, plainItems_eq, bind_eq_ok, pure_eq_ok] at h
    obtain ⟨items', hitems, rfl⟩ := h
    refine .sequence fun item hitem => ?_
    obtain ⟨v, hv, hlowered⟩ := exists_of_forall₂_right (mapM_eq_ok.1 hitems) hitem
    exact ih v hv hlowered

theorem plainMembers_of_normal {members : List (Key × Value)} {seen : List Str}
    (hnames : ∀ m ∈ members, ∃ s, m.1 = .name s ∧ nfc s = s ∧ s ∉ seen)
    (hnodup : (members.map Prod.fst).Nodup) (hitems : ∀ m ∈ members, plainValue nfc m.2 = .ok m.2) :
    plainMembers nfc seen members = .ok members := by
  induction members generalizing seen with
  | nil => rfl
  | cons m members ih =>
    obtain ⟨key, item⟩ := m
    obtain ⟨s, hs, hfixed, hfresh⟩ := hnames _ List.mem_cons_self
    obtain rfl : key = .name s := hs
    rw [List.map_cons, List.nodup_cons] at hnodup
    have hrest : plainMembers nfc (s :: seen) members = .ok members := by
      refine ih (fun m hm => ?_) hnodup.2 fun m hm => hitems m (List.mem_cons_of_mem _ hm)
      obtain ⟨t, ht, htfixed, htfresh⟩ := hnames m (List.mem_cons_of_mem _ hm)
      refine ⟨t, ht, htfixed, fun hmem => ?_⟩
      rcases List.mem_cons.1 hmem with rfl | hmem
      · exact hnodup.1 (List.mem_map.2 ⟨m, hm, ht⟩)
      · exact htfresh hmem
    have hitem := hitems _ List.mem_cons_self
    simp only [plainMembers, hfixed, require_pos hfresh, ok_bind, hrest]
    rw [hitem]
    rfl

theorem Normal.plainValue {value : Value} (h : Normal nfc value) : plainValue nfc value = .ok value := by
  induction h with
  | none | bool | int | float | binary | other => rfl
  | str h => rw [SemanticRegistry.plainValue, h]
  | mapping names nodup _ ih =>
    rw [SemanticRegistry.plainValue, plainMembers_of_normal _ nodup ih]
    · rfl
    · intro m hm
      obtain ⟨s, hs, hfixed⟩ := names m hm
      exact ⟨s, hs, hfixed, List.not_mem_nil⟩
  | @sequence items _ ih =>
    have hitems : items.mapM (SemanticRegistry.plainValue nfc) = .ok items :=
      mapM_eq_ok.2 (List.forall₂_same.2 ih)
    rw [SemanticRegistry.plainValue, plainItems_eq, hitems]
    rfl

theorem normal_rereadToken {value : Value} (h : Normal nfc value) : Normal nfc (rereadToken value) := by
  unfold rereadToken
  split
  · next negative x _ =>
    rcases rereadNumber_cases negative x with ⟨n, hn⟩ | hx
    · rw [hn]
      exact .int n
    · rw [hx]
      exact .float _
  · exact h

theorem Normal.reread {value : Value} (h : Normal nfc value) : Normal nfc (reread value) := by
  induction h with
  | none => exact .none
  | bool b => exact .bool b
  | int n => exact normal_rereadToken (.int n)
  | float x => exact normal_rereadToken (.float x)
  | str h => exact .str h
  | binary => exact .binary
  | other typeName => exact .other typeName
  | @mapping members names nodup _ ih =>
    have hperm : (sortBy (fun m : Key × Value => utf16Key m.1.chars)
        (members.map fun m => (m.1, CanonicalJson.reread m.2))).Perm _ := perm_sortBy _
    rw [CanonicalJson.reread, rereadMembers_eq]
    refine .mapping (fun m hm => ?_) ?_ fun m hm => ?_
    · obtain ⟨n, hn, rfl⟩ := List.mem_map.1 (hperm.mem_iff.1 hm)
      exact names n hn
    · rw [(hperm.map Prod.fst).nodup_iff, List.map_map]
      exact nodup
    · obtain ⟨n, hn, rfl⟩ := List.mem_map.1 (hperm.mem_iff.1 hm)
      exact ih n hn
  | @sequence items _ ih =>
    rw [CanonicalJson.reread, rereadItems_eq]
    refine .sequence fun item hitem => ?_
    obtain ⟨v, hv, rfl⟩ := List.mem_map.1 hitem
    exact ih v hv

/-! ## Fields -/

/-- A field has the type it is declared with: a JSON value is coerced to it. -/
def Coerced (f : String × FieldValue) : Prop := ∃ value, coerceField f.1 value = .ok f.2

/-- What is read of a field that was lowered and written. -/
inductive StoredField (nfc : Str → Str) : FieldValue → FieldValue → Prop where
  | json {value lowered : Value} (h : plainValue nfc value = .ok lowered) :
      StoredField nfc (.json value) (.json (CanonicalJson.reread lowered))
  | lifecycleState (state : LifecycleState) : StoredField nfc (.lifecycleState state) (.lifecycleState state)
  | valueKind (kind : PropertyValueKind) : StoredField nfc (.valueKind kind) (.valueKind kind)
  | constraintKind (kind : ConstraintKind) : StoredField nfc (.constraintKind kind) (.constraintKind kind)
  | tuple {items lowered : List Value} (h : plainItems nfc items = .ok lowered) :
      StoredField nfc (.tuple items) (.tuple ((sortedTexts lowered).map CanonicalJson.reread))

/-- The names `_FIELD_COERCERS` has. -/
def COERCED_NAMES : List String :=
  ["value_kind", "constraint_kind", "lifecycle_state", "parent_concept_ids", "classifications",
    "characteristics"]

theorem coerceField_none (name : String) : coerceField name .none = .ok (.json .none) := rfl

theorem coerceField_of_notMem {name : String} (h : name ∉ COERCED_NAMES) (value : Value) :
    coerceField name value = .ok (.json value) := by
  simp only [COERCED_NAMES, List.mem_cons, List.not_mem_nil, or_false, not_or] at h
  obtain ⟨hvalue, hconstraint, hlifecycle, hparents, hclassifications, hcharacteristics⟩ := h
  have htuple : name ∉ ["parent_concept_ids", "classifications", "characteristics"] := by
    simp [hparents, hclassifications, hcharacteristics]
  unfold coerceField
  split
  · rfl
  · rw [if_neg hvalue, if_neg hconstraint, if_neg hlifecycle, if_neg htuple]

/-- The coercer of a name makes a member of its enumeration, or a tuple, of what is not `None`. -/
theorem coerceField_eq_ok {name : String} {value : Value} {field : FieldValue}
    (h : coerceField name value = .ok field) :
    (field = .json value ∧ (value = .none ∨ name ∉ COERCED_NAMES)) ∨
    (name = "value_kind" ∧ ∃ kind, field = .valueKind kind) ∨
    (name = "constraint_kind" ∧ ∃ kind, field = .constraintKind kind) ∨
    (name = "lifecycle_state" ∧ ∃ state, field = .lifecycleState state) ∨
    (name ∈ ["parent_concept_ids", "classifications", "characteristics"] ∧
      ∃ items, tupleOf value = .ok items ∧ field = .tuple items) := by
  by_cases hnone : value = .none
  · subst hnone
    cases h
    exact .inl ⟨rfl, .inl rfl⟩
  by_cases hname : name ∈ COERCED_NAMES
  · rw [coerceField] at h
    · split at h
      next hvalue =>
        obtain ⟨kind, -, rfl⟩ := except_map_eq_ok.1 h
        exact .inr (.inl ⟨hvalue, kind, rfl⟩)
      next hvalue =>
        split at h
        next hconstraint =>
          obtain ⟨kind, -, rfl⟩ := except_map_eq_ok.1 h
          exact .inr (.inr (.inl ⟨hconstraint, kind, rfl⟩))
        next hconstraint =>
          split at h
          next hlifecycle =>
            obtain ⟨state, -, rfl⟩ := except_map_eq_ok.1 h
            exact .inr (.inr (.inr (.inl ⟨hlifecycle, state, rfl⟩)))
          next hlifecycle =>
            split at h
            next htuple =>
              obtain ⟨items, hitems, rfl⟩ := except_map_eq_ok.1 h
              exact .inr (.inr (.inr (.inr ⟨htuple, items, hitems, rfl⟩)))
            next htuple =>
              simp only [COERCED_NAMES, List.mem_cons, List.not_mem_nil, or_false] at hname htuple
              tauto
    · exact hnone
  · rw [coerceField_of_notMem hname, Except.ok.injEq] at h
    exact .inl ⟨h.symm, .inr hname⟩

theorem reread_eq_str {value : Value} {s : Str} (h : CanonicalJson.reread value = .str s) : value = .str s := by
  have hnumber : ∀ value : Value, (∀ s, value ≠ .str s) → rereadToken value ≠ .str s := by
    intro value hvalue
    unfold rereadToken
    split
    · next negative x _ =>
      rcases rereadNumber_cases negative x with ⟨n, hn⟩ | hx
      · rw [hn]
        exact fun h => by cases h
      · rw [hx]
        exact fun h => by cases h
    · exact hvalue s
  cases value with
  | str t => exact h
  | int n => exact absurd h (hnumber _ fun _ h => by cases h)
  | float x => exact absurd h (hnumber _ fun _ h => by cases h)
  | none | bool | binary | other | mapping | sequence => cases h

theorem sortedTexts_reread (items : List Value) :
    sortedTexts ((sortedTexts items).map CanonicalJson.reread) =
      (sortedTexts items).map CanonicalJson.reread := by
  rcases texts_or_not items with ⟨texts, rfl⟩ | ⟨item, hitem, hne⟩
  · have hreread : ∀ l : List Str, (l.map Value.str).map CanonicalJson.reread = l.map .str := by
      intro l
      rw [List.map_map]
      rfl
    rw [sortedTexts_texts, hreread, sortedTexts_texts, sortBy_of_pairwise (pairwise_sortBy texts)]
  · rw [sortedTexts_of_not hitem hne]
    refine sortedTexts_of_not (List.mem_map_of_mem hitem) fun s hs => ?_
    exact hne s (reread_eq_str hs)

theorem plainItems_of_normal {items : List Value} (h : ∀ item ∈ items, Normal nfc item) :
    plainItems nfc items = .ok items := by
  rw [plainItems_eq]
  exact mapM_eq_ok.2 (List.forall₂_same.2 fun item hitem => (h item hitem).plainValue)

theorem plainItems_normal (hnfc : Normalizes nfc) {items lowered : List Value}
    (h : plainItems nfc items = .ok lowered) : ∀ item ∈ lowered, Normal nfc item := by
  intro item hitem
  rw [plainItems_eq] at h
  obtain ⟨value, -, hvalue⟩ := exists_of_forall₂_right (mapM_eq_ok.1 h) hitem
  exact plainValue_normal hnfc value hvalue

theorem plain_textValue (hnfc : Normalizes nfc) {s : String} (h : ∀ c ∈ s.toList, c.toNat < 128) :
    plainValue nfc (textValue s) = .ok (textValue s) := by
  rw [textValue, plainValue, hnfc.ascii s.toList h]

/-- A field that is lowered, written and read is coerced to what is stored of it, and lowering that leaves
what was read. -/
theorem exists_storedField (hnfc : Normalizes nfc) {f : String × FieldValue} (hf : Coerced f) {lowered : Value}
    (h : plain nfc f.2 = .ok lowered) :
    ∃ stored, StoredField nfc f.2 stored ∧ coerceField f.1 (CanonicalJson.reread lowered) = .ok stored ∧
      plain nfc stored = .ok (CanonicalJson.reread lowered) := by
  obtain ⟨name, field⟩ := f
  obtain ⟨value, hvalue⟩ := hf
  rcases coerceField_eq_ok hvalue with ⟨rfl, hname⟩ | ⟨rfl, kind, rfl⟩ | ⟨rfl, kind, rfl⟩ | ⟨rfl, state, rfl⟩ |
    ⟨hname, items, -, rfl⟩
  · refine ⟨_, .json h, ?_, (plainValue_normal hnfc value h).reread.plainValue⟩
    rcases hname with rfl | hname
    · cases h
      exact coerceField_none name
    · exact coerceField_of_notMem hname _
  · have hlowered : plain nfc (.valueKind kind) = .ok (textValue kind.value) :=
      plain_textValue hnfc (by cases kind <;> simp [PropertyValueKind.value])
    obtain rfl := Except.ok.inj (h.symm.trans hlowered)
    refine ⟨_, .valueKind kind, ?_, hlowered⟩
    cases kind <;> rfl
  · have hlowered : plain nfc (.constraintKind kind) = .ok (textValue kind.value) :=
      plain_textValue hnfc (by cases kind <;> simp [ConstraintKind.value])
    obtain rfl := Except.ok.inj (h.symm.trans hlowered)
    refine ⟨_, .constraintKind kind, ?_, hlowered⟩
    cases kind <;> rfl
  · have hlowered : plain nfc (.lifecycleState state) = .ok (textValue state.value) :=
      plain_textValue hnfc (by cases state <;> simp [LifecycleState.value])
    obtain rfl := Except.ok.inj (h.symm.trans hlowered)
    refine ⟨_, .lifecycleState state, ?_, hlowered⟩
    cases state <;> rfl
  · simp only [plain, bind_eq_ok, pure_eq_ok] at h
    obtain ⟨items', hitems, rfl⟩ := h
    have hnormal : ∀ item ∈ (sortedTexts items').map CanonicalJson.reread, Normal nfc item := by
      intro item hitem
      obtain ⟨v, hv, rfl⟩ := List.mem_map.1 hitem
      exact (plainItems_normal hnfc hitems v (mem_sortedTexts.1 hv)).reread
    rw [CanonicalJson.reread, rereadItems_eq]
    refine ⟨_, .tuple hitems, ?_, ?_⟩
    · rcases List.mem_cons.1 hname with rfl | hname
      · rfl
      · rcases List.mem_cons.1 hname with rfl | hname
        · rfl
        · obtain rfl := List.mem_singleton.1 hname
          rfl
    · rw [plain, plainItems_of_normal hnormal, ok_bind, sortedTexts_reread]
      rfl

end OmniviaCore.SemanticRegistry
