import OmniviaCore.CanonicalJson.Reordering
import OmniviaCore.SemanticRegistry.Literals
import OmniviaCore.SemanticRegistry.ImpactSteps

/-!
# What the digest of a literal tells apart

A frozen literal reaches `_plain` with a tuple in the place of every list, so each array of texts is
sorted, at any depth (`plainHeld_freeze`). What is left of two literals is told apart exactly when it is
not the same value (`bytes_eq_iff`). So two records with one payload hold literals that differ by the
order of arrays of texts at most, and where they do differ by that the digest does not tell.
-/

namespace OmniviaCore.SemanticRegistry

open Lib CanonicalJson
open Knowledge (TemporalInstant)

/-! ## The meaning of a literal -/

section Meaning

variable (nfc : Str → Str)

def normalizedKey : Key → Key
  | .name name => .name (nfc name)
  | .other typeName => .other typeName

mutual

/-- A value with its texts and its names normalized. -/
def normalized : Value → Value
  | .str s => .str (nfc s)
  | .mapping members => .mapping (normalizedMembers members)
  | .sequence items => .sequence (normalizedItems items)
  | value => value

def normalizedMembers : List (Key × Value) → List (Key × Value)
  | [] => []
  | (key, item) :: members => (normalizedKey nfc key, normalized item) :: normalizedMembers members

def normalizedItems : List Value → List Value
  | [] => []
  | item :: items => normalized item :: normalizedItems items

end

/-- The JSON value of a literal, with normalized texts: an array is the sequence of its items. -/
def Held.meaning (value : Held) : IJson := denote (normalized nfc value.json)

def SameJson (v w : Held) : Prop := v.meaning nfc = w.meaning nfc

/-- Two literals that are not one JSON value, but would be if arrays of texts had no order. -/
def DifferInTextOrder (v w : Held) : Prop :=
  TextsReordered (v.meaning nfc) (w.meaning nfc) ∧ ¬SameJson nfc v w

end Meaning

mutual

/-- A lowered value with its arrays of texts sorted, at any depth. -/
def textsSorted : Value → Value
  | .mapping members => .mapping (textsSortedMembers members)
  | .sequence items => .sequence (sortedTexts (textsSortedItems items))
  | value => value

def textsSortedMembers : List (Key × Value) → List (Key × Value)
  | [] => []
  | (key, item) :: members => (key, textsSorted item) :: textsSortedMembers members

def textsSortedItems : List Value → List Value
  | [] => []
  | item :: items => textsSorted item :: textsSortedItems items

end

theorem textsSortedMembers_eq (members : List (Key × Value)) :
    textsSortedMembers members = members.map fun m => (m.1, textsSorted m.2) := by
  induction members with
  | nil => rfl
  | cons m members ih => rw [textsSortedMembers, ih, List.map_cons]

theorem textsSortedItems_eq (items : List Value) : textsSortedItems items = items.map textsSorted := by
  induction items with
  | nil => rfl
  | cons item items ih => rw [textsSortedItems, ih, List.map_cons]

/-! ## Lowering -/

variable {nfc : Str → Str}

/-- Lowering a JSON value normalizes its texts, and changes nothing else. -/
theorem plainValue_eq_ok {value : Value} {lowered : Value} (h : plainValue nfc value = .ok lowered) :
    lowered = normalized nfc value := by
  induction value using Value.induct generalizing lowered with
  | none | bool | int | float | str | binary | other =>
    exact (Except.ok.inj h).symm
  | mapping members ih =>
    simp only [plainValue, bind_eq_ok, pure_eq_ok] at h
    obtain ⟨out, hout, rfl⟩ := h
    rw [normalized]
    congr 1
    generalize ([] : List Str) = seen at hout
    induction members generalizing seen out with
    | nil => exact (Except.ok.inj hout).symm
    | cons m members ih' =>
      obtain ⟨key, item⟩ := m
      cases key with
      | other typeName => cases hout
      | name name =>
        simp only [plainMembers, bind_eq_ok, pure_eq_ok, exists_unit] at hout
        obtain ⟨-, item', hitem, rest, hrest, rfl⟩ := hout
        rw [normalizedMembers, normalizedKey, ih _ List.mem_cons_self hitem,
          ih' (fun m hm => ih m (List.mem_cons_of_mem _ hm)) _ _ hrest]
  | sequence items ih =>
    simp only [plainValue, bind_eq_ok, pure_eq_ok] at h
    obtain ⟨out, hout, rfl⟩ := h
    rw [normalized]
    congr 1
    induction items generalizing out with
    | nil => exact (Except.ok.inj hout).symm
    | cons item items ih' =>
      simp only [plainItems, bind_eq_ok, pure_eq_ok] at hout
      obtain ⟨item', hitem, rest, hrest, rfl⟩ := hout
      rw [normalizedItems, ih _ List.mem_cons_self hitem,
        ih' (fun item hitem => ih item (List.mem_cons_of_mem _ hitem)) _ hrest]

theorem plainHeldMembers_freeze {members : List (Key × Held)}
    (h : ∀ m ∈ members, plainHeld nfc (freeze m.2) = (plainValue nfc m.2.json).map textsSorted)
    (seen : List Str) :
    plainHeldMembers nfc seen (freezeMembers members) =
      (plainMembers nfc seen (jsonMembers members)).map textsSortedMembers := by
  induction members generalizing seen with
  | nil => rfl
  | cons m members ih =>
    obtain ⟨key, item⟩ := m
    rw [freezeMembers, jsonMembers]
    cases key with
    | other typeName => rfl
    | name name =>
      rw [plainHeldMembers, plainMembers, h _ List.mem_cons_self,
        ih (fun m hm => h m (List.mem_cons_of_mem _ hm))]
      by_cases hseen : nfc name ∈ seen
      · rw [require_neg (not_not_intro hseen)]
        rfl
      · rw [require_pos hseen]
        cases plainValue nfc item.json with
        | error e => rfl
        | ok item => cases plainMembers nfc (nfc name :: seen) (jsonMembers members) <;> rfl

theorem plainHeldItems_freeze {items : List Held}
    (h : ∀ item ∈ items, plainHeld nfc (freeze item) = (plainValue nfc item.json).map textsSorted) :
    plainHeldItems nfc (freezeItems items) =
      (plainItems nfc (jsonItems items)).map textsSortedItems := by
  induction items with
  | nil => rfl
  | cons item items ih =>
    rw [freezeItems, jsonItems, plainHeldItems, plainItems, h _ List.mem_cons_self,
      ih fun item hitem => h item (List.mem_cons_of_mem _ hitem)]
    cases plainValue nfc item.json with
    | error e => rfl
    | ok item => cases plainItems nfc (jsonItems items) <;> rfl

/-- A frozen literal is lowered as its JSON value is, and then every array of texts is sorted. -/
theorem plainHeld_freeze (value : Held) :
    plainHeld nfc (freeze value) = (plainValue nfc value.json).map textsSorted := by
  induction value using Held.induct with
  | none | bool | int | float | str | other => rfl
  | mapping members ih =>
    rw [freeze, plainHeld, plainHeldMembers_freeze ih, Held.json, plainValue]
    cases plainMembers nfc [] (jsonMembers members) <;> rfl
  | list items ih | tuple items ih =>
    rw [freeze, plainHeld, plainHeldItems_freeze ih, Held.json, plainValue]
    cases plainItems nfc (jsonItems items) <;> rfl

/-! ## What an accepted value denotes -/

theorem denoteMembers_textsSorted {members : List (Key × Value)}
    (h : ∀ m ∈ members, denote (textsSorted m.2) = sortTexts (denote m.2)) (name : List Char) :
    denoteMembers (textsSortedMembers members) name = sortMember (denoteMembers members name) := by
  induction members with
  | nil => rfl
  | cons m members ih =>
    obtain ⟨key, item⟩ := m
    rw [textsSortedMembers, denoteMembers, denoteMembers]
    by_cases hkey : key = .name (ofChars name)
    · rw [if_pos hkey, if_pos hkey, h _ List.mem_cons_self, sortMember]
    · rw [if_neg hkey, if_neg hkey, ih fun m hm => h m (List.mem_cons_of_mem _ hm)]

theorem denote_eq_string {depth : ℕ} {value : Value} (h : Accepted depth value) {chars : List Char} :
    denote value = .string chars ↔ value = .str (ofChars chars) := by
  constructor
  · intro heq
    cases h with
    | str h chars' =>
      rw [denote, toChars_ofChars, Option.getD_some] at heq
      rw [IJson.string.inj heq]
    | none | bool | int | float | mapping | sequence => cases heq
  · rintro rfl
    rw [denote, toChars_ofChars, Option.getD_some]

theorem sortedTexts_texts (texts : List Str) :
    sortedTexts (texts.map .str) = (sortBy codePoints texts).map .str := by
  simp [sortedTexts, List.filterMap_map]

theorem sortedTexts_of_not {items : List Value} {item : Value} (hitem : item ∈ items)
    (h : ∀ s, item ≠ .str s) : sortedTexts items = items := by
  refine if_neg fun hlength => ?_
  have hsome := List.filterMap_length_eq_length.1 hlength item hitem
  cases item with
  | str s => exact h s rfl
  | _ => cases hsome

theorem texts_or_not (items : List Value) :
    (∃ texts : List Str, items = texts.map .str) ∨ ∃ item ∈ items, ∀ s, item ≠ .str s := by
  induction items with
  | nil => exact .inl ⟨[], rfl⟩
  | cons item items ih =>
    rcases ih with ⟨texts, rfl⟩ | ⟨other, hother, hne⟩
    · cases item with
      | str s => exact .inl ⟨s :: texts, rfl⟩
      | _ => exact .inr ⟨_, List.mem_cons_self, fun _ h => by cases h⟩
    · exact .inr ⟨other, List.mem_cons_of_mem _ hother, hne⟩

theorem mem_sortedTexts {items : List Value} {item : Value} : item ∈ sortedTexts items ↔ item ∈ items := by
  rcases texts_or_not items with ⟨texts, rfl⟩ | ⟨other, hother, hne⟩
  · rw [sortedTexts_texts, List.mem_map, List.mem_map]
    exact exists_congr fun s => and_congr_left' mem_sortBy
  · rw [sortedTexts_of_not hother hne]

theorem exists_chars {depth : ℕ} {texts : List Str}
    (h : ∀ item ∈ texts.map Value.str, Accepted depth item) :
    ∃ chars : List (List Char), texts = chars.map ofChars := by
  induction texts with
  | nil => exact ⟨[], rfl⟩
  | cons s texts ih =>
    rw [List.map_cons, List.forall_mem_cons] at h
    obtain ⟨chars, rfl⟩ := ih h.2
    generalize hvalue : Value.str s = value at h
    cases h.1 with
    | str _ first =>
      obtain rfl := Value.str.inj hvalue
      exact ⟨first :: chars, rfl⟩
    | none | bool | int | float | mapping | sequence => cases hvalue

theorem codePoints_ofChars (chars : List Char) : codePoints (ofChars chars) = textKey chars := by
  rw [codePoints, ofChars, List.map_map]
  rfl

theorem denoteItems_texts (chars : List (List Char)) :
    denoteItems ((chars.map ofChars).map .str) = chars.map .string := by
  rw [denoteItems_eq, List.map_map, List.map_map]
  refine List.map_congr_left fun first _ => ?_
  simp only [Function.comp_apply, denote, toChars_ofChars, Option.getD_some]

theorem denoteItems_sortedTexts {depth : ℕ} {items : List Value} (h : ∀ item ∈ items, Accepted depth item) :
    denoteItems (sortedTexts items) = sortIfTexts (denoteItems items) := by
  rcases texts_or_not items with ⟨texts, rfl⟩ | ⟨item, hitem, hne⟩
  · obtain ⟨chars, rfl⟩ := exists_chars h
    have hkey : sortBy codePoints (chars.map ofChars) = (sortBy textKey chars).map ofChars := by
      rw [← map_sortBy]
      exact congrArg (fun key => (sortBy key chars).map ofChars) (funext codePoints_ofChars)
    rw [sortedTexts_texts, hkey, denoteItems_texts, denoteItems_texts, sortIfTexts_texts]
  · rw [sortedTexts_of_not hitem hne]
    refine (sortIfTexts_none ?_).symm
    refine Option.eq_none_iff_forall_ne_some.2 fun texts htexts => ?_
    rw [textsOf_eq_some, denoteItems_eq] at htexts
    have hmem : denote item ∈ texts.map IJson.string := htexts ▸ List.mem_map_of_mem hitem
    obtain ⟨chars, -, hchars⟩ := List.mem_map.1 hmem
    exact hne _ ((denote_eq_string (h item hitem)).1 hchars.symm)

/-- What a value with its arrays of texts sorted denotes is what the value denotes, with its arrays of
texts sorted. -/
theorem denote_textsSorted {depth : ℕ} {value : Value} (h : Accepted depth (textsSorted value)) :
    denote (textsSorted value) = sortTexts (denote value) := by
  induction value using Value.induct generalizing depth with
  | none | bool | int | str | binary | other => rfl
  | float x => cases x <;> rfl
  | mapping members ih =>
    rw [textsSorted] at h ⊢
    rw [denote, denote, sortTexts]
    congr 1
    refine funext (denoteMembers_textsSorted fun m hm => ?_)
    generalize hvalue : Value.mapping (textsSortedMembers members) = sorted at h
    cases h with
    | mapping hdepth nodup items =>
      rename_i named
      have hmem : (m.1, textsSorted m.2) ∈ named.map withName := by
        rw [← Value.mapping.inj hvalue, textsSortedMembers_eq]
        exact List.mem_map_of_mem hm
      obtain ⟨n, hn, hsame⟩ := List.mem_map.1 hmem
      have haccepted := items n hn
      rw [(Prod.mk.inj hsame).2] at haccepted
      exact ih m hm haccepted
    | none | bool | int | float | str | sequence => cases hvalue
  | sequence items ih =>
    rw [textsSorted] at h ⊢
    cases h with
    | sequence hdepth haccepted =>
      have hall : ∀ item ∈ textsSortedItems items, Accepted (depth + 1) item := fun item hitem =>
        haccepted item (mem_sortedTexts.2 hitem)
      rw [denote, denote, sortTexts, denoteItems_sortedTexts hall]
      congr 2
      rw [textsSortedItems_eq, denoteItems_eq, denoteItems_eq, sortItems_eq, List.map_map, List.map_map]
      refine List.map_congr_left fun item hitem => ih item hitem (hall _ ?_)
      rw [textsSortedItems_eq]
      exact List.mem_map_of_mem hitem

/-! ## Payloads -/

theorem registryBytes_eq_ok {value : Value} {bytes : List UInt8} (h : registryBytes value = .ok bytes) :
    canonicalBytes value [] = .ok bytes := by
  unfold registryBytes at h
  split at h <;> cases h
  assumption

theorem accepted_of_bytes {value : Value} {bytes : List UInt8} (h : registryBytes value = .ok bytes) :
    Accepted 0 value := by
  have hbytes := registryBytes_eq_ok h
  simp only [canonicalBytes, bind_eq_ok] at hbytes
  obtain ⟨text, htext, -⟩ := hbytes
  exact ((canonicalizeInto_eq_ok value [] 0 text).1 htext).1

/-- The members of a payload around one of them are lowered as they are whatever that one holds. -/
theorem plainHeldMembers_member {before after : List (Key × Held)} {key : Str} {x : Held}
    {seen : List Str} {out : List (Key × Value)}
    (h : plainHeldMembers nfc seen (before ++ (.name key, x) :: after) = .ok out) :
    ∃ pre post lowered, plainHeld nfc x = .ok lowered ∧
      out = pre ++ (.name (nfc key), lowered) :: post ∧
      ∀ y lowered', plainHeld nfc y = .ok lowered' →
        plainHeldMembers nfc seen (before ++ (.name key, y) :: after) =
          .ok (pre ++ (.name (nfc key), lowered') :: post) := by
  induction before generalizing seen out with
  | nil =>
    simp only [List.nil_append, plainHeldMembers, bind_eq_ok, pure_eq_ok, exists_unit,
      require_eq_ok] at h
    obtain ⟨hseen, lowered, hx, post, hpost, rfl⟩ := h
    refine ⟨[], post, lowered, hx, rfl, fun y lowered' hy => ?_⟩
    rw [List.nil_append, plainHeldMembers, require_pos hseen, ok_bind, hy, ok_bind, hpost]
    rfl
  | cons m before ih =>
    obtain ⟨name, item⟩ := m
    cases name with
    | other typeName => cases h
    | name name =>
      simp only [List.cons_append, plainHeldMembers, bind_eq_ok, pure_eq_ok, exists_unit,
        require_eq_ok] at h
      obtain ⟨hseen, first, hfirst, rest, hrest, rfl⟩ := h
      obtain ⟨pre, post, lowered, hx, rfl, hall⟩ := ih hrest
      refine ⟨(.name (nfc name), first) :: pre, post, lowered, hx, rfl, fun y lowered' hy => ?_⟩
      rw [List.cons_append, plainHeldMembers, require_pos hseen, ok_bind, hfirst, ok_bind, hall y _ hy]
      rfl

theorem denoteMembers_congr {pre post : List (Key × Value)} {key : Key} {a b : Value}
    (h : denote a = denote b) :
    denoteMembers (pre ++ (key, a) :: post) = denoteMembers (pre ++ (key, b) :: post) := by
  funext name
  induction pre with
  | nil => rw [List.nil_append, List.nil_append, denoteMembers, denoteMembers, h]
  | cons m pre ih =>
    rw [List.cons_append, List.cons_append, denoteMembers, denoteMembers, ih]

theorem denoteMembers_at {pre post : List (Key × Value)} {name : List Char} {a : Value}
    (h : Key.name (ofChars name) ∉ pre.map Prod.fst) :
    denoteMembers (pre ++ (.name (ofChars name), a) :: post) name = some (denote a) := by
  induction pre with
  | nil => rw [List.nil_append, denoteMembers, if_pos rfl]
  | cons m pre ih =>
    rw [List.map_cons, List.mem_cons, not_or] at h
    rw [List.cons_append, denoteMembers, if_neg (Ne.symm h.1), ih h.2]

/-- Accepted mappings that differ in what one member holds denote one value when that member does. -/
theorem denote_member_eq_iff {depth : ℕ} {pre post : List (Key × Value)} {key : Key} {a b : Value}
    (h : Accepted depth (.mapping (pre ++ (key, a) :: post))) :
    denote (.mapping (pre ++ (key, a) :: post)) = denote (.mapping (pre ++ (key, b) :: post)) ↔
      denote a = denote b := by
  rw [denote, denote, IJson.object.injEq]
  refine ⟨fun heq => ?_, denoteMembers_congr⟩
  generalize hvalue : Value.mapping (pre ++ (key, a) :: post) = value at h
  cases h with
  | mapping hdepth nodup items =>
    rename_i named
    have hmembers := Value.mapping.inj hvalue
    have hkeys := nodup_withName nodup
    rw [← hmembers, List.map_append, List.map_cons, List.nodup_append] at hkeys
    have hkey : (key, a) ∈ named.map withName := by
      rw [← hmembers]
      exact List.mem_append_right _ List.mem_cons_self
    obtain ⟨⟨name, item⟩, -, hsame⟩ := List.mem_map.1 hkey
    obtain ⟨rfl, rfl⟩ := Prod.mk.inj hsame
    have hnotMem : Key.name (ofChars name) ∉ pre.map Prod.fst := fun hmem =>
      hkeys.2.2 _ hmem _ List.mem_cons_self rfl
    have hname := congrFun heq name
    dsimp only at hname
    rw [denoteMembers_at hnotMem, denoteMembers_at hnotMem] at hname
    exact Option.some.inj hname
  | none | bool | int | float | str | sequence => cases hvalue

theorem accepted_member {depth : ℕ} {pre post : List (Key × Value)} {key : Key} {a : Value}
    (h : Accepted depth (.mapping (pre ++ (key, a) :: post))) : Accepted (depth + 1) a := by
  generalize hvalue : Value.mapping (pre ++ (key, a) :: post) = value at h
  cases h with
  | mapping hdepth nodup items =>
    rename_i named
    have hkey : (key, a) ∈ named.map withName := by
      rw [← Value.mapping.inj hvalue]
      exact List.mem_append_right _ List.mem_cons_self
    obtain ⟨m, hm, hsame⟩ := List.mem_map.1 hkey
    rw [← (Prod.mk.inj hsame).2]
    exact items m hm
  | none | bool | int | float | str | sequence => cases hvalue

/-- Payloads that differ in one frozen literal have the same bytes exactly when the literals are the same
value up to the order of arrays of texts. -/
theorem bytes_eq_iff (before after : List (Key × Held)) {key : Str} {v w : Held} {p q : List UInt8}
    (hp : heldBytes nfc (.mapping (before ++ (.name key, freeze v) :: after)) = .ok p)
    (hq : heldBytes nfc (.mapping (before ++ (.name key, freeze w) :: after)) = .ok q) :
    p = q ↔ TextsReordered (v.meaning nfc) (w.meaning nfc) := by
  simp only [heldBytes, plainHeld, bind_eq_ok, pure_eq_ok] at hp hq
  obtain ⟨_, ⟨out, hout, rfl⟩, hp⟩ := hp
  obtain ⟨_, ⟨out', hout', rfl⟩, hq⟩ := hq
  obtain ⟨pre, post, a, ha, rfl, hall⟩ := plainHeldMembers_member hout
  obtain ⟨-, -, b, hb, -, -⟩ := plainHeldMembers_member hout'
  -- Both payloads are lowered around the literal alike.
  obtain rfl := Except.ok.inj ((hall _ b hb).symm.trans hout')
  have haccepted := accepted_of_bytes hp
  have haccepted' := accepted_of_bytes hq
  rw [canonicalBytes_eq_iff (registryBytes_eq_ok hp) (registryBytes_eq_ok hq),
    denote_member_eq_iff haccepted]
  rw [plainHeld_freeze, except_map_eq_ok] at ha hb
  obtain ⟨x, hx, rfl⟩ := ha
  obtain ⟨y, hy, rfl⟩ := hb
  rw [denote_textsSorted (accepted_member haccepted), denote_textsSorted (accepted_member haccepted'),
    sortTexts_eq_iff, plainValue_eq_ok hx, plainValue_eq_ok hy]
  rfl

/-! ## Assertions and features -/

variable {strftime : Instant → String}

theorem checkObject_eq_ok {assertion a : KnowledgeAssertion} (h : assertion.checkObject = .ok a) :
    a = { assertion with literalValue := freeze assertion.literalValue } := by
  unfold KnowledgeAssertion.checkObject at h
  split at h
  · simp only [bind_eq_ok] at h
    obtain ⟨-, -, h⟩ := h
    split at h
    · next hnone =>
      obtain rfl := Except.ok.inj h
      cases assertion
      dsimp only at hnone
      rw [hnone]
      rfl
    · cases h
  · simp only [bind_eq_ok, pure_eq_ok] at h
    obtain ⟨-, -, -, -, rfl⟩ := h
    rfl

theorem postInit_eq_ok {feature f : ObservationFeature} (h : feature.postInit nfc = .ok f) :
    f = { feature with value := freeze feature.value } := by
  simp only [ObservationFeature.postInit, bind_eq_ok, pure_eq_ok] at h
  obtain ⟨-, -, -, -, -, -, -, -, -, -, -, -, -, -, rfl⟩ := h
  rfl

/-- The bytes of the payload of an assertion that is built with a literal. -/
def AssertionBytes (nfc : Str → Str) (strftime : Instant → String) (assertion : KnowledgeAssertion)
    (v : Held) (bytes : List UInt8) : Prop :=
  ∃ built, { assertion with literalValue := v }.checkObject = .ok built ∧
    heldBytes nfc (assertionPayload strftime built) = .ok bytes

/-- The bytes of the payload of a feature that is built with a value. -/
def FeatureBytes (nfc : Str → Str) (feature : ObservationFeature) (v : Held) (bytes : List UInt8) : Prop :=
  ∃ built, { feature with value := v }.postInit nfc = .ok built ∧
    heldBytes nfc (observationFeaturePayload built) = .ok bytes

theorem assertionBytes_eq_iff {assertion : KnowledgeAssertion} {v w : Held} {p q : List UInt8}
    (hp : AssertionBytes nfc strftime assertion v p) (hq : AssertionBytes nfc strftime assertion w q) :
    p = q ↔ TextsReordered (v.meaning nfc) (w.meaning nfc) := by
  obtain ⟨a, ha, hp⟩ := hp
  obtain ⟨b, hb, hq⟩ := hq
  obtain rfl := checkObject_eq_ok ha
  obtain rfl := checkObject_eq_ok hb
  exact bytes_eq_iff [_, _, _, _, _, _, _] _ hp hq

theorem featureBytes_eq_iff {feature : ObservationFeature} {v w : Held} {p q : List UInt8}
    (hp : FeatureBytes nfc feature v p) (hq : FeatureBytes nfc feature w q) :
    p = q ↔ TextsReordered (v.meaning nfc) (w.meaning nfc) := by
  obtain ⟨a, ha, hp⟩ := hp
  obtain ⟨b, hb, hq⟩ := hq
  obtain rfl := postInit_eq_ok ha
  obtain rfl := postInit_eq_ok hb
  exact bytes_eq_iff [_, _, _] _ hp hq

/-- Sameness up to the order of arrays of texts is sameness where the literals do not differ in that. -/
theorem sameJson_iff_of_not_differ {v w : Held} :
    (TextsReordered (v.meaning nfc) (w.meaning nfc) ↔ SameJson nfc v w) ↔ ¬DifferInTextOrder nfc v w := by
  constructor
  · rintro h ⟨hreordered, hne⟩
    exact hne (h.1 hreordered)
  · intro h
    constructor
    · intro hreordered
      by_contra hne
      exact h ⟨hreordered, hne⟩
    · intro hsame
      rw [SameJson] at hsame
      rw [hsame]
      exact .refl _

/-- The bytes tell two literals of one record apart as JSON values exactly when the literals do not differ
in the order of arrays of texts alone. -/
theorem literal_bytes_sound_iff (nfc : Str → Str) (strftime : Instant → String) :
    (∀ (assertion : KnowledgeAssertion) (v w : Held) (p q : List UInt8),
      AssertionBytes nfc strftime assertion v p → AssertionBytes nfc strftime assertion w q →
      ((p = q ↔ SameJson nfc v w) ↔ ¬DifferInTextOrder nfc v w)) ∧
    ∀ (feature : ObservationFeature) (v w : Held) (p q : List UInt8),
      FeatureBytes nfc feature v p → FeatureBytes nfc feature w q →
      ((p = q ↔ SameJson nfc v w) ↔ ¬DifferInTextOrder nfc v w) := by
  constructor
  · intro assertion v w p q hp hq
    rw [assertionBytes_eq_iff hp hq]
    exact sameJson_iff_of_not_differ
  · intro feature v w p q hp hq
    rw [featureBytes_eq_iff hp hq]
    exact sameJson_iff_of_not_differ

/-! ## Vocabularies in two orders -/

def start2024 : TemporalInstant := Knowledge.year2024

def assertionOf (literal : Held) : KnowledgeAssertion where
  assertionId := ofChars "a-1".toList
  workspaceId := ofChars "w-1".toList
  subjectId := ofChars "s-1".toList
  predicateElementId := ofChars "p-1".toList
  modelVersionId := ofChars "m-1".toList
  objectKind := .literal
  confidence := .int 1
  attestedFrom := start2024
  validToState := .open
  recordedAt := start2024
  classification := .internal
  objectId := none
  literalValue := literal
  validFrom := none
  validTo := none
  attestedTo := none
  recordedUntil := none

def letters (chars : List Char) : Held := .list (chars.map fun c => .str (ofChars [c]))

def featureOf (value : Held) : ObservationFeature where
  workspaceId := ofChars "w-1".toList
  observationId := ofChars "o-1".toList
  featureName := ofChars "tags".toList
  value := value
  policyVersion := ofChars "1".toList
  calculationVersion := ofChars "1".toList

/-- A platform on which every instant is written alike. -/
def startText (_ : Instant) : String := "2024-01-01T00:00:00Z"

/-- Two values with one result have it in common, if it is no error. -/
theorem exists_bytes {x y : Except ElementError (List UInt8)} (hok : x.isOk = true) (h : y = x) :
    ∃ bytes, y = .ok bytes ∧ x = .ok bytes := by
  cases x with
  | error e => cases hok
  | ok bytes => exact ⟨bytes, h, rfl⟩

theorem letters_assertion_bytes : ∃ bytes,
    AssertionBytes id startText (assertionOf .none) (letters ['b', 'a']) bytes ∧
      AssertionBytes id startText (assertionOf .none) (letters ['a', 'b']) bytes := by
  have hsome : (heldBytes id (assertionPayload startText
      (assertionOf (freeze (letters ['a', 'b']))))).isOk = true := by
    decide +kernel
  have heq : heldBytes id (assertionPayload startText (assertionOf (freeze (letters ['b', 'a'])))) =
      heldBytes id (assertionPayload startText (assertionOf (freeze (letters ['a', 'b'])))) := by
    decide +kernel
  obtain ⟨bytes, hreversed, hsorted⟩ := exists_bytes hsome heq
  exact ⟨bytes, ⟨_, rfl, hreversed⟩, _, rfl, hsorted⟩

theorem letters_feature_bytes : ∃ bytes,
    FeatureBytes id (featureOf .none) (letters ['b', 'a']) bytes ∧
      FeatureBytes id (featureOf .none) (letters ['a', 'b']) bytes := by
  have hbuilt : { featureOf .none with value := letters ['b', 'a'] }.postInit id =
      .ok (featureOf (freeze (letters ['b', 'a']))) := by
    rfl
  have hbuilt' : { featureOf .none with value := letters ['a', 'b'] }.postInit id =
      .ok (featureOf (freeze (letters ['a', 'b']))) := by
    rfl
  have hsome : (heldBytes id (observationFeaturePayload
      (featureOf (freeze (letters ['a', 'b']))))).isOk = true := by
    decide +kernel
  have heq : heldBytes id (observationFeaturePayload (featureOf (freeze (letters ['b', 'a'])))) =
      heldBytes id (observationFeaturePayload (featureOf (freeze (letters ['a', 'b'])))) := by
    decide +kernel
  obtain ⟨bytes, hreversed, hsorted⟩ := exists_bytes hsome heq
  exact ⟨bytes, ⟨_, hbuilt, hreversed⟩, _, hbuilt', hsorted⟩

theorem letters_differ : ¬SameJson id (letters ['b', 'a']) (letters ['a', 'b']) := by
  intro h
  simp only [SameJson, Held.meaning, letters, List.map, Held.json, jsonItems, normalized, normalizedItems,
    denote, denoteItems, id_eq, toChars_ofChars, Option.getD_some, IJson.array.injEq] at h
  exact absurd (IJson.string.inj (List.cons.inj h).1) (by decide)

/-- A list of letters and the same list reversed have one digest, in an assertion and in a feature. -/
theorem letters_reordered_digest :
    (∃ bytes, AssertionBytes id startText (assertionOf .none) (letters ['b', 'a']) bytes ∧
      AssertionBytes id startText (assertionOf .none) (letters ['a', 'b']) bytes) ∧
    (∃ bytes, FeatureBytes id (featureOf .none) (letters ['b', 'a']) bytes ∧
      FeatureBytes id (featureOf .none) (letters ['a', 'b']) bytes) ∧
    ¬SameJson id (letters ['b', 'a']) (letters ['a', 'b']) :=
  ⟨letters_assertion_bytes, letters_feature_bytes, letters_differ⟩

end OmniviaCore.SemanticRegistry
