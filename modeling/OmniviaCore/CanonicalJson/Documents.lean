import OmniviaCore.CanonicalJson.ContentAddress
import OmniviaCore.CanonicalJson.Reread

/-!
# Documents of named members

The values a program of literals builds: a text, and a `dict` under the names of a literal. A `str` is
read back as the text it spells.
-/

namespace OmniviaCore.CanonicalJson

open Lib

def textValue (s : String) : Value := .str (ofChars s.toList)

/-- A `dict` of members under the names of a literal. -/
def mappingOf (members : List (String × Value)) : Value :=
  .mapping (members.map fun m => (.name (ofChars m.1.toList), m.2))

/-- The characters of a `str`. A lone surrogate is in no identifier, digest or vocabulary, and neither
is the replacement character it is read as here. -/
def spelling (s : Str) : String :=
  String.ofList (s.map fun
    | .scalar c => c
    | .surrogate _ => '\uFFFD')

/-- A key of a mapping, as an error lists it. -/
def Key.spelling : Key → String
  | .name s => CanonicalJson.spelling s
  | .other typeName => typeName

theorem spelling_ofChars (s : String) : spelling (ofChars s.toList) = s := by
  rw [spelling, ofChars, List.map_map]
  exact (congrArg String.ofList (List.map_id' _)).trans String.ofList_toList

theorem mappingOf_eq (members : List (String × Value)) :
    mappingOf members = .mapping ((members.map fun m => (m.1.toList, m.2)).map withName) := by
  rw [mappingOf, List.map_map]
  rfl

theorem nodup_toList {members : List (String × Value)} (nodup : (members.map Prod.fst).Nodup) :
    ((members.map fun m => (m.1.toList, m.2)).map Prod.fst).Nodup := by
  rw [List.map_map, show Prod.fst ∘ (fun m : String × Value => (m.1.toList, m.2)) =
    String.toList ∘ Prod.fst from rfl, ← List.map_map]
  exact nodup.map fun _ _ h => String.toList_injective h

/-- A member of a literal is found under its name. -/
theorem lookup_members (members : List (String × Value)) (key : String) :
    lookup (members.map fun m => (.name (ofChars m.1.toList), m.2)) key.toList =
      members.lookup key := by
  induction members with
  | nil => rfl
  | cons m members ih =>
    obtain ⟨name, value⟩ := m
    by_cases hkey : key = name
    · subst hkey
      simp [lookup]
    · have hname : ofChars name.toList ≠ ofChars key.toList := fun h =>
        hkey (String.toList_injective (ofChars_injective h)).symm
      have htail : lookup (((name, value) :: members).map
          fun m => (.name (ofChars m.1.toList), m.2)) key.toList =
            lookup (members.map fun m => (.name (ofChars m.1.toList), m.2)) key.toList := by
        simp only [lookup, List.map_cons]
        rw [List.find?_cons_of_neg (by simpa using hname)]
      rw [htail, ih, List.lookup_cons, beq_eq_false_iff_ne.2 hkey]

theorem denoteMembers_members (members : List (String × Value)) (name : String) :
    denoteMembers (members.map fun m => (.name (ofChars m.1.toList), m.2)) name.toList =
      (members.lookup name).map denote := by
  induction members with
  | nil => rfl
  | cons m members ih =>
    obtain ⟨key, value⟩ := m
    rw [List.map_cons, denoteMembers]
    by_cases hname : name = key
    · subst hname
      simp
    · have hkey : ¬Key.name (ofChars key.toList) = Key.name (ofChars name.toList) := fun h =>
        hname (String.toList_injective (ofChars_injective (Key.name.inj h))).symm
      rw [if_neg hkey, ih, List.lookup_cons, beq_eq_false_iff_ne.2 hname]

/-- Two literals stand for one document when their members do, name by name. -/
theorem denote_mappingOf_eq_iff {l m : List (String × Value)} :
    denote (mappingOf l) = denote (mappingOf m) ↔
      ∀ name, (l.lookup name).map denote = (m.lookup name).map denote := by
  rw [mappingOf, mappingOf, denote, denote, IJson.object.injEq]
  constructor
  · intro h name
    rw [← denoteMembers_members, ← denoteMembers_members, h]
  · intro h
    funext chars
    have hname := h (String.ofList chars)
    rwa [← denoteMembers_members, ← denoteMembers_members, String.toList_ofList] at hname

theorem denote_textValue {s t : String} : denote (textValue s) = denote (textValue t) ↔ s = t := by
  simp only [textValue, denote, toChars_ofChars, Option.getD_some, IJson.string.injEq]
  exact ⟨fun h => String.toList_injective h, congrArg _⟩

theorem denote_sequence_eq_iff {α : Type} {write : α → Value}
    (hwrite : Function.Injective fun a => denote (write a)) {l m : List α} :
    denote (.sequence (l.map write)) = denote (.sequence (m.map write)) ↔ l = m := by
  simp only [denote, denoteItems_eq, List.map_map, IJson.array.injEq]
  exact (List.map_injective_iff.2 hwrite).eq_iff

theorem accepted_textValue {depth : ℕ} (h : depth ≤ JCS_MAX_NESTING_DEPTH) (s : String) :
    Accepted depth (textValue s) := .str h s.toList

theorem accepted_mappingOf {depth : ℕ} {members : List (String × Value)}
    (nodup : (members.map Prod.fst).Nodup) :
    Accepted depth (mappingOf members) ↔
      depth ≤ JCS_MAX_NESTING_DEPTH ∧ ∀ m ∈ members, Accepted (depth + 1) m.2 := by
  constructor
  · intro h
    refine ⟨h.depth_le, fun m hm => ?_⟩
    generalize hvalue : mappingOf members = value at h
    cases h with
    | mapping hdepth named_nodup items =>
      rename_i named
      have hmem : (Key.name (ofChars m.1.toList), m.2) ∈ named.map withName := by
        rw [← Value.mapping.inj hvalue]
        exact List.mem_map_of_mem hm
      obtain ⟨n, hn, hsame⟩ := List.mem_map.1 hmem
      rw [← (Prod.mk.inj hsame).2]
      exact items n hn
    | none | bool | int | float | str | sequence => cases hvalue
  · rintro ⟨hdepth, hitems⟩
    rw [mappingOf_eq]
    refine .mapping hdepth (nodup_toList nodup) fun m hm => ?_
    obtain ⟨member, hmember, rfl⟩ := List.mem_map.1 hm
    exact hitems member hmember

/-- The canonical bytes are a content address, as the text they encode is. -/
theorem canonicalBytes_eq_iff {a b : Value} {path path' : Str} {p q : List UInt8}
    (ha : canonicalBytes a path = .ok p) (hb : canonicalBytes b path' = .ok q) :
    p = q ↔ denote a = denote b := by
  simp only [canonicalBytes, bind_eq_ok, pure_eq_ok] at ha hb
  obtain ⟨s, hs, rfl⟩ := ha
  obtain ⟨t, ht, rfl⟩ := hb
  rw [utf8EncodeChar_prefixCode.flatMap_injective.eq_iff, canonicalize_eq_iff hs ht]

end OmniviaCore.CanonicalJson
