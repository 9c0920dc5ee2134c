import OmniviaCore.CanonicalJson.Dumps
import OmniviaCore.CanonicalJson.Reread

/-!
# The order of members

Members that differ by their order alone answer a lookup alike. They are written in the order of their names,
and read back in it: `ReturnsAs.mapping`.
-/

namespace OmniviaCore.CanonicalJson

open Lib Tree

theorem lookup_eq_some_iff {members : List (Key × Value)} (hnodup : (members.map Prod.fst).Nodup)
    {name : List Char} {value : Value} :
    lookup members name = some value ↔ (Key.name (ofChars name), value) ∈ members := by
  induction members with
  | nil => exact iff_of_false (fun h => by cases h) List.not_mem_nil
  | cons m members ih =>
    rw [List.map_cons, List.nodup_cons] at hnodup
    by_cases hkey : m.1 = .name (ofChars name)
    · rw [lookup, List.find?_cons_of_pos (by simpa using hkey), Option.map_some, Option.some.injEq,
        List.mem_cons, ← hkey]
      constructor
      · rintro rfl
        exact Or.inl rfl
      · rintro (heq | hmem)
        · rw [← heq]
        · exact absurd (List.mem_map_of_mem hmem) hnodup.1
    · rw [lookup, List.find?_cons_of_neg (by simpa using hkey), ← lookup, ih hnodup.2, List.mem_cons]
      constructor
      · exact Or.inr
      · rintro (heq | hmem)
        · exact absurd (congrArg Prod.fst heq).symm hkey
        · exact hmem

theorem lookup_perm {l m : List (Key × Value)} (hnodup : (l.map Prod.fst).Nodup) (h : l.Perm m)
    (name : List Char) : lookup l name = lookup m name := by
  have hnodup' := (h.map Prod.fst).nodup_iff.mp hnodup
  apply Option.ext
  intro value
  rw [lookup_eq_some_iff hnodup, lookup_eq_some_iff hnodup', h.mem_iff]

theorem map_fst_withName (members : List (List Char × Value)) :
    (members.map withName).map Prod.fst = (members.map Prod.fst).map fun name => Key.name (ofChars name) := by
  rw [List.map_map, List.map_map]
  rfl

theorem nodup_withName {members : List (List Char × Value)} (h : (members.map Prod.fst).Nodup) :
    ((members.map withName).map Prod.fst).Nodup := by
  rw [map_fst_withName]
  exact h.map fun name name' heq => ofChars_injective (Key.name.inj heq)

/-! ## The order in which members are read back -/

/-- The text a value is written as is read as another. -/
def ReturnsAs (value back : Value) : Prop :=
  ∀ text, dumps value = .ok text → ∃ t, text = render escape t ∧ ReadsAs t back

theorem returnsAs_none : ReturnsAs .none .none := by
  intro text h
  cases h
  exact ⟨.null, rfl, .null⟩

theorem returnsAs_int (n : ℤ) : ReturnsAs (.int n) (.int n) := by
  intro text h
  simp only [dumps, bind_eq_ok, require_eq_ok, exists_unit, pure_eq_ok] at h
  obtain ⟨hlength, rfl⟩ := h
  exact ⟨.number ((intParts n).token 2), (token_intParts n).symm,
    .number (written_intParts n) (parseNumber_intParts hlength)⟩

theorem returnsAs_str (s : Str) : ReturnsAs (.str s) (.str s) := by
  intro text h
  obtain ⟨chars, rfl, rfl⟩ := encodeString_eq_ok.1 h
  exact ⟨.string chars, rfl, .string chars⟩

theorem ReturnsAs.loads {value back : Value} {text : List Char} (h : ReturnsAs value back)
    (htext : dumps value = .ok text) : loads text = .ok back := by
  obtain ⟨t, rfl, hreads⟩ := h text htext
  exact loads_render hreads

theorem exists_trees {members : List (List Char × Value × Value)} {texts : List (List Char)}
    (h : ∀ m ∈ members, ReturnsAs m.2.1 m.2.2)
    (htexts : (members.map fun m => (ofChars m.1, dumps m.2.1)).mapM (fun m => do
      let name ← encodeString m.1
      let text ← m.2
      pure (name ++ ':' :: text)) = .ok texts) :
    ∃ read : List (List Char × Tree × Value),
      (read.map fun r => (r.1, r.2.2)) = (members.map fun m => (m.1, m.2.2)) ∧
      texts = (read.map fun r => quoted escape r.1 ++ ':' :: render escape r.2.1) ∧
      ∀ r ∈ read, ReadsAs r.2.1 r.2.2 := by
  rw [mapM_eq_ok] at htexts
  induction members generalizing texts with
  | nil =>
    cases htexts
    exact ⟨[], rfl, rfl, fun _ h => absurd h List.not_mem_nil⟩
  | cons m members ih =>
    obtain ⟨text, rest, htext, hrest, rfl⟩ := List.forall₂_cons_left_iff.1 htexts
    simp only [bind_eq_ok, pure_eq_ok, encodeString_eq_ok] at htext
    obtain ⟨_, ⟨chars, hchars, rfl⟩, itemText, hitem, rfl⟩ := htext
    obtain rfl := ofChars_injective hchars
    obtain ⟨t, rfl, hreads⟩ := h m List.mem_cons_self itemText hitem
    obtain ⟨read, hread, rfl, hall⟩ := ih (fun k hk => h k (List.mem_cons_of_mem _ hk)) hrest
    refine ⟨(m.1, t, m.2.2) :: read, ?_, rfl, List.forall_mem_cons.2 ⟨hreads, hall⟩⟩
    rw [List.map_cons, List.map_cons, hread]

/-- A mapping is read back with its members in the order of their names. -/
theorem ReturnsAs.mapping {items : List (List Char × Value)} (members : List (List Char × Value × Value))
    (hsorted : (members.map fun m => codePoints (ofChars m.1)).Pairwise (· < ·))
    (hperm : items.Perm (members.map fun m => (m.1, m.2.1))) (h : ∀ m ∈ members, ReturnsAs m.2.1 m.2.2) :
    ReturnsAs (.mapping (items.map withName)) (.mapping ((members.map fun m => (m.1, m.2.2)).map withName)) := by
  intro text htext
  have hnames : dumpsNames (dumpsMembers (items.map withName)) =
      .ok (items.map fun m => (ofChars m.1, dumps m.2)) := by
    rw [dumpsMembers_eq]
    clear hperm htext
    induction items with
    | nil => rfl
    | cons m items ih =>
      simp only [List.map_cons, withName, dumpsNames, ih, ok_bind]
      rfl
  have hkeys : ((members.map fun m => (ofChars m.1, dumps m.2.1)).map fun m => codePoints m.1).Pairwise
      (· < ·) := by rwa [List.map_map]
  have hsort : sortBy (fun m : Str × Except DumpsError (List Char) => codePoints m.1)
      (items.map fun m => (ofChars m.1, dumps m.2)) = members.map fun m => (ofChars m.1, dumps m.2.1) := by
    have hmap := (hperm.map fun m => (ofChars m.1, dumps m.2)).symm
    rw [List.map_map] at hmap
    rw [← sortBy_of_pairwise ((List.pairwise_map.1 hkeys).imp le_of_lt)]
    exact ((sortBy_eq_iff_perm (List.inj_on_of_nodup_map (hkeys.imp ne_of_lt))).2 hmap).symm
  simp only [dumps, dumpsMapping, hnames, hsort, ok_bind, bind_eq_ok, pure_eq_ok] at htext
  obtain ⟨texts, htexts, rfl⟩ := htext
  obtain ⟨read, hread, rfl, hall⟩ := exists_trees h htexts
  have hnodup : (read.map Prod.fst).Nodup := by
    have hfst := congrArg (List.map Prod.fst) hread
    rw [List.map_map, List.map_map] at hfst
    rw [show read.map Prod.fst = members.map Prod.fst from hfst]
    refine List.Nodup.of_map (fun name => codePoints (ofChars name)) ?_
    rw [List.map_map]
    exact hsorted.imp ne_of_lt
  refine ⟨.object (read.map fun r => (r.1, r.2.1)), ?_, ?_⟩
  · rw [render, renderMembers_eq, List.map_map]
    rfl
  · rw [← hread, List.map_map]
    exact .object hnodup hall

end OmniviaCore.CanonicalJson
