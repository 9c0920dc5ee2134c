import OmniviaCore.CanonicalJson.ContentAddress

/-!
# Arrays of texts read as sets

`sortTexts` sorts every array that holds texts alone, at any depth, and leaves every other array in its
order. Two values are made equal by it exactly when they differ by the order of such arrays at most:
`sortTexts_eq_iff`.
-/

namespace OmniviaCore.CanonicalJson

open Lib

/-- Induction over a value, through its items and members. -/
@[elab_as_elim]
theorem IJson.induct {motive : IJson → Prop} (null : motive .null) (bool : ∀ b, motive (.bool b))
    (number : ∀ q, motive (.number q)) (string : ∀ chars, motive (.string chars))
    (array : ∀ items : List IJson, (∀ item ∈ items, motive item) → motive (.array items))
    (object : ∀ members : List Char → Option IJson,
      (∀ name item, members name = some item → motive item) → motive (.object members))
    (value : IJson) : motive value :=
  @IJson.rec motive (fun items => ∀ item ∈ items, motive item) (fun member => ∀ item, member = some item →
      motive item)
    null bool number string array (fun members h => object members h)
    (fun _ h => absurd h List.not_mem_nil)
    (fun _ _ hhead htail _ h => (List.mem_cons.1 h).elim (fun heq => heq ▸ hhead) (htail _))
    (fun _ h => by cases h) (fun _ hitem _ h => Option.some.inj h ▸ hitem) value

/-- The order of texts: by their code points. -/
def textKey (chars : List Char) : List ℕ := chars.map Char.toNat

theorem textKey_injective : Function.Injective textKey :=
  List.map_injective_iff.2 fun c d h => by
    rw [← Char.ofNat_toNat c, ← Char.ofNat_toNat d, h]

/-- The texts of an array that holds nothing else. -/
def textsOf : List IJson → Option (List (List Char))
  | [] => some []
  | .string chars :: items => (textsOf items).map (chars :: ·)
  | _ :: _ => none

def sortIfTexts (items : List IJson) : List IJson :=
  match textsOf items with
  | some texts => (sortBy textKey texts).map .string
  | none => items

mutual

/-- A value with its arrays of texts sorted, at any depth. -/
def sortTexts : IJson → IJson
  | .null => .null
  | .bool b => .bool b
  | .number q => .number q
  | .string chars => .string chars
  | .array items => .array (sortIfTexts (sortItems items))
  | .object members => .object fun name => sortMember (members name)

def sortItems : List IJson → List IJson
  | [] => []
  | item :: items => sortTexts item :: sortItems items

def sortMember : Option IJson → Option IJson
  | none => none
  | some item => some (sortTexts item)

end

/-- Values that differ by the order of arrays of texts, at any depth, and by nothing else. -/
inductive TextsReordered : IJson → IJson → Prop where
  | refl (a : IJson) : TextsReordered a a
  | texts {l m : List (List Char)} (h : l.Perm m) :
      TextsReordered (.array (l.map .string)) (.array (m.map .string))
  | items {l m : List IJson} (hlength : l.length = m.length)
      (h : ∀ i (hl : i < l.length) (hm : i < m.length), TextsReordered l[i] m[i]) :
      TextsReordered (.array l) (.array m)
  | members {f g : List Char → Option IJson} (hnames : ∀ name, (f name).isSome = (g name).isSome)
      (h : ∀ name a b, f name = some a → g name = some b → TextsReordered a b) :
      TextsReordered (.object f) (.object g)

theorem textsOf_eq_some {items : List IJson} {texts : List (List Char)} :
    textsOf items = some texts ↔ items = texts.map .string := by
  induction items generalizing texts with
  | nil =>
    rw [textsOf, Option.some.injEq, eq_comm]
    exact ⟨fun h => h ▸ rfl, fun h => List.map_eq_nil_iff.1 h.symm⟩
  | cons item items ih =>
    cases item with
    | string chars =>
      simp only [textsOf, Option.map_eq_some_iff, ih]
      constructor
      · rintro ⟨rest, rfl, rfl⟩
        rfl
      · intro h
        obtain ⟨first, rest, rfl, hfirst, hrest⟩ := List.map_eq_cons_iff.1 h.symm
        exact ⟨rest, hrest.symm, by rw [IJson.string.inj hfirst]⟩
    | _ =>
      refine iff_of_false (by simp [textsOf]) fun h => ?_
      obtain ⟨first, rest, rfl, hfirst, -⟩ := List.map_eq_cons_iff.1 h.symm
      cases hfirst

theorem sortItems_eq (items : List IJson) : sortItems items = items.map sortTexts := by
  induction items with
  | nil => rfl
  | cons item items ih => rw [sortItems, ih, List.map_cons]

theorem sortMember_eq (member : Option IJson) : sortMember member = member.map sortTexts := by
  cases member <;> rfl

theorem sortTexts_eq_string {a : IJson} {chars : List Char} :
    sortTexts a = .string chars ↔ a = .string chars := by
  cases a <;> simp [sortTexts]

/-- Sorting deeper down neither makes nor unmakes an array of texts. -/
theorem textsOf_sortItems (items : List IJson) : textsOf (items.map sortTexts) = textsOf items := by
  refine Option.ext fun texts => ?_
  rw [textsOf_eq_some, textsOf_eq_some]
  constructor
  · intro h
    refine List.ext_getElem (by simpa using congrArg List.length h) fun i hi _ => ?_
    have hitem := congrArg (·[i]?) h
    simp only [List.getElem?_map, List.getElem?_eq_getElem hi, Option.map_some] at hitem
    obtain ⟨chars, hchars, heq⟩ := Option.map_eq_some_iff.1 hitem.symm
    obtain ⟨hlt, hget⟩ := List.getElem?_eq_some_iff.1 hchars
    rw [List.getElem_map, hget]
    exact sortTexts_eq_string.1 heq.symm
  · rintro rfl
    rw [List.map_map]
    exact List.map_congr_left fun _ _ => rfl

theorem sortIfTexts_texts (texts : List (List Char)) :
    sortIfTexts (texts.map .string) = (sortBy textKey texts).map .string := by
  rw [sortIfTexts, textsOf_eq_some.2 rfl]

theorem sortIfTexts_none {items : List IJson} (h : textsOf items = none) : sortIfTexts items = items := by
  rw [sortIfTexts, h]

theorem map_string_injective : Function.Injective (List.map IJson.string) :=
  List.map_injective_iff.2 fun _ _ h => IJson.string.inj h

/-- Sorted arrays are equal when they are rearrangements of one array of texts, or item by item. -/
theorem sortIfTexts_eq_iff {l m : List IJson} :
    sortIfTexts l = sortIfTexts m ↔
      (∃ texts texts' : List (List Char), l = texts.map .string ∧ m = texts'.map .string ∧
        texts.Perm texts') ∨ l = m := by
  constructor
  · intro h
    cases hl : textsOf l with
    | some texts =>
      obtain rfl := textsOf_eq_some.1 hl
      rw [sortIfTexts_texts] at h
      cases hm : textsOf m with
      | some texts' =>
        obtain rfl := textsOf_eq_some.1 hm
        rw [sortIfTexts_texts] at h
        have hperm := (sortBy_eq_iff_perm fun _ _ _ _ heq => textKey_injective heq).1 (map_string_injective h)
        exact .inl ⟨texts, texts', rfl, rfl, hperm⟩
      | none =>
        rw [sortIfTexts_none hm] at h
        rw [← h, textsOf_eq_some.2 rfl] at hm
        cases hm
    | none =>
      rw [sortIfTexts_none hl] at h
      cases hm : textsOf m with
      | some texts' =>
        obtain rfl := textsOf_eq_some.1 hm
        rw [sortIfTexts_texts] at h
        rw [h, textsOf_eq_some.2 rfl] at hl
        cases hl
      | none => exact .inr (h.trans (sortIfTexts_none hm))
  · rintro (⟨texts, texts', rfl, rfl, hperm⟩ | rfl)
    · rw [sortIfTexts_texts, sortIfTexts_texts,
        (sortBy_eq_iff_perm fun _ _ _ _ heq => textKey_injective heq).2 hperm]
    · rfl

/-- An array of texts is what sorting below the top leaves one. -/
theorem eq_map_string_of_sortItems {items : List IJson} {texts : List (List Char)}
    (h : items.map sortTexts = texts.map .string) : items = texts.map .string := by
  rw [← textsOf_eq_some, ← textsOf_sortItems, h]
  exact textsOf_eq_some.2 rfl

theorem TextsReordered.sortTexts_eq {a b : IJson} (h : TextsReordered a b) : sortTexts a = sortTexts b := by
  induction h with
  | refl a => rfl
  | texts hperm =>
    rw [sortTexts, sortTexts, sortItems_eq, sortItems_eq, List.map_map, List.map_map]
    exact congrArg IJson.array (sortIfTexts_eq_iff.2 (.inl ⟨_, _, rfl, rfl, hperm⟩))
  | items hlength _ ih =>
    rw [sortTexts, sortTexts, sortItems_eq, sortItems_eq]
    congr 2
    refine List.ext_getElem (by simpa using hlength) fun i hl hm => ?_
    rw [List.getElem_map, List.getElem_map]
    exact ih i _ _
  | members hnames _ ih =>
    rename_i f g _
    rw [sortTexts, sortTexts]
    congr 1
    funext name
    rw [sortMember_eq, sortMember_eq]
    have hname := hnames name
    cases hf : f name with
    | none =>
      rw [hf, Option.isSome_none] at hname
      rw [Option.isSome_eq_false_iff.1 hname.symm |> Option.isNone_iff_eq_none.1]
    | some a =>
      rw [hf, Option.isSome_some] at hname
      obtain ⟨b, hb⟩ := Option.isSome_iff_exists.1 hname.symm
      rw [hb, Option.map_some, Option.map_some, ih name a b hf hb]

/-- Sorting arrays of texts forgets their order and nothing else. -/
theorem sortTexts_eq_iff {a b : IJson} : sortTexts a = sortTexts b ↔ TextsReordered a b := by
  refine ⟨?_, fun h => h.sortTexts_eq⟩
  induction a using IJson.induct generalizing b with
  | null =>
    cases b <;> simp only [sortTexts, reduceCtorEq, false_implies, forall_const]
    exact .refl _
  | bool | number | string =>
    intro h
    cases b <;> simp only [sortTexts, reduceCtorEq] at h
    rw [h]
    exact .refl _
  | array items ih =>
    intro h
    cases b <;> simp only [sortTexts, reduceCtorEq, IJson.array.injEq] at h
    rename_i others
    rw [sortItems_eq, sortItems_eq] at h
    rcases sortIfTexts_eq_iff.1 h with ⟨texts, texts', hl, hm, hperm⟩ | heq
    · rw [eq_map_string_of_sortItems hl, eq_map_string_of_sortItems hm]
      exact .texts hperm
    · have hlength : items.length = others.length := by simpa using congrArg List.length heq
      refine .items hlength fun i hl hm => ih _ (List.getElem_mem hl) ?_
      have hitem := congrArg (·[i]?) heq
      simpa [List.getElem?_eq_getElem hl, List.getElem?_eq_getElem hm] using hitem
  | object members ih =>
    intro h
    cases b <;> simp only [sortTexts, reduceCtorEq, IJson.object.injEq] at h
    rename_i others
    have hname : ∀ name, (members name).map sortTexts = (others name).map sortTexts := by
      intro name
      rw [← sortMember_eq, ← sortMember_eq]
      exact congrFun h name
    refine .members (fun name => ?_) fun name x y hx hy => ih name x hx ?_
    · simpa using congrArg Option.isSome (hname name)
    · have heq := hname name
      rw [hx, hy] at heq
      exact Option.some.inj heq

end OmniviaCore.CanonicalJson
