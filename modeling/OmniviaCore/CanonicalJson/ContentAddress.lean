import OmniviaCore.CanonicalJson.Accepted

/-!
# The canonical text is a content address

`IJson` is the value a document stands for: its numbers are the numbers themselves and its objects are
maps from names, so neither the spelling of a number nor the order of members is part of it. Of the
values the canonicalizer accepts, those that stand for one I-JSON value are written alike and no others
are.
-/

namespace OmniviaCore.CanonicalJson

open Lib

/-- The value of a document. -/
inductive IJson where
  | null
  | bool (b : Bool)
  | number (q : ℚ)
  | string (chars : List Char)
  | array (items : List IJson)
  | object (members : List Char → Option IJson)

mutual

/-- The I-JSON value of an accepted value. -/
def denote : Value → IJson
  | .none => .null
  | .bool b => .bool b
  | .int n => .number n
  | .float (.finite negative x) => .number (x.signedValue negative)
  | .float _ => .null
  | .str s => .string ((toChars s).getD [])
  | .binary => .null
  | .mapping members => .object (denoteMembers members)
  | .sequence items => .array (denoteItems items)
  | .other _ => .null

def denoteMembers : List (Key × Value) → List Char → Option IJson
  | [], _ => none
  | (key, item) :: members, name =>
    if key = .name (ofChars name) then some (denote item) else denoteMembers members name

def denoteItems : List Value → List IJson
  | [] => []
  | item :: items => denote item :: denoteItems items

end

theorem denoteItems_eq (items : List Value) : denoteItems items = items.map denote := by
  induction items with
  | nil => rfl
  | cons item items ih => rw [denoteItems, ih, List.map_cons]

theorem denoteMembers_eq_some {named : List (List Char × Value)} (h : (named.map Prod.fst).Nodup)
    {name : List Char} {d : IJson} :
    denoteMembers (named.map withName) name = some d ↔ ∃ v, (name, v) ∈ named ∧ denote v = d := by
  induction named with
  | nil => exact iff_of_false (by simp [denoteMembers]) (by simp)
  | cons m named ih =>
    obtain ⟨chars, item⟩ := m
    rw [List.map_cons, List.nodup_cons] at h
    rw [List.map_cons, withName, denoteMembers]
    by_cases hname : chars = name
    · subst hname
      rw [if_pos rfl, Option.some.injEq]
      constructor
      · rintro rfl
        exact ⟨item, List.mem_cons_self, rfl⟩
      · rintro ⟨v, hv, rfl⟩
        rcases List.mem_cons.1 hv with hv | hv
        · cases hv
          rfl
        · exact absurd (List.mem_map_of_mem hv) h.1
    · have hkey : Key.name (ofChars chars) ≠ .name (ofChars name) := fun heq =>
        hname (ofChars_injective (Key.name.inj heq))
      rw [if_neg hkey, ih h.2]
      constructor
      · rintro ⟨v, hv, rfl⟩
        exact ⟨v, List.mem_cons_of_mem _ hv, rfl⟩
      · rintro ⟨v, hv, rfl⟩
        rcases List.mem_cons.1 hv with hv | hv
        · cases hv
          exact absurd rfl hname
        · exact ⟨v, hv, rfl⟩

/-! ## Trees and I-JSON values -/

/-- Two numbers are written alike exactly when they are one number. -/
theorem numberToken_eq_iff {v w : Value} {b c : Bool} {x y : Magnitude}
    (hv : requireBinary64 [] v = .ok (b, x)) (hw : requireBinary64 [] w = .ok (c, y)) :
    numberToken v = numberToken w ↔ x.signedValue b = y.signedValue c := by
  rw [numberToken, numberToken, hv, hw, signedText_eq_iff]

/-- An accepted number is written as the number it denotes. -/
theorem exists_number {depth : ℕ} {value : Value} (h : Accepted depth value)
    (hnumber : (∃ n, value = .int n) ∨ ∃ x, value = .float x) :
    ∃ negative x, requireBinary64 [] value = .ok (negative, x) ∧
      tree value = .number (numberToken value) ∧
      denote value = .number (x.signedValue negative) := by
  rcases hnumber with ⟨n, rfl⟩ | ⟨x, rfl⟩
  · cases h with
    | int h hn => exact ⟨_, _, hn, rfl, by rw [denote, requireBinary64_int hn]⟩
  · cases h with
    | float h negative x => exact ⟨negative, x, rfl, rfl, rfl⟩

section Transfer

variable {α β γ : Type}

/-- Lists on which two readings tell the same elements apart. -/
theorem map_eq_map_iff_of {f : γ → α} {g : γ → β} {l m : List γ}
    (h : ∀ v ∈ l, ∀ w ∈ m, f v = f w ↔ g v = g w) : l.map f = m.map f ↔ l.map g = m.map g := by
  induction l generalizing m with
  | nil => simp only [List.map_nil, List.nil_eq, List.map_eq_nil_iff]
  | cons v l ih =>
    cases m with
    | nil => exact iff_of_false (List.cons_ne_nil _ _) (List.cons_ne_nil _ _)
    | cons w m =>
      rw [List.map_cons, List.map_cons, List.cons.injEq, List.map_cons, List.map_cons,
        List.cons.injEq, h v List.mem_cons_self w List.mem_cons_self,
        ih fun v hv w hw => h v (List.mem_cons_of_mem _ hv) w (List.mem_cons_of_mem _ hw)]

variable {f : Value → α} {g : Value → β}

/-- The names that have a member with a given reading. -/
def Reads (f : Value → α) (named : List (List Char × Value)) (name : List Char) (a : α) : Prop :=
  ∃ v, (name, v) ∈ named ∧ f v = a

theorem Reads.transfer {l m : List (List Char × Value)}
    (h : ∀ n ∈ l, ∀ k ∈ m, f n.2 = f k.2 ↔ g n.2 = g k.2)
    (hf : ∀ name a, Reads f l name a ↔ Reads f m name a) (name : List Char) (b : β) :
    Reads g l name b ↔ Reads g m name b := by
  constructor
  · rintro ⟨v, hv, rfl⟩
    obtain ⟨w, hw, hwv⟩ := (hf name (f v)).1 ⟨v, hv, rfl⟩
    exact ⟨w, hw, ((h _ hv _ hw).1 hwv.symm).symm⟩
  · rintro ⟨w, hw, rfl⟩
    obtain ⟨v, hv, hvw⟩ := (hf name (f w)).2 ⟨w, hw, rfl⟩
    exact ⟨v, hv, (h _ hv _ hw).1 hvw⟩

end Transfer

theorem denote_mapping_eq_iff {l m : List (List Char × Value)} (hl : (l.map Prod.fst).Nodup)
    (hm : (m.map Prod.fst).Nodup) :
    denote (.mapping (l.map withName)) = denote (.mapping (m.map withName)) ↔
      ∀ name d, Reads denote l name d ↔ Reads denote m name d := by
  rw [denote, denote, IJson.object.injEq]
  constructor
  · intro h name d
    rw [Reads, Reads, ← denoteMembers_eq_some hl, ← denoteMembers_eq_some hm, h]
  · intro h
    funext name
    refine Option.ext fun d => ?_
    rw [denoteMembers_eq_some hl, denoteMembers_eq_some hm]
    exact h name d

/-- The members of two mappings are sorted into one list exactly when they are the same members. -/
theorem tree_mapping_eq_iff {l m : List (List Char × Value)} (hl : (l.map Prod.fst).Nodup)
    (hm : (m.map Prod.fst).Nodup) :
    tree (.mapping (l.map withName)) = tree (.mapping (m.map withName)) ↔
      ∀ name t, Reads tree l name t ↔ Reads tree m name t := by
  have hnames : ∀ l : List (List Char × Value),
      (l.map fun m => (m.1, tree m.2)).map Prod.fst = l.map Prod.fst := fun l => List.map_map
  have hkey : ∀ n ∈ l.map fun m => (m.1, tree m.2), ∀ k ∈ l.map fun m => (m.1, tree m.2),
      utf16Key n.1 = utf16Key k.1 → n = k := fun n hn k hk heq =>
    List.inj_on_of_nodup_map ((hnames l).symm ▸ hl) hn hk (utf16Key_injective heq)
  have hmem : ∀ (l : List (List Char × Value)) (name : List Char) (t : Tree),
      (name, t) ∈ (l.map fun m => (m.1, tree m.2)) ↔ Reads tree l name t := by
    intro l name t
    rw [List.mem_map]
    constructor
    · rintro ⟨⟨chars, v⟩, hv, heq⟩
      cases heq
      exact ⟨v, hv, rfl⟩
    · rintro ⟨v, hv, rfl⟩
      exact ⟨(name, v), hv, rfl⟩
  have hnodup : ∀ {l : List (List Char × Value)}, (l.map Prod.fst).Nodup →
      (l.map fun m => (m.1, tree m.2)).Nodup := fun {l} h =>
    List.Nodup.of_map Prod.fst ((hnames l).symm ▸ h)
  rw [tree, tree, memberTrees_withName, memberTrees_withName, Tree.object.injEq,
    sortBy_eq_iff_perm hkey, List.perm_ext_iff_of_nodup (hnodup hl) (hnodup hm), Prod.forall]
  simp only [hmem]

/-! ## Accepted values -/

theorem tree_eq_iff_of_number {depth depth' : ℕ} {a b : Value} (ha : Accepted depth a)
    (hnumber : (∃ n, a = .int n) ∨ ∃ x, a = .float x) (hb : Accepted depth' b) :
    tree a = tree b ↔ denote a = denote b := by
  obtain ⟨negative, x, hx, htree, hdenote⟩ := exists_number ha hnumber
  have hboth : (∃ n, b = .int n) ∨ (∃ x, b = .float x) → (tree a = tree b ↔ denote a = denote b) := by
    intro hnumber'
    obtain ⟨negative', y, hy, htree', hdenote'⟩ := exists_number hb hnumber'
    rw [htree, htree', hdenote, hdenote', Tree.number.injEq, IJson.number.injEq,
      numberToken_eq_iff hx hy]
  cases hb with
  | int h hn => exact hboth (.inl ⟨_, rfl⟩)
  | float h negative y => exact hboth (.inr ⟨_, rfl⟩)
  | _ => simp [htree, hdenote, tree, denote]

/-- Accepted values have one tree exactly when they stand for one I-JSON value. -/
theorem tree_eq_iff {depth depth' : ℕ} {a b : Value} (ha : Accepted depth a) (hb : Accepted depth' b) :
    tree a = tree b ↔ denote a = denote b := by
  induction ha generalizing depth' b with
  | none h => cases hb <;> simp [tree, denote]
  | bool h c => cases hb <;> simp [tree, denote]
  | int h hn => exact tree_eq_iff_of_number (.int h hn) (.inl ⟨_, rfl⟩) hb
  | float h negative x => exact tree_eq_iff_of_number (.float h negative x) (.inr ⟨_, rfl⟩) hb
  | str h chars => cases hb <;> simp [tree, denote, toChars_ofChars]
  | mapping h nodup items ih =>
    cases hb with
    | mapping h' nodup' items' =>
      rw [tree_mapping_eq_iff nodup nodup', denote_mapping_eq_iff nodup nodup']
      exact ⟨Reads.transfer fun n hn k hk => ih n hn (items' k hk),
        Reads.transfer fun n hn k hk => (ih n hn (items' k hk)).symm⟩
    | _ => simp [tree, denote]
  | sequence h items ih =>
    cases hb with
    | sequence h' items' =>
      rw [tree, tree, denote, denote, Tree.array.injEq, IJson.array.injEq, itemTrees_eq, itemTrees_eq,
        denoteItems_eq, denoteItems_eq]
      exact map_eq_map_iff_of fun v hv w hw => ih v hv (items' w hw)
    | _ => simp [tree, denote]

/-! ## The order of members -/

/-- Values that differ by the order of the members of objects, at any depth. -/
inductive Reordered : Value → Value → Prop where
  | refl (a : Value) : Reordered a a
  | symm {a b : Value} (h : Reordered a b) : Reordered b a
  | trans {a b c : Value} (h : Reordered a b) (h' : Reordered b c) : Reordered a c
  | perm {l m : List (Key × Value)} (h : l.Perm m) : Reordered (.mapping l) (.mapping m)
  | member (before after : List (Key × Value)) (key : Key) {a b : Value} (h : Reordered a b) :
      Reordered (.mapping (before ++ (key, a) :: after)) (.mapping (before ++ (key, b) :: after))
  | item (before after : List Value) {a b : Value} (h : Reordered a b) :
      Reordered (.sequence (before ++ a :: after)) (.sequence (before ++ b :: after))

/-- Where the one value is accepted, the other is too, and is written alike. -/
def Replaces (a b : Value) : Prop := ∀ depth, Accepted depth a → Accepted depth b ∧ tree a = tree b

theorem Replaces.perm {l m : List (Key × Value)} (h : l.Perm m) :
    Replaces (.mapping l) (.mapping m) := by
  intro depth hl
  cases hl with
  | mapping hdepth nodup items =>
    rename_i named
    obtain ⟨others, rfl⟩ : ∃ others : List (List Char × Value), m = others.map withName := by
      refine ⟨m.map fun k => (k.1.chars, k.2), ?_⟩
      rw [List.map_map]
      refine (List.map_id m).symm.trans (List.map_congr_left fun k hk => ?_)
      obtain ⟨n, -, rfl⟩ := List.mem_map.1 (h.mem_iff.2 hk)
      rw [Function.comp_apply, chars_withName]
      rfl
    have hperm : named.Perm others := by
      have hchars : ∀ l : List (List Char × Value),
          (l.map withName).map (fun k => (k.1.chars, k.2)) = l := by
        intro l
        rw [List.map_map]
        refine (List.map_congr_left fun n _ => ?_).trans (List.map_id l)
        rw [Function.comp_apply, chars_withName]
        rfl
      rw [← hchars named, ← hchars others]
      exact h.map _
    have nodup' : (others.map Prod.fst).Nodup := (hperm.map Prod.fst).nodup_iff.1 nodup
    refine ⟨.mapping hdepth nodup' fun n hn => items n (hperm.mem_iff.2 hn), ?_⟩
    rw [tree_mapping_eq_iff nodup nodup']
    intro name t
    simp only [Reads, hperm.mem_iff]

theorem Replaces.member {a b : Value} (h : Replaces a b) (before after : List (Key × Value))
    (key : Key) :
    Replaces (.mapping (before ++ (key, a) :: after)) (.mapping (before ++ (key, b) :: after)) := by
  intro depth ha
  generalize hmembers : before ++ (key, a) :: after = members at ha
  cases ha with
  | mapping hdepth nodup items =>
    obtain ⟨first, rest, rfl, rfl, hrest⟩ := List.map_eq_append_iff.1 hmembers.symm
    obtain ⟨⟨chars, a'⟩, last, rfl, ha', rfl⟩ := List.map_eq_cons_iff.1 hrest
    cases ha'
    obtain ⟨hb, htree⟩ := h (depth + 1) (items (chars, a') (by simp))
    have hnamed : first.map withName ++ (Key.name (ofChars chars), b) :: last.map withName =
        (first ++ (chars, b) :: last).map withName := by
      rw [List.map_append, List.map_cons]
      rfl
    refine ⟨?_, ?_⟩
    · rw [hnamed]
      refine .mapping hdepth (by simpa using nodup) fun n hn => ?_
      rcases List.mem_append.1 hn with hn | hn
      · exact items n (List.mem_append_left _ hn)
      · rcases List.mem_cons.1 hn with rfl | hn
        · exact hb
        · exact items n (List.mem_append_right _ (List.mem_cons_of_mem _ hn))
    · rw [← hmembers, tree, tree, memberTrees_eq, memberTrees_eq, List.map_append, List.map_append,
        List.map_cons, List.map_cons, htree]

theorem Replaces.item {a b : Value} (h : Replaces a b) (before after : List Value) :
    Replaces (.sequence (before ++ a :: after)) (.sequence (before ++ b :: after)) := by
  intro depth ha
  cases ha with
  | sequence hdepth items =>
    obtain ⟨hb, htree⟩ := h (depth + 1) (items a (by simp))
    refine ⟨.sequence hdepth fun v hv => ?_, ?_⟩
    · rcases List.mem_append.1 hv with hv | hv
      · exact items v (List.mem_append_left _ hv)
      · rcases List.mem_cons.1 hv with rfl | hv
        · exact hb
        · exact items v (List.mem_append_right _ (List.mem_cons_of_mem _ hv))
    · rw [tree, tree, itemTrees_eq, itemTrees_eq, List.map_append, List.map_append, List.map_cons,
        List.map_cons, htree]

theorem Reordered.replaces {a b : Value} (h : Reordered a b) : Replaces a b ∧ Replaces b a := by
  have hrefl : ∀ a, Replaces a a := fun a depth ha => ⟨ha, rfl⟩
  have htrans : ∀ {a b c}, Replaces a b → Replaces b c → Replaces a c := by
    intro a b c hab hbc depth ha
    obtain ⟨hb, htree⟩ := hab depth ha
    obtain ⟨hc, htree'⟩ := hbc depth hb
    exact ⟨hc, htree.trans htree'⟩
  induction h with
  | refl a => exact ⟨hrefl a, hrefl a⟩
  | symm h ih => exact ih.symm
  | trans h h' ih ih' => exact ⟨htrans ih.1 ih'.1, htrans ih'.2 ih.2⟩
  | perm h => exact ⟨.perm h, .perm h.symm⟩
  | member before after key h ih => exact ⟨ih.1.member before after key, ih.2.member before after key⟩
  | item before after h ih => exact ⟨ih.1.item before after, ih.2.item before after⟩

/-! ## The content address -/

theorem canonicalize_eq_iff {a b : Value} {path path' : Str} {s t : List Char}
    (ha : canonicalize a path = .ok s) (hb : canonicalize b path' = .ok t) :
    s = t ↔ denote a = denote b := by
  obtain ⟨haccepted, rfl⟩ := (canonicalizeInto_eq_ok a path 0 s).1 ha
  obtain ⟨hbaccepted, rfl⟩ := (canonicalizeInto_eq_ok b path' 0 t).1 hb
  rw [render_tree_eq_iff haccepted hbaccepted, tree_eq_iff haccepted hbaccepted]

theorem Reordered.canonicalize_iff {a b : Value} (h : Reordered a b) (path : Str) (s : List Char) :
    canonicalize a path = .ok s ↔ canonicalize b path = .ok s := by
  have hreplaces : ∀ {a b : Value}, Replaces a b → canonicalize a path = .ok s →
      canonicalize b path = .ok s := by
    intro a b h ha
    obtain ⟨haccepted, rfl⟩ := (canonicalizeInto_eq_ok a path 0 s).1 ha
    obtain ⟨hbaccepted, htree⟩ := h 0 haccepted
    exact (canonicalizeInto_eq_ok b path 0 _).2 ⟨hbaccepted, by rw [htree]⟩
  exact ⟨hreplaces h.replaces.1, hreplaces h.replaces.2⟩

/-- The canonical text is a content address: of the accepted values, those that stand for one I-JSON
value are written alike and no others are, and the order of members, at any depth, never matters. -/
theorem canonicalize_content_address :
    (∀ (a b : Value) (path path' : Str) (s t : List Char), canonicalize a path = .ok s →
      canonicalize b path' = .ok t → (s = t ↔ denote a = denote b)) ∧
    ∀ (a b : Value) (path : Str) (s : List Char), Reordered a b →
      (canonicalize a path = .ok s ↔ canonicalize b path = .ok s) :=
  ⟨fun _ _ _ _ _ _ ha hb => canonicalize_eq_iff ha hb, fun _ _ path s h => h.canonicalize_iff path s⟩

def zeroDocument (zero : Value) : Value :=
  .mapping [(.name (ofChars ['b']), .bool true), (.name (ofChars ['a']), .sequence [zero])]

/-- A negative zero and an integer zero are one number, and members may change places. -/
theorem canonicalize_content_address_zero :
    denote (zeroDocument (.float (.finite true .zero))) = denote (zeroDocument (.int 0)) ∧
      canonicalize (.mapping [(.name (ofChars ['a']), .sequence [.int 0]),
        (.name (ofChars ['b']), .bool true)]) [] = .ok ("\x7b\"a\":[0],\"b\":true\x7d".toList) := by
  have hfloat : canonicalize (zeroDocument (.float (.finite true .zero))) [] =
      .ok ("\x7b\"a\":[0],\"b\":true\x7d".toList) := by
    decide +kernel
  have hint : canonicalize (zeroDocument (.int 0)) [] =
      .ok ("\x7b\"a\":[0],\"b\":true\x7d".toList) := by
    decide +kernel
  exact ⟨(canonicalize_content_address.1 _ _ [] [] _ _ hfloat hint).1 rfl,
    (canonicalize_content_address.2 _ _ [] _ (.perm (.swap _ _ []))).1 hint⟩

end OmniviaCore.CanonicalJson
