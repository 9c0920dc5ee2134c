import OmniviaCore.CanonicalJson.Serialize

/-!
# What the canonicalizer accepts

`Accepted` is the canonicalizer's domain and `tree` what an accepted value is written as, its members in
the order of their sort keys. The canonicalizer returns a text exactly on that domain, and then the text
of that tree, at whatever path: `canonicalizeInto_eq_ok`. The text of an accepted value determines its
tree (`tree_eq_of_render_eq`).
-/

namespace OmniviaCore.CanonicalJson

open Lib

/-! ## Induction over values -/

/-- Induction over a value, through its members and items. -/
@[elab_as_elim]
theorem Value.induct {motive : Value → Prop} (none : motive .none) (bool : ∀ b, motive (.bool b))
    (int : ∀ n, motive (.int n)) (float : ∀ x, motive (.float x)) (str : ∀ s, motive (.str s))
    (binary : motive .binary) (other : ∀ typeName, motive (.other typeName))
    (mapping : ∀ members : List (Key × Value), (∀ m ∈ members, motive m.2) → motive (.mapping members))
    (sequence : ∀ items : List Value, (∀ item ∈ items, motive item) → motive (.sequence items))
    (value : Value) : motive value :=
  @Value.rec motive (fun members => ∀ m ∈ members, motive m.2) (fun items => ∀ item ∈ items, motive item)
    (fun m => motive m.2) none bool int float str binary mapping sequence other
    (fun _ h => absurd h List.not_mem_nil)
    (fun _ _ hhead htail _ h => (List.mem_cons.1 h).elim (fun heq => heq ▸ hhead) (htail _))
    (fun _ h => absurd h List.not_mem_nil)
    (fun _ _ hhead htail _ h => (List.mem_cons.1 h).elim (fun heq => heq ▸ hhead) (htail _))
    (fun _ _ h => h) value

/-! ## The domain -/

/-- A member under a name without surrogates. -/
def withName {α : Type} (m : List Char × α) : Key × α := (.name (ofChars m.1), m.2)

/-- The values the canonicalizer accepts at a depth. -/
inductive Accepted : ℕ → Value → Prop where
  | none {depth : ℕ} (h : depth ≤ JCS_MAX_NESTING_DEPTH) : Accepted depth .none
  | bool {depth : ℕ} (h : depth ≤ JCS_MAX_NESTING_DEPTH) (b : Bool) : Accepted depth (.bool b)
  | int {depth : ℕ} (h : depth ≤ JCS_MAX_NESTING_DEPTH) {n : ℤ} {negative : Bool} {x : Magnitude}
      (hn : requireBinary64 [] (.int n) = .ok (negative, x)) : Accepted depth (.int n)
  | float {depth : ℕ} (h : depth ≤ JCS_MAX_NESTING_DEPTH) (negative : Bool) (x : Magnitude) :
      Accepted depth (.float (.finite negative x))
  | str {depth : ℕ} (h : depth ≤ JCS_MAX_NESTING_DEPTH) (chars : List Char) :
      Accepted depth (.str (ofChars chars))
  | mapping {depth : ℕ} (h : depth ≤ JCS_MAX_NESTING_DEPTH) {named : List (List Char × Value)}
      (nodup : (named.map Prod.fst).Nodup) (items : ∀ m ∈ named, Accepted (depth + 1) m.2) :
      Accepted depth (.mapping (named.map withName))
  | sequence {depth : ℕ} (h : depth ≤ JCS_MAX_NESTING_DEPTH) {values : List Value}
      (items : ∀ item ∈ values, Accepted (depth + 1) item) : Accepted depth (.sequence values)

theorem Accepted.depth_le {depth : ℕ} {value : Value} (h : Accepted depth value) :
    depth ≤ JCS_MAX_NESTING_DEPTH := by
  cases h <;> assumption

/-! ## The tree of a value -/

def numberToken (value : Value) : List Char :=
  match requireBinary64 [] value with
  | .ok (negative, x) => signedText negative x
  | .error _ => []

def Key.chars : Key → List Char
  | .name s => (toChars s).getD []
  | .other _ => []

mutual

def tree : Value → Tree
  | .none => .null
  | .bool b => .bool b
  | .int n => .number (numberToken (.int n))
  | .float x => .number (numberToken (.float x))
  | .str s => .string ((toChars s).getD [])
  | .binary => .null
  | .mapping members => .object (sortBy (fun m => utf16Key m.1) (memberTrees members))
  | .sequence items => .array (itemTrees items)
  | .other _ => .null

def memberTrees : List (Key × Value) → List (List Char × Tree)
  | [] => []
  | (key, item) :: members => (key.chars, tree item) :: memberTrees members

def itemTrees : List Value → List Tree
  | [] => []
  | item :: items => tree item :: itemTrees items

end

theorem memberTrees_eq (members : List (Key × Value)) :
    memberTrees members = members.map fun m => (m.1.chars, tree m.2) := by
  induction members with
  | nil => rfl
  | cons m members ih => rw [memberTrees, ih, List.map_cons]

theorem itemTrees_eq (items : List Value) : itemTrees items = items.map tree := by
  induction items with
  | nil => rfl
  | cons item items ih => rw [itemTrees, ih, List.map_cons]

theorem toChars_ofChars (chars : List Char) : toChars (ofChars chars) = some chars :=
  toChars_eq_some.2 rfl

theorem chars_withName {α : Type} (m : List Char × α) : (withName m).1.chars = m.1 := by
  simp [withName, Key.chars, toChars_ofChars]

theorem ofChars_injective : Function.Injective ofChars := by
  intro l m h
  rw [← Option.some.injEq, ← toChars_ofChars l, ← toChars_ofChars m, h]

theorem memberTrees_withName (named : List (List Char × Value)) :
    memberTrees (named.map withName) = named.map fun m => (m.1, tree m.2) := by
  rw [memberTrees_eq, List.map_map]
  refine List.map_congr_left fun m _ => ?_
  rw [Function.comp_apply, chars_withName]
  rfl

theorem tree_mapping (named : List (List Char × Value)) :
    tree (.mapping (named.map withName)) =
      .object ((sortBy (fun m => utf16Key m.1) named).map fun m => (m.1, tree m.2)) := by
  rw [tree, memberTrees_withName, ← map_sortBy]

/-! ## The canonicalizer's result -/

theorem memberSerializers_eq (members : List (Key × Value)) :
    memberSerializers members = members.map fun m => (m.1, canonicalizeInto m.2) := by
  induction members with
  | nil => rfl
  | cons m members ih => rw [memberSerializers, ih, List.map_cons]

theorem itemSerializers_eq (items : List Value) :
    itemSerializers items = items.map canonicalizeInto := by
  induction items with
  | nil => rfl
  | cons item items ih => rw [itemSerializers, ih, List.map_cons]

theorem requireBinary64_path {path : Str} {value : Value} {p : Bool × Magnitude} :
    requireBinary64 path value = .ok p ↔ requireBinary64 [] value = .ok p := by
  cases value with
  | int n =>
    simp only [requireBinary64]
    split
    next => split <;> simp only [throw_ne_ok]
    next => simp only [bind_eq_ok, require_eq_ok]
  | float x =>
    cases x with
    | finite negative x => rfl
    | infinite negative => simp [requireBinary64]
    | nan => simp [requireBinary64]
  | none => simp [requireBinary64]
  | bool b => simp [requireBinary64]
  | str s => simp [requireBinary64]
  | binary => simp [requireBinary64]
  | mapping members => simp [requireBinary64]
  | sequence items => simp [requireBinary64]
  | other typeName => simp [requireBinary64]

theorem serializeNumber_eq_ok {path : Str} {value : Value} {text : List Char} :
    serializeNumber path value = .ok text ↔
      (∃ p, requireBinary64 [] value = .ok p) ∧ text = numberToken value := by
  simp only [serializeNumber, bind_eq_ok, pure_eq_ok, @requireBinary64_path path, numberToken]
  constructor
  · rintro ⟨p, hp, rfl⟩
    exact ⟨⟨p, hp⟩, by rw [hp]⟩
  · rintro ⟨⟨p, hp⟩, rfl⟩
    exact ⟨p, hp, by rw [hp]⟩

/-- The first pass succeeds on distinct names without surrogates, and keeps the items. -/
theorem collectEntries_eq_ok {α β : Type} {path : Str} {seen : List Str} {f : β → α}
    {members : List (Key × β)} {entries : List (Entry α)} :
    collectEntries path seen (members.map fun m => (m.1, f m.2)) = .ok entries ↔
      ∃ named : List (List Char × β), members = named.map withName ∧ (named.map Prod.fst).Nodup ∧
        (∀ m ∈ named, ofChars m.1 ∉ seen) ∧
        entries = named.map fun m => ⟨utf16Key m.1, ofChars m.1, f m.2⟩ := by
  induction members generalizing seen entries with
  | nil =>
    rw [List.map_nil, collectEntries, pure_eq_ok]
    constructor
    · rintro rfl
      exact ⟨[], rfl, List.nodup_nil, fun _ h => absurd h List.not_mem_nil, rfl⟩
    · rintro ⟨named, hnamed, -, -, rfl⟩
      rw [List.map_eq_nil_iff.1 hnamed.symm, List.map_nil]
  | cons m members ih =>
    obtain ⟨key, item⟩ := m
    cases key with
    | other typeName =>
      rw [List.map_cons, collectEntries, throw_ne_ok, false_iff]
      rintro ⟨named, hnamed, -⟩
      cases named with
      | nil => cases hnamed
      | cons n named => cases List.head_eq_of_cons_eq hnamed
    | name name =>
      simp only [List.map_cons, collectEntries, bind_eq_ok, require_eq_ok, exists_unit, pure_eq_ok,
        utf16SortKey_eq_ok, ih]
      constructor
      · rintro ⟨hseen, _, ⟨chars, rfl, rfl⟩, _, ⟨named, rfl, hnodup, hnotMem, rfl⟩, rfl⟩
        refine ⟨(chars, item) :: named, rfl, ?_, ?_, rfl⟩
        · rw [List.map_cons, List.nodup_cons]
          refine ⟨fun hmem => ?_, hnodup⟩
          obtain ⟨n, hn, hname⟩ := List.mem_map.1 hmem
          have hnot := hnotMem n hn
          rw [hname] at hnot
          exact hnot List.mem_cons_self
        · intro n hn
          rcases List.mem_cons.1 hn with rfl | hn
          · exact hseen
          · exact fun hmem => hnotMem n hn (List.mem_cons_of_mem _ hmem)
      · rintro ⟨named, hnamed, hnodup, hnotMem, rfl⟩
        cases named with
        | nil => cases hnamed
        | cons n named =>
          obtain ⟨chars, item'⟩ := n
          cases List.head_eq_of_cons_eq hnamed
          rw [List.map_cons, List.nodup_cons] at hnodup
          refine ⟨hnotMem _ List.mem_cons_self, _, ⟨chars, rfl, rfl⟩, _,
            ⟨named, List.tail_eq_of_cons_eq hnamed, hnodup.2, ?_, rfl⟩, rfl⟩
          intro n hn hmem
          rcases List.mem_cons.1 hmem with hmem | hmem
          · exact hnodup.1 (List.mem_map.2 ⟨n, hn, ofChars_injective hmem⟩)
          · exact hnotMem n (List.mem_cons_of_mem _ hn) hmem

/-- A value that is serialized as its tree, wherever it stands. -/
def SerializedAsTree (value : Value) : Prop :=
  ∀ path depth text, canonicalizeInto value path depth = .ok text ↔
    Accepted depth value ∧ text = (tree value).render escape

/-- The second pass, over entries that passed the first. -/
theorem serializeMembers_eq_ok {path : Str} {depth : ℕ} {named : List (List Char × Value)}
    (ih : ∀ m ∈ named, SerializedAsTree m.2) {texts : List (List Char)} :
    ((sortBy Entry.sortKey (named.map fun m =>
      (⟨utf16Key m.1, ofChars m.1, canonicalizeInto m.2⟩ : Entry Serializer))).mapM fun entry => do
        let name ← serializeString (path ++ CodePoint.scalar '.' :: entry.name) entry.name
        let text ← entry.item (path ++ CodePoint.scalar '.' :: entry.name) (depth + 1)
        pure (name ++ ':' :: text)) = .ok texts ↔
      (∀ m ∈ named, Accepted (depth + 1) m.2) ∧
        texts = (sortBy (fun m => utf16Key m.1) named).map fun m =>
          Tree.quoted escape m.1 ++ ':' :: (tree m.2).render escape := by
  rw [← map_sortBy, List.mapM_map,
    mapM_eq_ok_map (p := fun m : List Char × Value => Accepted (depth + 1) m.2)
      (g := fun m => Tree.quoted escape m.1 ++ ':' :: (tree m.2).render escape)]
  · simp only [mem_sortBy]
  · intro m hm b
    simp only [Function.comp_apply, bind_eq_ok, pure_eq_ok, serializeString_eq_ok, ih m (mem_sortBy.1 hm) _ _ _]
    constructor
    · rintro ⟨_, ⟨chars, hchars, rfl⟩, _, ⟨haccepted, rfl⟩, rfl⟩
      rw [ofChars_injective hchars]
      exact ⟨haccepted, rfl⟩
    · rintro ⟨haccepted, rfl⟩
      exact ⟨_, ⟨m.1, rfl, rfl⟩, _, ⟨haccepted, rfl⟩, rfl⟩

theorem serializeMapping_eq_ok {path : Str} {depth : ℕ} {members : List (Key × Value)}
    {text : List Char} (ih : ∀ m ∈ members, SerializedAsTree m.2) :
    serializeMapping (memberSerializers members) path depth = .ok text ↔
      ∃ named : List (List Char × Value), members = named.map withName ∧ (named.map Prod.fst).Nodup ∧
        (∀ m ∈ named, Accepted (depth + 1) m.2) ∧
        text = (tree (.mapping members)).render escape := by
  have hrender : ∀ named : List (List Char × Value), (tree (.mapping (named.map withName))).render escape =
      Tree.bracketed '\x7b' '\x7d' ((sortBy (fun m => utf16Key m.1) named).map fun m =>
        Tree.quoted escape m.1 ++ ':' :: (tree m.2).render escape) := by
    intro named
    rw [tree_mapping, Tree.render, Tree.renderMembers_eq, List.map_map]
    rfl
  have hnamed : ∀ {named : List (List Char × Value)}, members = named.map withName →
      ∀ m ∈ named, SerializedAsTree m.2 := by
    rintro named rfl m hm
    exact ih (withName m) (List.mem_map_of_mem hm)
  simp only [serializeMapping, memberSerializers_eq, bind_eq_ok, collectEntries_eq_ok, pure_eq_ok]
  constructor
  · rintro ⟨_, ⟨named, hmembers, hnodup, -, rfl⟩, texts, htexts, rfl⟩
    obtain ⟨haccepted, rfl⟩ := (serializeMembers_eq_ok (hnamed hmembers)).1 htexts
    exact ⟨named, hmembers, hnodup, haccepted, by rw [hmembers, hrender]⟩
  · rintro ⟨named, hmembers, hnodup, haccepted, rfl⟩
    exact ⟨_, ⟨named, hmembers, hnodup, fun _ _ => List.not_mem_nil, rfl⟩, _,
      (serializeMembers_eq_ok (hnamed hmembers)).2 ⟨haccepted, rfl⟩, by rw [hmembers, hrender]⟩

theorem serializeSequence_eq_ok {path : Str} {depth : ℕ} {items : List Value} {text : List Char}
    (ih : ∀ item ∈ items, SerializedAsTree item) :
    serializeSequence (itemSerializers items) path depth = .ok text ↔
      (∀ item ∈ items, Accepted (depth + 1) item) ∧
        text = (tree (.sequence items)).render escape := by
  have hitems : ∀ texts, (items.zipIdx.mapM fun a => canonicalizeInto a.1
      (path ++ ofChars ('[' :: (Nat.toDigits 10 a.2 ++ [']']))) (depth + 1)) = .ok texts ↔
        (∀ item ∈ items, Accepted (depth + 1) item) ∧
          texts = items.map fun item => (tree item).render escape := by
    intro texts
    rw [mapM_eq_ok_map (p := fun a => Accepted (depth + 1) a.1)
      (g := fun a => (tree a.1).render escape)
      fun a ha => ih a.1 (List.fst_mem_of_mem_zipIdx ha) _ _]
    have hfst := List.zipIdx_map_fst 0 items
    refine and_congr ?_ ?_
    · conv_rhs => rw [← hfst]
      simp only [List.forall_mem_map]
    · conv_rhs => rw [← hfst, List.map_map]
      rfl
  simp only [serializeSequence, itemSerializers_eq, List.zipIdx_map, List.mapM_map, bind_eq_ok,
    pure_eq_ok]
  constructor
  · rintro ⟨texts, htexts, rfl⟩
    obtain ⟨haccepted, rfl⟩ := (hitems texts).1 htexts
    refine ⟨haccepted, ?_⟩
    rw [tree, itemTrees_eq, Tree.render, Tree.renderItems_eq, List.map_map]
    rfl
  · rintro ⟨haccepted, rfl⟩
    refine ⟨_, (hitems _).2 ⟨haccepted, rfl⟩, ?_⟩
    rw [tree, itemTrees_eq, Tree.render, Tree.renderItems_eq, List.map_map]
    rfl

/-- The canonicalizer returns the text of a value's tree, on the values it accepts. -/
theorem canonicalizeInto_eq_ok (value : Value) : SerializedAsTree value := by
  induction value using Value.induct with
  | none =>
    intro path depth text
    simp only [canonicalizeInto, bind_eq_ok, require_eq_ok, exists_unit, pure_eq_ok]
    constructor
    · rintro ⟨h, rfl⟩
      exact ⟨.none h, rfl⟩
    · rintro ⟨h, rfl⟩
      exact ⟨h.depth_le, rfl⟩
  | bool b =>
    intro path depth text
    cases b with
    | true =>
      simp only [canonicalizeInto, bind_eq_ok, require_eq_ok, exists_unit, pure_eq_ok]
      constructor
      · rintro ⟨h, rfl⟩
        exact ⟨.bool h _, rfl⟩
      · rintro ⟨h, rfl⟩
        exact ⟨h.depth_le, rfl⟩
    | false =>
      simp only [canonicalizeInto, bind_eq_ok, require_eq_ok, exists_unit, pure_eq_ok]
      constructor
      · rintro ⟨h, rfl⟩
        exact ⟨.bool h _, rfl⟩
      · rintro ⟨h, rfl⟩
        exact ⟨h.depth_le, rfl⟩
  | int n =>
    intro path depth text
    simp only [canonicalizeInto, bind_eq_ok, require_eq_ok, exists_unit, serializeNumber_eq_ok]
    constructor
    · rintro ⟨h, ⟨p, hp⟩, rfl⟩
      exact ⟨.int h hp, rfl⟩
    · rintro ⟨h, rfl⟩
      cases h with
      | int h hn => exact ⟨h, ⟨_, hn⟩, rfl⟩
  | float x =>
    intro path depth text
    simp only [canonicalizeInto, bind_eq_ok, require_eq_ok, exists_unit, serializeNumber_eq_ok]
    constructor
    · rintro ⟨h, ⟨p, hp⟩, rfl⟩
      cases x with
      | finite negative x => exact ⟨.float h _ _, rfl⟩
      | infinite negative => cases hp
      | nan => cases hp
    · rintro ⟨h, rfl⟩
      cases h with
      | float h negative x => exact ⟨h, ⟨_, rfl⟩, rfl⟩
  | str s =>
    intro path depth text
    simp only [canonicalizeInto, bind_eq_ok, require_eq_ok, exists_unit, serializeString_eq_ok]
    constructor
    · rintro ⟨h, chars, rfl, rfl⟩
      refine ⟨.str h chars, ?_⟩
      rw [tree, toChars_ofChars]
      rfl
    · rintro ⟨h, rfl⟩
      cases h with
      | str h chars =>
        refine ⟨h, chars, rfl, ?_⟩
        rw [tree, toChars_ofChars]
        rfl
  | binary =>
    intro path depth text
    simp only [canonicalizeInto, bind_eq_ok, throw_ne_ok, exists_unit, and_false, false_iff]
    rintro ⟨h, -⟩
    cases h
  | other typeName =>
    intro path depth text
    simp only [canonicalizeInto, bind_eq_ok, throw_ne_ok, exists_unit, and_false, false_iff]
    rintro ⟨h, -⟩
    cases h
  | mapping members ih =>
    intro path depth text
    simp only [canonicalizeInto, bind_eq_ok, require_eq_ok, exists_unit, serializeMapping_eq_ok ih]
    constructor
    · rintro ⟨h, named, rfl, hnodup, haccepted, rfl⟩
      exact ⟨.mapping h hnodup haccepted, rfl⟩
    · rintro ⟨h, rfl⟩
      cases h with
      | mapping h hnodup haccepted => exact ⟨h, _, rfl, hnodup, haccepted, rfl⟩
  | sequence items ih =>
    intro path depth text
    simp only [canonicalizeInto, bind_eq_ok, require_eq_ok, exists_unit, serializeSequence_eq_ok ih]
    constructor
    · rintro ⟨h, haccepted, rfl⟩
      exact ⟨.sequence h haccepted, rfl⟩
    · rintro ⟨h, rfl⟩
      cases h with
      | sequence h haccepted => exact ⟨h, haccepted, rfl⟩

/-! ## The text determines the tree -/

theorem Accepted.tokens {depth : ℕ} {value : Value} (h : Accepted depth value) :
    (tree value).Tokens := by
  have hnumber : ∀ {value : Value} {negative : Bool} {x : Magnitude},
      requireBinary64 [] value = .ok (negative, x) → (Tree.number (numberToken value)).Tokens := by
    intro value negative x hvalue
    rw [numberToken, hvalue]
    exact .number (signedText_ne_nil _ _) (isNumberChar_signedText _ _)
  induction h with
  | none h => exact .null
  | bool h b => exact .bool b
  | int h hn => exact hnumber hn
  | float h negative x => exact @hnumber (.float (.finite negative x)) _ _ rfl
  | str h chars => exact .string _
  | mapping h nodup items ih =>
    rw [tree_mapping]
    refine .object fun m hm => ?_
    obtain ⟨n, hn, rfl⟩ := List.mem_map.1 hm
    exact ih n (mem_sortBy.1 hn)
  | sequence h items ih =>
    rw [tree, itemTrees_eq]
    refine .array fun t ht => ?_
    obtain ⟨item, hitem, rfl⟩ := List.mem_map.1 ht
    exact ih item hitem

/-- Accepted values that are written alike have one tree. -/
theorem render_tree_eq_iff {depth depth' : ℕ} {a b : Value} (ha : Accepted depth a)
    (hb : Accepted depth' b) :
    (tree a).render escape = (tree b).render escape ↔ tree a = tree b :=
  ⟨Tree.render_injective escape_prefixCode head_escape_ne_quote ha.tokens hb.tokens, fun h => by rw [h]⟩

end OmniviaCore.CanonicalJson
