import OmniviaCore.CanonicalJson.Numbers
import OmniviaCore.Lib.SortBy

/-!
# The canonicalizer

`canonicalize` of `contracts/v1/canonical_json.py`. A value is serialized at a path, which only its
errors mention, and at a depth. A mapping is gone through twice: once over its names in the order of
its items, and once over its entries in the order of their sort keys.
-/

namespace OmniviaCore.CanonicalJson

open Lib

/-! ## Strings -/

/-- `_SHORT_ESCAPES`. -/
def SHORT_ESCAPES : List (Char × Char) :=
  [('"', '"'), ('\\', '\\'), ('\x08', 'b'), ('\x0c', 'f'), ('\n', 'n'), ('\r', 'r'), ('\t', 't')]

def escape (c : Char) : List Char :=
  match SHORT_ESCAPES.lookup c with
  | some short => ['\\', short]
  | none =>
    if c.toNat < 0x20 then
      let digits := Nat.toDigits 16 c.toNat
      '\\' :: 'u' :: (Decimal.zeros (4 - digits.length) ++ digits)
    else [c]

/-- The pieces of `_serialize_string` between the quotes. -/
def serializePieces (path : Str) : Str → Except Raised (List Char)
  | [] => pure []
  | .surrogate n :: _ => throw (.contract (.loneSurrogate path n))
  | .scalar c :: rest => do
    let pieces ← serializePieces path rest
    pure (escape c ++ pieces)

/-- `_serialize_string`. -/
def serializeString (path : Str) (value : Str) : Except Raised (List Char) := do
  let pieces ← serializePieces path value
  pure ('"' :: (pieces ++ ['"']))

/-! ## Sort keys -/

/-- The UTF-16 code units of a character. -/
def codeUnits (c : Char) : List ℕ :=
  if c.toNat < 0x10000 then [c.toNat]
  else [0xD800 + (c.toNat - 0x10000) / 1024, 0xDC00 + (c.toNat - 0x10000) % 1024]

/-- A code unit, the more significant byte first. -/
def bigEndian (unit : ℕ) : List ℕ := [unit / 256, unit % 256]

/-- The big-endian UTF-16 bytes of a text. -/
def utf16Key (chars : List Char) : List ℕ := (chars.flatMap codeUnits).flatMap bigEndian

/-- The characters of a `str`, if it has no surrogates. -/
def toChars : Str → Option (List Char)
  | [] => some []
  | .surrogate _ :: _ => none
  | .scalar c :: rest => (toChars rest).map (c :: ·)

/-- `utf16_sort_key`. -/
def utf16SortKey (value : Str) : Except Raised (List ℕ) :=
  match toChars value with
  | some chars => pure (utf16Key chars)
  | none => throw (.contract (.noSortKey value))

/-! ## Values -/

/-- An entry of a mapping. -/
structure Entry (α : Type) where
  sortKey : List ℕ
  name : Str
  item : α

/-- The first pass over a mapping's items: their names are of one type, and distinct. -/
def collectEntries {α : Type} (path : Str) (seen : List Str) :
    List (Key × α) → Except Raised (List (Entry α))
  | [] => pure []
  | (.other typeName, _) :: _ => throw (.contract (.memberNameType path typeName))
  | (.name name, item) :: rest => do
    require (name ∉ seen) (.contract (.duplicateMemberName path name))
    let sortKey ← utf16SortKey name
    let entries ← collectEntries path (name :: seen) rest
    pure (⟨sortKey, name, item⟩ :: entries)

/-- What serializes a value, at a path and a depth. -/
abbrev Serializer := Str → ℕ → Except Raised (List Char)

/-- The second pass, in the order of the sort keys. -/
def serializeMapping (members : List (Key × Serializer)) : Serializer := fun path depth => do
  let entries ← collectEntries path [] members
  let texts ← (sortBy Entry.sortKey entries).mapM fun entry => do
    let memberPath := path ++ .scalar '.' :: entry.name
    let name ← serializeString memberPath entry.name
    let text ← entry.item memberPath (depth + 1)
    pure (name ++ ':' :: text)
  pure (Tree.bracketed '\x7b' '\x7d' texts)

def serializeSequence (items : List Serializer) : Serializer := fun path depth => do
  let texts ← items.zipIdx.mapM fun (item, index) =>
    item (path ++ ofChars ('[' :: (Nat.toDigits 10 index ++ [']']))) (depth + 1)
  pure (Tree.bracketed '[' ']' texts)

mutual

/-- `_canonicalize_into`. -/
def canonicalizeInto (value : Value) : Serializer := fun path depth => do
  require (depth ≤ JCS_MAX_NESTING_DEPTH) (.contract (.nestingDepth path))
  match value with
  | .none => pure "null".toList
  | .bool true => pure "true".toList
  | .bool false => pure "false".toList
  | .int n => serializeNumber path (.int n)
  | .float x => serializeNumber path (.float x)
  | .str s => serializeString path s
  | .binary => throw (.contract (.binaryData path))
  | .mapping members => serializeMapping (memberSerializers members) path depth
  | .sequence items => serializeSequence (itemSerializers items) path depth
  | .other typeName => throw (.contract (.notJson path typeName))

def memberSerializers : List (Key × Value) → List (Key × Serializer)
  | [] => []
  | (key, item) :: members => (key, canonicalizeInto item) :: memberSerializers members

def itemSerializers : List Value → List Serializer
  | [] => []
  | item :: items => canonicalizeInto item :: itemSerializers items

end

/-- `canonicalize`. -/
def canonicalize (value : Value) (path : Str) : Except Raised (List Char) :=
  canonicalizeInto value path 0

/-- `canonical_bytes`. -/
def canonicalBytes (value : Value) (path : Str) : Except Raised (List UInt8) := do
  let text ← canonicalize value path
  pure (text.flatMap String.utf8EncodeChar)

/-! ## The escapes are a prefix code -/

def escaped : List Char := '"' :: '\\' :: (List.range 32).map Char.ofNat

theorem escape_of_notMem {c : Char} (h : c ∉ escaped) : escape c = [c] := by
  have hcontrol : ¬c.toNat < 32 := by
    intro hlt
    apply h
    simp only [escaped, List.mem_cons, List.mem_map, List.mem_range]
    exact .inr (.inr ⟨c.toNat, hlt, Char.ofNat_toNat c⟩)
  have hlookup : SHORT_ESCAPES.lookup c = none := by
    rw [List.lookup_eq_none_iff]
    intro p hp
    rw [bne_iff_ne]
    rintro rfl
    have hmem : SHORT_ESCAPES.all (fun p => p.1 ∈ escaped) = true := by decide
    exact h (of_decide_eq_true (List.all_eq_true.1 hmem p hp))
  simp only [escape, hlookup, if_neg hcontrol]

theorem head_escape {c : Char} (h : c ∈ escaped) : (escape c).head? = some '\\' := by
  have hall : escaped.all (fun c => (escape c).head? = some '\\') = true := by decide
  exact of_decide_eq_true (List.all_eq_true.1 hall c h)

theorem eq_of_escape_isPrefix {c d : Char} (hc : c ∈ escaped) (hd : d ∈ escaped)
    (h : escape c <+: escape d) : c = d := by
  have hall : escaped.all (fun c => escaped.all fun d => escape c <+: escape d → c = d) = true := by
    decide +kernel
  exact of_decide_eq_true (List.all_eq_true.1 (List.all_eq_true.1 hall c hc) d hd) h

theorem head_escape_of_notMem {c : Char} (h : c ∉ escaped) : (escape c).head? ≠ some '\\' := by
  rw [escape_of_notMem h, List.head?_cons, ne_eq, Option.some.injEq]
  rintro rfl
  exact h (by decide)

theorem escape_ne_nil (c : Char) : escape c ≠ [] := by
  by_cases h : c ∈ escaped
  · intro hnil
    have hhead := head_escape h
    rw [hnil] at hhead
    cases hhead
  · rw [escape_of_notMem h]
    exact List.cons_ne_nil _ _

theorem escape_prefixCode : PrefixCode escape where
  ne_nil := escape_ne_nil
  unambiguous c d r s h := by
    have hhead : (escape c).head? = (escape d).head? := by
      have happend := congrArg List.head? h
      rwa [List.head?_append_of_ne_nil _ (escape_ne_nil c),
        List.head?_append_of_ne_nil _ (escape_ne_nil d)] at happend
    by_cases hc : c ∈ escaped
    · by_cases hd : d ∈ escaped
      · obtain rfl : c = d := by
          rcases List.prefix_or_prefix_of_prefix (List.prefix_append (escape c) r)
            (h ▸ List.prefix_append (escape d) s) with hprefix | hprefix
          · exact eq_of_escape_isPrefix hc hd hprefix
          · exact (eq_of_escape_isPrefix hd hc hprefix).symm
        exact ⟨rfl, List.append_cancel_left h⟩
      · exact absurd (hhead ▸ head_escape hc) (head_escape_of_notMem hd)
    · by_cases hd : d ∈ escaped
      · exact absurd (hhead ▸ head_escape hd) (head_escape_of_notMem hc)
      · rw [escape_of_notMem hc, escape_of_notMem hd] at h
        exact ⟨List.head_eq_of_cons_eq h, List.tail_eq_of_cons_eq h⟩

/-- No escape starts with the quote that ends a string. -/
theorem head_escape_ne_quote (c : Char) : (escape c).head? ≠ some '"' := by
  by_cases h : c ∈ escaped
  · rw [head_escape h]
    decide
  · rw [escape_of_notMem h, List.head?_cons, ne_eq, Option.some.injEq]
    rintro rfl
    exact h (by decide)

theorem serializePieces_eq_ok {path : Str} {s : Str} {text : List Char} :
    serializePieces path s = .ok text ↔ ∃ chars, s = ofChars chars ∧ text = chars.flatMap escape := by
  induction s generalizing text with
  | nil =>
    simp only [serializePieces, pure_eq_ok]
    constructor
    · rintro rfl
      exact ⟨[], rfl, rfl⟩
    · rintro ⟨chars, hchars, rfl⟩
      obtain rfl := List.map_eq_nil_iff.1 hchars.symm
      rfl
  | cons point s ih =>
    cases point with
    | surrogate n =>
      simp only [serializePieces, throw_ne_ok, false_iff]
      rintro ⟨chars, hchars, -⟩
      cases chars with
      | nil => cases hchars
      | cons c chars => cases List.head_eq_of_cons_eq hchars
    | scalar c =>
      simp only [serializePieces, bind_eq_ok, pure_eq_ok, ih]
      constructor
      · rintro ⟨_, ⟨chars, rfl, rfl⟩, rfl⟩
        exact ⟨c :: chars, rfl, rfl⟩
      · rintro ⟨chars, hchars, rfl⟩
        cases chars with
        | nil => cases hchars
        | cons d chars =>
          cases List.head_eq_of_cons_eq hchars
          exact ⟨_, ⟨chars, List.tail_eq_of_cons_eq hchars, rfl⟩, rfl⟩

theorem serializeString_eq_ok {path : Str} {s : Str} {text : List Char} :
    serializeString path s = .ok text ↔
      ∃ chars, s = ofChars chars ∧ text = Tree.quoted escape chars := by
  simp only [serializeString, bind_eq_ok, pure_eq_ok, serializePieces_eq_ok, Tree.quoted]
  constructor
  · rintro ⟨_, ⟨chars, rfl, rfl⟩, rfl⟩
    exact ⟨chars, rfl, rfl⟩
  · rintro ⟨chars, rfl, rfl⟩
    exact ⟨_, ⟨chars, rfl, rfl⟩, rfl⟩

/-! ## Sort keys determine names -/

theorem codeUnits_prefixCode : PrefixCode codeUnits where
  ne_nil c := by
    unfold codeUnits
    split <;> exact List.cons_ne_nil _ _
  unambiguous c d r s h := by
    have hvalid : ∀ c : Char, c.toNat < 0xD800 ∨ (0xDFFF < c.toNat ∧ c.toNat < 0x110000) :=
      fun c => c.valid
    have hc := hvalid c
    have hd := hvalid d
    have hnat : c.toNat = d.toNat ∧ r = s := by
      unfold codeUnits at h
      split at h
      next hcsmall =>
        split at h
        next hdsmall => exact ⟨List.head_eq_of_cons_eq h, List.tail_eq_of_cons_eq h⟩
        next hdlarge =>
          have hhead := List.head_eq_of_cons_eq h
          omega
      next hclarge =>
        split at h
        next hdsmall =>
          have hhead := List.head_eq_of_cons_eq h
          omega
        next hdlarge =>
          have hhigh := List.head_eq_of_cons_eq h
          have hlow := List.head_eq_of_cons_eq (List.tail_eq_of_cons_eq h)
          exact ⟨by omega, List.tail_eq_of_cons_eq (List.tail_eq_of_cons_eq h)⟩
    exact ⟨Char.toNat_inj.1 hnat.1, hnat.2⟩

theorem bigEndian_prefixCode : PrefixCode bigEndian where
  ne_nil unit := List.cons_ne_nil _ _
  unambiguous u v r s h := by
    have hhigh : u / 256 = v / 256 := List.head_eq_of_cons_eq h
    have hlow : u % 256 = v % 256 := List.head_eq_of_cons_eq (List.tail_eq_of_cons_eq h)
    exact ⟨by omega, List.tail_eq_of_cons_eq (List.tail_eq_of_cons_eq h)⟩

theorem utf16Key_injective : Function.Injective utf16Key :=
  bigEndian_prefixCode.flatMap_injective.comp codeUnits_prefixCode.flatMap_injective

theorem toChars_eq_some {s : Str} {chars : List Char} :
    toChars s = some chars ↔ s = ofChars chars := by
  induction s generalizing chars with
  | nil =>
    cases chars with
    | nil => exact iff_of_true rfl rfl
    | cons c chars => exact iff_of_false (by simp [toChars]) (by simp [ofChars])
  | cons point s ih =>
    cases point with
    | surrogate n =>
      cases chars with
      | nil => exact iff_of_false (by simp [toChars]) (by simp [ofChars])
      | cons c chars => exact iff_of_false (by simp [toChars]) (by simp [ofChars])
    | scalar c =>
      cases chars with
      | nil => exact iff_of_false (by simp [toChars]) (by simp [ofChars])
      | cons d chars =>
        rw [toChars, Option.map_eq_some_iff]
        simp only [ih, ofChars, List.map_cons, List.cons.injEq, CodePoint.scalar.injEq]
        constructor
        · rintro ⟨_, rfl, rfl, rfl⟩
          exact ⟨rfl, rfl⟩
        · rintro ⟨rfl, rfl⟩
          exact ⟨_, rfl, rfl, rfl⟩

theorem utf16SortKey_eq_ok {s : Str} {key : List ℕ} :
    utf16SortKey s = .ok key ↔ ∃ chars, s = ofChars chars ∧ key = utf16Key chars := by
  unfold utf16SortKey
  split
  next chars h =>
    obtain rfl := toChars_eq_some.1 h
    rw [pure_eq_ok]
    constructor
    · rintro rfl
      exact ⟨chars, rfl, rfl⟩
    · rintro ⟨chars', hchars, rfl⟩
      rw [toChars_eq_some.2 hchars, Option.some.injEq] at h
      rw [h]
  next h =>
    simp only [throw_ne_ok, false_iff]
    rintro ⟨chars, hchars, -⟩
    rw [toChars_eq_some.2 hchars] at h
    cases h

end OmniviaCore.CanonicalJson
