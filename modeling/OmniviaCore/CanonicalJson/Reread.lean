import OmniviaCore.CanonicalJson.ReadBack
import OmniviaCore.Lib.Naturals

/-!
# Canonical text that is read again

A value of texts, flags and natural numbers below `2 ^ 53` (`Plain`) is written by the canonicalizer
and read again as itself, with the members of every mapping in the canonical order
(`loads_canonicalize`). Looking a member up does not see the order (`lookup_canonicalOrder`).
-/

namespace OmniviaCore.CanonicalJson

open Lib Tree

/-! ## Natural numbers are written in digits -/

theorem requireBinary64_natCast {n : ℕ} (h : n < 2 ^ 53) :
    ∃ x, requireBinary64 [] (.int n) = .ok (false, x) ∧ x.value = n := by
  obtain ⟨x, hx, hvalue⟩ := Magnitude.nearest_natCast_of_lt h
  refine ⟨x, ?_, hvalue⟩
  have hnegative : decide ((n : ℤ) < 0) = false := by simp
  simp only [requireBinary64, Int.natAbs_natCast, hx, hvalue, Nat.floor_natCast, require_pos, ok_bind,
    hnegative]
  rfl

theorem numberToken_natCast {n : ℕ} (h : n < 2 ^ 53) : numberToken (.int n) = Nat.toDigits 10 n := by
  obtain ⟨x, hx, hvalue⟩ := requireBinary64_natCast h
  simp only [numberToken, hx, signedText, Bool.false_eq_true, false_and, if_false]
  by_cases hmantissa : x.mantissa ≠ 0
  · obtain ⟨k, hpoint, hdigits⟩ := Magnitude.toDigits_shortest hvalue h hmantissa
    have hlength : (Nat.toDigits 10 n).length ≤ 16 := by
      rw [Nat.length_toDigits_le_iff (by decide) (by decide)]
      exact h.trans (by decide)
    rw [hdigits, List.length_append, Decimal.zeros, List.length_replicate] at hlength
    rw [serializeMagnitude_eq hmantissa, place, if_pos ⟨by omega, by omega⟩, trailingZeros, hdigits, hpoint]
    simp
  · have hzero : n = 0 := by
      rw [not_not] at hmantissa
      exact_mod_cast hvalue.symm.trans (Magnitude.value_eq_zero.2 hmantissa)
    rw [serializeMagnitude, dif_neg hmantissa, hzero]
    rfl

/-! ## Plain values -/

/-- The values of texts, flags and natural numbers below `2 ^ 53`, at a depth. -/
inductive Plain : ℕ → Value → Prop where
  | none {depth : ℕ} (h : depth ≤ JCS_MAX_NESTING_DEPTH) : Plain depth .none
  | bool {depth : ℕ} (h : depth ≤ JCS_MAX_NESTING_DEPTH) (b : Bool) : Plain depth (.bool b)
  | int {depth : ℕ} (h : depth ≤ JCS_MAX_NESTING_DEPTH) {n : ℕ} (hn : n < 2 ^ 53) :
      Plain depth (.int n)
  | str {depth : ℕ} (h : depth ≤ JCS_MAX_NESTING_DEPTH) (chars : List Char) :
      Plain depth (.str (ofChars chars))
  | mapping {depth : ℕ} (h : depth ≤ JCS_MAX_NESTING_DEPTH) {named : List (List Char × Value)}
      (nodup : (named.map Prod.fst).Nodup) (items : ∀ m ∈ named, Plain (depth + 1) m.2) :
      Plain depth (.mapping (named.map withName))
  | sequence {depth : ℕ} (h : depth ≤ JCS_MAX_NESTING_DEPTH) {values : List Value}
      (items : ∀ item ∈ values, Plain (depth + 1) item) : Plain depth (.sequence values)

mutual

/-- A value with the members of its mappings in the order they are written in. -/
def canonicalOrder : Value → Value
  | .mapping members => .mapping (sortBy (fun m => utf16Key m.1.chars) (orderMembers members))
  | .sequence items => .sequence (orderItems items)
  | .none => .none
  | .bool b => .bool b
  | .int n => .int n
  | .float x => .float x
  | .str s => .str s
  | .binary => .binary
  | .other typeName => .other typeName

def orderMembers : List (Key × Value) → List (Key × Value)
  | [] => []
  | (key, item) :: members => (key, canonicalOrder item) :: orderMembers members

def orderItems : List Value → List Value
  | [] => []
  | item :: items => canonicalOrder item :: orderItems items

end

theorem orderMembers_eq (members : List (Key × Value)) :
    orderMembers members = members.map fun m => (m.1, canonicalOrder m.2) := by
  induction members with
  | nil => rfl
  | cons m members ih => rw [orderMembers, ih, List.map_cons]

theorem orderItems_eq (items : List Value) : orderItems items = items.map canonicalOrder := by
  induction items with
  | nil => rfl
  | cons item items ih => rw [orderItems, ih, List.map_cons]

theorem canonicalOrder_mapping (named : List (List Char × Value)) :
    canonicalOrder (.mapping (named.map withName)) =
      .mapping ((sortBy (fun m => utf16Key m.1) named).map fun m =>
        withName (m.1, canonicalOrder m.2)) := by
  rw [canonicalOrder, orderMembers_eq, List.map_map]
  have hkey : ∀ m : List Char × Value,
      utf16Key (((fun m : Key × Value => (m.1, canonicalOrder m.2)) ∘ withName) m).1.chars =
        utf16Key m.1 := fun m => congrArg utf16Key (chars_withName m)
  rw [← map_sortBy]
  simp only [hkey]
  rfl

theorem Plain.accepted {depth : ℕ} {value : Value} (h : Plain depth value) : Accepted depth value := by
  induction h with
  | none h => exact .none h
  | bool h b => exact .bool h b
  | int h hn =>
    obtain ⟨x, hx, -⟩ := requireBinary64_natCast hn
    exact .int h hx
  | str h chars => exact .str h chars
  | mapping h nodup _ ih => exact .mapping h nodup ih
  | sequence h _ ih => exact .sequence h ih

/-- What a plain value is written as is read as the value in canonical order. -/
theorem Plain.readsAs {depth : ℕ} {value : Value} (h : Plain depth value) :
    ReadsAs (tree value) (canonicalOrder value) := by
  induction h with
  | none => exact .null
  | bool _ b => exact .bool b
  | @int _ _ n hn =>
    have hdigits : (NumberParts.mk false (Nat.toDigits 10 n) Option.none Option.none).token 0 = Nat.toDigits 10 n := by
      simp [NumberParts.token, NumberParts.fractionText, NumberParts.exponentPart]
    rw [tree, numberToken_natCast hn, ← hdigits]
    refine .number ⟨?_, Nat.toDigits_ne_nil, ?_, fun digits h => by cases h⟩ ?_
    · exact fun c hc => Nat.isDigit_of_mem_toDigits (by decide) (by decide) hc
    · by_cases hzero : n = 0
      · rw [hzero]
        exact .inl rfl
      · exact .inr (Decimal.toDigits_head_ne hzero)
    · have hlength : (Nat.toDigits 10 n).length ≤ MAX_STR_DIGITS := by
        rw [Nat.length_toDigits_le_iff (by decide) (by decide)]
        have hsmall : 2 ^ 53 ≤ 10 ^ 16 := by decide
        exact hn.trans_le (hsmall.trans (Nat.pow_le_pow_right (by decide) (by decide)))
      unfold parseNumber
      dsimp only
      rw [require, if_pos hlength, Nat.ofDigitChars_ten_toDigits]
      rfl
  | str _ chars =>
    rw [tree, toChars_ofChars]
    exact .string chars
  | @mapping _ _ named nodup _ ih =>
    rw [tree_mapping, canonicalOrder_mapping]
    have hmembers := @ReadsAs.object
      ((sortBy (fun m => utf16Key m.1) named).map fun m => (m.1, tree m.2, canonicalOrder m.2))
    simp only [List.map_map] at hmembers
    refine hmembers ?_ ?_
    · exact ((perm_sortBy named).map Prod.fst).nodup_iff.2 nodup
    · intro m hm
      obtain ⟨member, hmember, rfl⟩ := List.mem_map.1 hm
      exact ih member (mem_sortBy.1 hmember)
  | @sequence _ _ values _ ih =>
    rw [tree, itemTrees_eq, canonicalOrder, orderItems_eq]
    have hitems := @ReadsAs.array (values.map fun item => (tree item, canonicalOrder item))
    simp only [List.map_map] at hitems
    refine hitems fun p hp => ?_
    obtain ⟨item, hitem, rfl⟩ := List.mem_map.1 hp
    exact ih item hitem

/-- A plain value is written, and read again in canonical order. -/
theorem loads_canonicalize {value : Value} (h : Plain 0 value) (path : Str) :
    ∃ text, canonicalize value path = .ok text ∧ loads text = .ok (canonicalOrder value) :=
  ⟨(tree value).render escape, (canonicalizeInto_eq_ok value path 0 _).2 ⟨h.accepted, rfl⟩,
    loads_render h.readsAs⟩

/-! ## Looking members up -/

/-- `fields[name]`, when there is one. -/
def lookup (members : List (Key × Value)) (name : List Char) : Option Value :=
  (members.find? fun m => m.1 = .name (ofChars name)).map Prod.snd

/-- `set(document) == names`. -/
def hasMembers (document : List (Key × Value)) (names : List (List Char)) : Bool :=
  names.all (fun name => (lookup document name).isSome) &&
    document.all fun m => names.any fun name => m.1 == .name (ofChars name)

theorem lookup_eq_some {named : List (List Char × Value)} (nodup : (named.map Prod.fst).Nodup)
    {name : List Char} {value : Value} :
    lookup (named.map withName) name = some value ↔ (name, value) ∈ named := by
  induction named with
  | nil => simp [lookup]
  | cons m named ih =>
    rw [List.map_cons, List.nodup_cons] at nodup
    by_cases hname : m.1 = name
    · have hhead : lookup ((m :: named).map withName) name = some m.2 := by
        simp [lookup, withName, hname]
      rw [hhead, List.mem_cons]
      constructor
      · intro hvalue
        rw [← Option.some.inj hvalue, ← hname]
        exact .inl rfl
      · rintro (rfl | hmem)
        · rfl
        · refine absurd ?_ nodup.1
          rw [hname]
          exact List.mem_map.2 ⟨_, hmem, rfl⟩
    · have hhead : lookup ((m :: named).map withName) name = lookup (named.map withName) name := by
        have hkey : ¬(withName m).1 = Key.name (ofChars name) := by
          intro heq
          exact hname (ofChars_injective (Key.name.inj heq))
        simp only [lookup, List.map_cons, List.find?_cons, hkey, decide_false]
      rw [hhead, ih nodup.2, List.mem_cons]
      exact ⟨.inr, fun h => h.resolve_left (by rintro rfl; exact hname rfl)⟩

/-- Looking a member up in canonical order finds the member, in canonical order. -/
theorem lookup_canonicalOrder {named : List (List Char × Value)} (nodup : (named.map Prod.fst).Nodup)
    {name : List Char} {value : Value} (h : (name, value) ∈ named) :
    lookup ((sortBy (fun m => utf16Key m.1) named).map fun m => withName (m.1, canonicalOrder m.2)) name =
      some (canonicalOrder value) := by
  have hmap : (sortBy (fun m => utf16Key m.1) named).map (fun m => withName (m.1, canonicalOrder m.2)) =
      (((sortBy (fun m => utf16Key m.1) named).map fun m => (m.1, canonicalOrder m.2)).map withName) := by
    rw [List.map_map]
    rfl
  rw [hmap, lookup_eq_some]
  · exact List.mem_map.2 ⟨(name, value), mem_sortBy.2 h, rfl⟩
  · rw [List.map_map]
    exact ((perm_sortBy named).map Prod.fst).nodup_iff.2 nodup

end OmniviaCore.CanonicalJson
