import OmniviaCore.CanonicalJson.ContentAddress
import OmniviaCore.CanonicalJson.ReadBack

/-!
# The wire encoder

`to_canonical_json` of `contracts/v1/codec.py`: `json.dumps` with sorted keys, compact separators, no
ASCII escapes and no `NaN`. It is not the canonicalizer: names are sorted by code points, an integer and
a `float` are written as Python writes them, and nothing bounds the nesting. What it writes reads back
as the value it was given, up to the order of members (`loads_dumps`).
-/

namespace OmniviaCore.CanonicalJson

open Lib Tree

/-- What `json.dumps` raises: `TypeError`, `ValueError`, or `UnicodeEncodeError` when its text is
encoded. -/
inductive DumpsError where
  | typeError
  | valueError
  | unicodeEncode
  deriving DecidableEq

/-- `int.__repr__`. -/
def reprInt (n : ℤ) : List Char :=
  (if n < 0 then ['-'] else []) ++ Nat.toDigits 10 n.natAbs

/-- `float.__repr__` of a finite `float`. -/
def floatRepr (negative : Bool) (x : Magnitude) : List Char :=
  (if negative then ['-'] else []) ++
    if h : x.mantissa ≠ 0 then reprFloat (x.shortest h) else ['0', '.', '0']

/-- `py_encode_basestring`, of a text that is encoded afterwards. -/
def encodeString (s : Str) : Except DumpsError (List Char) :=
  match toChars s with
  | some chars => pure (quoted escape chars)
  | none => throw .unicodeEncode

/-- The code points of a name, by which names are sorted. -/
def codePoints (s : Str) : List ℕ :=
  s.map fun
    | .scalar c => c.toNat
    | .surrogate n => 0xD800 + n

/-- The names of a `dict` and the texts of its items. -/
def dumpsNames : List (Key × Except DumpsError (List Char)) →
    Except DumpsError (List (Str × Except DumpsError (List Char)))
  | [] => pure []
  | (.other _, _) :: _ => throw .typeError
  | (.name name, text) :: members => do
    let named ← dumpsNames members
    pure ((name, text) :: named)

def dumpsMapping (members : List (Key × Except DumpsError (List Char))) :
    Except DumpsError (List Char) := do
  let named ← dumpsNames members
  let texts ← (sortBy (fun m => codePoints m.1) named).mapM fun m => do
    let name ← encodeString m.1
    let text ← m.2
    pure (name ++ ':' :: text)
  pure (bracketed '\x7b' '\x7d' texts)

mutual

/-- `to_canonical_json`. -/
def dumps : Value → Except DumpsError (List Char)
  | .none => pure "null".toList
  | .bool true => pure "true".toList
  | .bool false => pure "false".toList
  | .int n => do
    require ((Nat.toDigits 10 n.natAbs).length ≤ MAX_STR_DIGITS) .valueError
    pure (reprInt n)
  | .float (.finite negative x) => pure (floatRepr negative x)
  | .float _ => throw .valueError
  | .str s => encodeString s
  | .binary => throw .typeError
  | .mapping members => dumpsMapping (dumpsMembers members)
  | .sequence items => do
    let texts ← (dumpsItems items).mapM id
    pure (bracketed '[' ']' texts)
  | .other _ => throw .typeError

def dumpsMembers : List (Key × Value) → List (Key × Except DumpsError (List Char))
  | [] => []
  | (key, item) :: members => (key, dumps item) :: dumpsMembers members

def dumpsItems : List Value → List (Except DumpsError (List Char))
  | [] => []
  | item :: items => dumps item :: dumpsItems items

end

mutual

/-- No mapping has two members of one name, as no `dict` has. -/
def Value.distinct : Value → Bool
  | .mapping members => decide (members.map Prod.fst).Nodup && distinctMembers members
  | .sequence items => distinctItems items
  | _ => true

def distinctMembers : List (Key × Value) → Bool
  | [] => true
  | (_, item) :: members => item.distinct && distinctMembers members

def distinctItems : List Value → Bool
  | [] => true
  | item :: items => item.distinct && distinctItems items

end

theorem dumpsMembers_eq (members : List (Key × Value)) :
    dumpsMembers members = members.map fun m => (m.1, dumps m.2) := by
  induction members with
  | nil => rfl
  | cons m members ih => rw [dumpsMembers, ih, List.map_cons]

theorem dumpsItems_eq (items : List Value) : dumpsItems items = items.map dumps := by
  induction items with
  | nil => rfl
  | cons item items ih => rw [dumpsItems, ih, List.map_cons]

theorem distinctMembers_iff (members : List (Key × Value)) :
    distinctMembers members = true ↔ ∀ m ∈ members, m.2.distinct = true := by
  induction members with
  | nil => simp [distinctMembers]
  | cons m members ih => rw [distinctMembers, Bool.and_eq_true, ih, List.forall_mem_cons]

theorem distinctItems_iff (items : List Value) :
    distinctItems items = true ↔ ∀ item ∈ items, item.distinct = true := by
  induction items with
  | nil => simp [distinctItems]
  | cons item items ih => rw [distinctItems, Bool.and_eq_true, ih, List.forall_mem_cons]

/-! ## Numbers are read back -/

def intParts (n : ℤ) : NumberParts := ⟨decide (n < 0), Nat.toDigits 10 n.natAbs, none, none⟩

theorem token_intParts (n : ℤ) : (intParts n).token 2 = reprInt n := by
  simp [intParts, NumberParts.token, NumberParts.fractionText, NumberParts.exponentPart, reprInt]

theorem written_intParts (n : ℤ) : (intParts n).Written where
  isDigit c hc := Nat.isDigit_of_mem_toDigits (by decide) (by decide) hc
  ne_nil := Nat.toDigits_ne_nil
  leading := by
    by_cases h : n.natAbs = 0
    · rw [intParts, h]
      exact .inl rfl
    · exact .inr (Decimal.toDigits_head_ne h)
  fraction digits h := by cases h

theorem parseNumber_intParts {n : ℤ} (h : (Nat.toDigits 10 n.natAbs).length ≤ MAX_STR_DIGITS) :
    parseNumber (intParts n) = .ok (.int n) := by
  have hvalue : (if n < 0 then -(n.natAbs : ℤ) else n.natAbs) = n := by
    split <;> omega
  unfold parseNumber intParts
  dsimp only
  rw [require, if_pos h, Nat.ofDigitChars_ten_toDigits]
  simp only [decide_eq_true_eq, hvalue]
  rfl

section Decimal

variable (negative : Bool) (d : Decimal)

/-! The three shapes of a decimal that is not written as an integer: with an exponent, below one, and with
a point among its digits. -/

def scientificParts : NumberParts :=
  ⟨negative, d.digits.take 1, if d.digits.drop 1 = [] then none else some (d.digits.drop 1),
    some (d.point - 1)⟩

def leadingParts : NumberParts :=
  ⟨negative, ['0'], some (Decimal.zeros (-d.point).toNat ++ d.digits), none⟩

def splitParts : NumberParts :=
  ⟨negative, d.digits.take d.point.toNat, some (d.digits.drop d.point.toNat), none⟩

/-- A decimal's parts, as `repr` writes it. -/
def decimalParts : NumberParts :=
  if d.point ≤ -4 ∨ 16 < d.point then scientificParts negative d
  else if d.point ≤ 0 then leadingParts negative d
  else if d.point < d.digits.length then splitParts negative d
  else ⟨negative, trailingZeros d.digits d.point, some ['0'], none⟩

theorem token_scientificParts (width : ℕ) : (scientificParts negative d).token width =
    (if negative then ['-'] else []) ++ (scientific d.digits ++ 'e' :: exponentText width (d.point - 1)) := by
  unfold scientificParts
  cases hdigits : d.digits with
  | nil => exact absurd hdigits d.ne_nil
  | cons c digits =>
    cases digits with
    | nil => simp [NumberParts.token, NumberParts.fractionText, NumberParts.exponentPart, scientific]
    | cons c' digits =>
      simp [NumberParts.token, NumberParts.fractionText, NumberParts.exponentPart, scientific]

theorem token_leadingParts (width : ℕ) : (leadingParts negative d).token width =
    (if negative then ['-'] else []) ++ leadingZeros d.digits d.point := by
  unfold leadingParts
  simp [NumberParts.token, NumberParts.fractionText, NumberParts.exponentPart, leadingZeros]

theorem token_splitParts (width : ℕ) : (splitParts negative d).token width =
    (if negative then ['-'] else []) ++ splitAtPoint d.digits d.point := by
  unfold splitParts
  simp [NumberParts.token, NumberParts.fractionText, NumberParts.exponentPart, splitAtPoint]

theorem token_decimalParts :
    (decimalParts negative d).token 2 = (if negative then ['-'] else []) ++ reprFloat d := by
  unfold decimalParts reprFloat
  split
  next => exact token_scientificParts negative d 2
  next =>
    split
    next => exact token_leadingParts negative d 2
    next =>
      split
      next => exact token_splitParts negative d 2
      next => simp [NumberParts.token, NumberParts.fractionText, NumberParts.exponentPart]

theorem isDigit_zero : ∀ c ∈ ['0'], c.isDigit = true := by
  intro c hc
  rw [List.mem_singleton.1 hc]
  rfl

theorem isDigit_append_zeros {digits : List Char} (h : ∀ c ∈ digits, c.isDigit = true) {m n : ℕ} :
    ∀ c ∈ Decimal.zeros m ++ digits ++ Decimal.zeros n, c.isDigit = true := by
  intro c hc
  rcases List.mem_append.1 hc with hc | hc
  · rcases List.mem_append.1 hc with hc | hc
    · rw [List.eq_of_mem_replicate hc]
      rfl
    · exact h c hc
  · rw [List.eq_of_mem_replicate hc]
    rfl

/-- The first digits of a decimal are an integer part. -/
theorem take_digits {n : ℕ} (hn : 0 < n) :
    d.digits.take n ≠ [] ∧ (d.digits.take n).head? ≠ some '0' := by
  have hlength : 0 < d.digits.length := List.length_pos_of_ne_nil d.ne_nil
  refine ⟨?_, ?_⟩
  · rw [ne_eq, List.take_eq_nil_iff, not_or]
    exact ⟨by omega, d.ne_nil⟩
  · rw [List.head?_take, if_neg (by omega)]
    exact d.head_ne

theorem written_scientificParts : (scientificParts negative d).Written := by
  have htake := take_digits d one_pos
  refine ⟨fun c hc => d.isDigit c (List.mem_of_mem_take hc), htake.1, .inr htake.2, ?_⟩
  intro digits hdigits
  unfold scientificParts at hdigits
  by_cases hnil : d.digits.drop 1 = []
  · rw [if_pos hnil] at hdigits
    cases hdigits
  · rw [if_neg hnil] at hdigits
    cases hdigits
    exact ⟨hnil, fun c hc => d.isDigit c (List.mem_of_mem_drop hc)⟩

theorem written_leadingParts : (leadingParts negative d).Written := by
  refine ⟨isDigit_zero, List.cons_ne_nil _ _, .inl rfl, ?_⟩
  intro digits hdigits
  cases hdigits
  refine ⟨fun hnil => d.ne_nil (List.append_eq_nil_iff.1 hnil).2, fun c hc => ?_⟩
  refine isDigit_append_zeros d.isDigit (m := (-d.point).toNat) (n := 0) c ?_
  simpa [Decimal.zeros] using hc

theorem written_splitParts (hpos : 0 < d.point) (hlt : d.point < d.digits.length) :
    (splitParts negative d).Written := by
  have hn : 0 < d.point.toNat := by omega
  have htake := take_digits d hn
  refine ⟨fun c hc => d.isDigit c (List.mem_of_mem_take hc), htake.1, .inr htake.2, ?_⟩
  intro digits hdigits
  cases hdigits
  refine ⟨?_, fun c hc => d.isDigit c (List.mem_of_mem_drop hc)⟩
  rw [ne_eq, List.drop_eq_nil_iff]
  omega

/-- Digits and zeros up to the point are an integer part. -/
theorem written_trailingZeros {fraction : Option (List Char)}
    (h : ∀ digits ∈ fraction, digits ≠ [] ∧ ∀ c ∈ digits, c.isDigit = true) :
    (NumberParts.mk negative (trailingZeros d.digits d.point) fraction none).Written := by
  refine ⟨fun c hc => ?_, ?_, .inr ?_, h⟩
  · refine isDigit_append_zeros d.isDigit (m := 0) (n := (d.point - d.digits.length).toNat) c ?_
    simpa [trailingZeros, Decimal.zeros] using hc
  · exact fun hnil => d.ne_nil (List.append_eq_nil_iff.1 hnil).1
  · rw [trailingZeros, List.head?_append_of_ne_nil _ d.ne_nil]
    exact d.head_ne

theorem written_decimalParts : (decimalParts negative d).Written := by
  unfold decimalParts
  split
  next => exact written_scientificParts negative d
  next =>
    split
    next => exact written_leadingParts negative d
    next hpos =>
      split
      next hlt => exact written_splitParts negative d (by omega) hlt
      next =>
        refine written_trailingZeros negative d fun digits hdigits => ?_
        cases hdigits
        exact ⟨List.cons_ne_nil _ _, isDigit_zero⟩

/-- A number with a fraction or an exponent is read as the nearest `float`. -/
theorem parseNumber_eq {parts : NumberParts} {q : ℚ} {x : Magnitude}
    (h : parts.fraction ≠ none ∨ parts.exponent ≠ none)
    (hvalue : (Nat.ofDigitChars 10 (parts.integer ++ parts.fraction.getD []) 0 : ℚ) *
      10 ^ (parts.exponent.getD 0 - (parts.fraction.getD []).length) = q)
    (hq : Magnitude.nearest q = some x) :
    parseNumber parts = .ok (.float (.finite parts.negative x)) := by
  rw [Nat.ofDigitChars_append] at hvalue
  unfold parseNumber
  dsimp only
  split
  next hfraction hexponent => exact absurd (h.resolve_left (not_not.2 hfraction)) (not_not.2 hexponent)
  next =>
    rw [hvalue, hq]
    rfl

variable {d} {x : Magnitude}

theorem parseNumber_scientificParts (h : Magnitude.nearest d.value = some x) :
    parseNumber (scientificParts negative d) = .ok (.float (.finite negative x)) := by
  have hlength : 0 < d.digits.length := List.length_pos_of_ne_nil d.ne_nil
  have hfraction : (if d.digits.drop 1 = [] then none else some (d.digits.drop 1)).getD [] =
      d.digits.drop 1 := by
    split
    next hnil => rw [hnil]; rfl
    next => rfl
  refine parseNumber_eq (.inr (Option.some_ne_none _)) ?_ h
  simp only [scientificParts, hfraction, List.take_append_drop, Option.getD_some, List.length_drop,
    Decimal.value]
  congr 2
  omega

theorem parseNumber_leadingParts (hle : d.point ≤ 0) (h : Magnitude.nearest d.value = some x) :
    parseNumber (leadingParts negative d) = .ok (.float (.finite negative x)) := by
  have hdigits : Nat.ofDigitChars 10 (['0'] ++ (Decimal.zeros (-d.point).toNat ++ d.digits)) 0 =
      Nat.ofDigitChars 10 d.digits 0 := by
    rw [Nat.ofDigitChars_append, Nat.ofDigitChars_append, Decimal.zeros, Nat.ofDigitChars_replicate_zero]
    rfl
  refine parseNumber_eq (.inl (Option.some_ne_none _)) ?_ h
  simp only [leadingParts, Option.getD_some, Option.getD_none, hdigits, Decimal.value]
  congr 2
  simp only [List.length_append, Decimal.zeros, List.length_replicate]
  omega

theorem parseNumber_splitParts (hpos : 0 < d.point) (hlt : d.point < d.digits.length)
    (h : Magnitude.nearest d.value = some x) :
    parseNumber (splitParts negative d) = .ok (.float (.finite negative x)) := by
  refine parseNumber_eq (.inl (Option.some_ne_none _)) ?_ h
  simp only [splitParts, Option.getD_some, Option.getD_none, List.take_append_drop, List.length_drop,
    Decimal.value]
  congr 2
  omega

/-- The integer that digits and zeros up to the point spell. -/
theorem ofDigitChars_trailingZeros (hge : d.digits.length ≤ d.point) :
    (Nat.ofDigitChars 10 (trailingZeros d.digits d.point) 0 : ℚ) = d.value := by
  obtain ⟨k, hk⟩ := Int.eq_ofNat_of_zero_le (show 0 ≤ d.point - d.digits.length by omega)
  rw [Decimal.value, trailingZeros, hk, Nat.ofDigitChars_append, Decimal.zeros, Int.toNat_natCast,
    Nat.ofDigitChars_replicate_zero]
  push_cast
  rw [zpow_natCast, mul_comm]

theorem parseNumber_decimalParts (h : Magnitude.nearest d.value = some x) :
    parseNumber (decimalParts negative d) = .ok (.float (.finite negative x)) := by
  unfold decimalParts
  split
  next => exact parseNumber_scientificParts negative h
  next =>
    split
    next hle => exact parseNumber_leadingParts negative hle h
    next hpos =>
      split
      next hlt => exact parseNumber_splitParts negative (by omega) hlt h
      next hge =>
        refine parseNumber_eq (.inl (Option.some_ne_none _)) ?_ h
        have hvalue := ofDigitChars_trailingZeros (d := d) (by omega)
        simp only [Option.getD_some, Option.getD_none, Nat.ofDigitChars_append, Nat.ofDigitChars_cons,
          Nat.ofDigitChars_nil]
        rw [← hvalue]
        norm_num
        ring

end Decimal

theorem exists_parts_float (negative : Bool) (x : Magnitude) :
    ∃ parts : NumberParts, parts.token 2 = floatRepr negative x ∧ parts.Written ∧
      parseNumber parts = .ok (.float (.finite negative x)) := by
  by_cases h : x.mantissa ≠ 0
  · refine ⟨decimalParts negative (x.shortest h), ?_, written_decimalParts negative _,
      parseNumber_decimalParts negative (Magnitude.nearest_shortest h)⟩
    rw [token_decimalParts, floatRepr, dif_pos h]
  · refine ⟨⟨negative, ['0'], some ['0'], none⟩, ?_, ?_, ?_⟩
    · rw [floatRepr, dif_neg h]
      rfl
    · refine ⟨isDigit_zero, List.cons_ne_nil _ _, .inl rfl, fun digits hdigits => ?_⟩
      cases hdigits
      exact ⟨List.cons_ne_nil _ _, isDigit_zero⟩
    · have hvalue : x.value = 0 := x.value_eq_zero.2 (not_not.1 h)
      refine parseNumber_eq (q := x.value) (.inl (Option.some_ne_none _)) ?_ x.nearest_value
      rw [hvalue]
      norm_num [Nat.ofDigitChars]

/-! ## Values are read back -/

/-- Items may be exchanged for reordered ones, all at once. -/
theorem Reordered.sequence (pre : List Value) (items : List (Value × Value))
    (h : ∀ p ∈ items, Reordered p.1 p.2) :
    Reordered (.sequence (pre ++ items.map Prod.fst)) (.sequence (pre ++ items.map Prod.snd)) := by
  induction items generalizing pre with
  | nil => exact .refl _
  | cons p items ih =>
    have hitem := Reordered.item pre (items.map Prod.fst) (h p List.mem_cons_self)
    have hrest := ih (pre ++ [p.2]) fun q hq => h q (List.mem_cons_of_mem _ hq)
    rw [List.append_assoc, List.append_assoc, List.singleton_append, List.singleton_append] at hrest
    exact hitem.trans hrest

theorem Reordered.mapping (pre : List (Key × Value)) (members : List (Key × Value × Value))
    (h : ∀ m ∈ members, Reordered m.2.1 m.2.2) :
    Reordered (.mapping (pre ++ members.map fun m => (m.1, m.2.1)))
      (.mapping (pre ++ members.map fun m => (m.1, m.2.2))) := by
  induction members generalizing pre with
  | nil => exact .refl _
  | cons m members ih =>
    have hitem := Reordered.member pre (members.map fun m => (m.1, m.2.1)) m.1 (h m List.mem_cons_self)
    have hrest := ih (pre ++ [(m.1, m.2.2)]) fun k hk => h k (List.mem_cons_of_mem _ hk)
    rw [List.append_assoc, List.append_assoc, List.singleton_append, List.singleton_append] at hrest
    exact hitem.trans hrest

/-- The text of a value is that of a tree which is read as the value, up to the order of members. -/
def WrittenAs (value : Value) (text : List Char) : Prop :=
  ∃ t w, text = render escape t ∧ ReadsAs t w ∧ Reordered value w

theorem encodeString_eq_ok {s : Str} {text : List Char} :
    encodeString s = .ok text ↔ ∃ chars, s = ofChars chars ∧ text = quoted escape chars := by
  unfold encodeString
  cases h : toChars s with
  | none =>
    refine iff_of_false (fun heq => by cases heq) ?_
    rintro ⟨chars, rfl, -⟩
    rw [toChars_ofChars] at h
    cases h
  | some chars =>
    obtain rfl := toChars_eq_some.1 h
    simp only [pure_eq_ok]
    constructor
    · rintro rfl
      exact ⟨chars, rfl, rfl⟩
    · rintro ⟨chars', heq, rfl⟩
      rw [ofChars_injective heq]

/-- The items of a sequence are written one after the other. -/
theorem exists_items {items : List Value} {texts : List (List Char)}
    (h : ∀ item ∈ items, ∀ text, dumps item = .ok text → WrittenAs item text)
    (htexts : (items.map dumps).mapM id = .ok texts) :
    ∃ read : List (Value × Tree × Value), read.map Prod.fst = items ∧
      texts = read.map (fun r => render escape r.2.1) ∧
      ∀ r ∈ read, ReadsAs r.2.1 r.2.2 ∧ Reordered r.1 r.2.2 := by
  rw [mapM_eq_ok] at htexts
  induction items generalizing texts with
  | nil =>
    cases htexts
    exact ⟨[], rfl, rfl, fun _ h => absurd h List.not_mem_nil⟩
  | cons item items ih =>
    obtain ⟨text, rest, htext, hrest, rfl⟩ := List.forall₂_cons_left_iff.1 htexts
    obtain ⟨t, w, rfl, hreads, hreordered⟩ := h item List.mem_cons_self text htext
    obtain ⟨read, rfl, rfl, hread⟩ := ih (fun v hv => h v (List.mem_cons_of_mem _ hv)) hrest
    refine ⟨(item, t, w) :: read, rfl, rfl, ?_⟩
    intro r hr
    rcases List.mem_cons.1 hr with rfl | hr
    · exact ⟨hreads, hreordered⟩
    · exact hread r hr

theorem dumpsNames_eq_ok {members : List (Key × Value)}
    {named : List (Str × Except DumpsError (List Char))}
    (h : dumpsNames (members.map fun m => (m.1, dumps m.2)) = .ok named) :
    ∃ items : List (Str × Value), members = items.map (fun m => (Key.name m.1, m.2)) ∧
      named = items.map fun m => (m.1, dumps m.2) := by
  induction members generalizing named with
  | nil =>
    cases h
    exact ⟨[], rfl, rfl⟩
  | cons m members ih =>
    obtain ⟨key, item⟩ := m
    cases key with
    | other typeName => cases h
    | name name =>
      simp only [List.map_cons, dumpsNames, bind_eq_ok, pure_eq_ok] at h
      obtain ⟨rest, hrest, rfl⟩ := h
      obtain ⟨items, rfl, rfl⟩ := ih hrest
      exact ⟨(name, item) :: items, rfl, rfl⟩

/-- A member that was written, with what it is read as. -/
structure ReadMember where
  name : List Char
  item : Value
  tree : Tree
  value : Value
  reads : ReadsAs tree value
  reordered : Reordered item value

theorem exists_members {members : List (Str × Value)} {texts : List (List Char)}
    (h : ∀ m ∈ members, ∀ text, dumps m.2 = .ok text → WrittenAs m.2 text)
    (htexts : (members.map fun m => (m.1, dumps m.2)).mapM (fun m => do
      let name ← encodeString m.1
      let text ← m.2
      pure (name ++ ':' :: text)) = .ok texts) :
    ∃ read : List ReadMember, members = read.map (fun r => (ofChars r.name, r.item)) ∧
      texts = read.map fun r => quoted escape r.name ++ ':' :: render escape r.tree := by
  rw [mapM_eq_ok] at htexts
  induction members generalizing texts with
  | nil =>
    cases htexts
    exact ⟨[], rfl, rfl⟩
  | cons m members ih =>
    obtain ⟨text, rest, htext, hrest, rfl⟩ := List.forall₂_cons_left_iff.1 htexts
    simp only [bind_eq_ok, pure_eq_ok, encodeString_eq_ok] at htext
    obtain ⟨_, ⟨chars, hchars, rfl⟩, itemText, hitem, rfl⟩ := htext
    obtain ⟨t, w, rfl, hreads, hreordered⟩ := h m List.mem_cons_self itemText hitem
    obtain ⟨read, rfl, rfl⟩ := ih (fun k hk => h k (List.mem_cons_of_mem _ hk)) hrest
    refine ⟨⟨chars, m.2, t, w, hreads, hreordered⟩ :: read, ?_, rfl⟩
    rw [List.map_cons, ← hchars]

theorem writtenAs_sequence {items : List Value} {text : List Char}
    (h : ∀ item ∈ items, ∀ text, dumps item = .ok text → WrittenAs item text)
    (htext : dumps (.sequence items) = .ok text) : WrittenAs (.sequence items) text := by
  simp only [dumps, dumpsItems_eq, bind_eq_ok, pure_eq_ok] at htext
  obtain ⟨texts, htexts, rfl⟩ := htext
  obtain ⟨read, rfl, rfl, hread⟩ := exists_items h htexts
  have hreads : ReadsAs (.array ((read.map fun r => r.2).map Prod.fst))
      (.sequence ((read.map fun r => r.2).map Prod.snd)) := by
    refine .array fun p hp => ?_
    obtain ⟨r, hr, rfl⟩ := List.mem_map.1 hp
    exact (hread r hr).1
  refine ⟨_, _, ?_, hreads, ?_⟩
  · rw [render, renderItems_eq, List.map_map, List.map_map]
    rfl
  · have hreordered := Reordered.sequence [] (read.map fun r => (r.1, r.2.2)) (by
      intro p hp
      obtain ⟨r, hr, rfl⟩ := List.mem_map.1 hp
      exact (hread r hr).2)
    simpa only [List.nil_append, List.map_map, Function.comp_def] using hreordered

theorem writtenAs_mapping {members : List (Key × Value)} {text : List Char}
    (hdistinct : (members.map Prod.fst).Nodup)
    (h : ∀ m ∈ members, ∀ text, dumps m.2 = .ok text → WrittenAs m.2 text)
    (htext : dumps (.mapping members) = .ok text) : WrittenAs (.mapping members) text := by
  simp only [dumps, dumpsMembers_eq, dumpsMapping, bind_eq_ok, pure_eq_ok] at htext
  obtain ⟨named, hnamed, texts, htexts, rfl⟩ := htext
  obtain ⟨items, rfl, rfl⟩ := dumpsNames_eq_ok hnamed
  have hsort : sortBy (fun m : Str × Except DumpsError (List Char) => codePoints m.1)
      (items.map fun m => (m.1, dumps m.2)) =
      (sortBy (fun m : Str × Value => codePoints m.1) items).map fun m => (m.1, dumps m.2) :=
    (map_sortBy _ items).symm
  rw [hsort] at htexts
  have hperm : (sortBy (fun m : Str × Value => codePoints m.1) items).Perm items := perm_sortBy items
  have hitems : ∀ m ∈ sortBy (fun m : Str × Value => codePoints m.1) items, ∀ text,
      dumps m.2 = .ok text → WrittenAs m.2 text := by
    intro m hm
    exact h (.name m.1, m.2) (List.mem_map.2 ⟨m, hperm.mem_iff.1 hm, rfl⟩)
  obtain ⟨read, hread, rfl⟩ := exists_members hitems htexts
  have hkeys : (items.map fun m : Str × Value => Key.name m.1).Nodup := by
    rwa [List.map_map] at hdistinct
  have hnodup : (read.map ReadMember.name).Nodup := by
    have hsorted := ((hperm.map fun m : Str × Value => Key.name m.1).nodup_iff).2 hkeys
    rw [hread, List.map_map] at hsorted
    exact List.Nodup.of_map (fun name => Key.name (ofChars name)) (by rwa [List.map_map])
  have hreads : ReadsAs (.object ((read.map fun r => (r.name, r.tree, r.value)).map fun m => (m.1, m.2.1)))
      (.mapping ((read.map fun r => (r.name, r.tree, r.value)).map fun m => withName (m.1, m.2.2))) := by
    refine .object (by rwa [List.map_map]) fun m hm => ?_
    obtain ⟨r, -, rfl⟩ := List.mem_map.1 hm
    exact r.reads
  refine ⟨_, _, ?_, hreads, ?_⟩
  · rw [render, renderMembers_eq, List.map_map, List.map_map]
    rfl
  · have hsorted : Reordered (.mapping (items.map fun m => (Key.name m.1, m.2)))
        (.mapping (read.map fun r => (Key.name (ofChars r.name), r.item))) := by
      refine .perm ?_
      have hmap := hperm.symm.map fun m : Str × Value => (Key.name m.1, m.2)
      rwa [hread, List.map_map] at hmap
    have hmembers := Reordered.mapping [] (read.map fun r =>
      (Key.name (ofChars r.name), r.item, r.value)) (by
        intro m hm
        obtain ⟨r, -, rfl⟩ := List.mem_map.1 hm
        exact r.reordered)
    simp only [List.nil_append, List.map_map, Function.comp_def] at hmembers
    rw [List.map_map]
    exact hsorted.trans hmembers

/-- What is written is read back, up to the order of members. -/
theorem writtenAs_dumps (value : Value) {text : List Char} (hdistinct : value.distinct = true)
    (h : dumps value = .ok text) : WrittenAs value text := by
  induction value using Value.induct generalizing text with
  | none =>
    cases h
    exact ⟨_, _, rfl, .null, .refl _⟩
  | bool b =>
    refine ⟨.bool b, .bool b, ?_, .bool b, .refl _⟩
    cases b <;> cases h <;> rfl
  | int n =>
    simp only [dumps, bind_eq_ok, require_eq_ok, exists_unit, pure_eq_ok] at h
    obtain ⟨hlength, rfl⟩ := h
    exact ⟨.number ((intParts n).token 2), _, (token_intParts n).symm,
      .number (written_intParts n) (parseNumber_intParts hlength), .refl _⟩
  | float x =>
    cases x with
    | finite negative x =>
      cases h
      obtain ⟨parts, htoken, hwritten, hparse⟩ := exists_parts_float negative x
      exact ⟨.number (parts.token 2), _, htoken.symm, .number hwritten hparse, .refl _⟩
    | infinite negative => cases h
    | nan => cases h
  | str s =>
    obtain ⟨chars, rfl, rfl⟩ := encodeString_eq_ok.1 h
    exact ⟨_, _, rfl, .string chars, .refl _⟩
  | binary => cases h
  | other typeName => cases h
  | mapping members ih =>
    simp only [Value.distinct, Bool.and_eq_true, decide_eq_true_eq, distinctMembers_iff] at hdistinct
    exact writtenAs_mapping hdistinct.1 (fun m hm text htext => ih m hm (hdistinct.2 m hm) htext) h
  | sequence items ih =>
    simp only [Value.distinct, distinctItems_iff] at hdistinct
    exact writtenAs_sequence (fun item hitem text htext => ih item hitem (hdistinct item hitem) htext) h

theorem loads_dumps {value : Value} {text : List Char} (hdistinct : value.distinct = true)
    (h : dumps value = .ok text) : ∃ w, loads text = .ok w ∧ Reordered value w := by
  obtain ⟨t, w, rfl, hreads, hreordered⟩ := writtenAs_dumps value hdistinct h
  exact ⟨w, loads_render hreads, hreordered⟩

end OmniviaCore.CanonicalJson
