import OmniviaCore.CanonicalJson.Values
import OmniviaCore.Lib.Check
import OmniviaCore.Lib.Decimal
import OmniviaCore.Lib.JsonText

/-!
# Numbers

`serialize_number` and what it calls. The shortest digits are those of Python's `repr`, taken apart
again by `_shortest_decimal`; their placement is ECMAScript's. Two numbers have one text exactly when
they have one value (`signedText_eq_iff`).
-/

namespace OmniviaCore.CanonicalJson

open Lib

/-! ## Text of digits -/

/-- `str.partition`: what is before the separator, and what is after it. -/
def partitionAt (separator : Char) (text : List Char) : List Char × List Char :=
  (text.takeWhile (· != separator), (text.dropWhile (· != separator)).drop 1)

/-- `int` of the text of an exponent. -/
def intOfExponent : List Char → ℤ
  | '+' :: digits => Nat.ofDigitChars 10 digits 0
  | '-' :: digits => -(Nat.ofDigitChars 10 digits 0 : ℤ)
  | digits => Nat.ofDigitChars 10 digits 0

/-- The sign of an exponent and its digits, at least `width` of them. -/
def exponentText (width : ℕ) (exponent : ℤ) : List Char :=
  let digits := Nat.toDigits 10 exponent.natAbs
  (if 0 ≤ exponent then '+' else '-') :: (Decimal.zeros (width - digits.length) ++ digits)

/-- One digit, and the others after a point if there are others. -/
def scientific (digits : List Char) : List Char :=
  match digits with
  | [] => []
  | [digit] => [digit]
  | digit :: rest => digit :: '.' :: rest

/-- `0.`, zeros and the digits. -/
def leadingZeros (digits : List Char) (point : ℤ) : List Char :=
  '0' :: '.' :: (Decimal.zeros (-point).toNat ++ digits)

def splitAtPoint (digits : List Char) (point : ℤ) : List Char :=
  digits.take point.toNat ++ '.' :: digits.drop point.toNat

def trailingZeros (digits : List Char) (point : ℤ) : List Char :=
  digits ++ Decimal.zeros (point - digits.length).toNat

/-- `repr` of a positive `float`. -/
def reprFloat (d : Decimal) : List Char :=
  if d.point ≤ -4 ∨ 16 < d.point then
    scientific d.digits ++ 'e' :: exponentText 2 (d.point - 1)
  else if d.point ≤ 0 then leadingZeros d.digits d.point
  else if d.point < d.digits.length then splitAtPoint d.digits d.point
  else trailingZeros d.digits d.point ++ ['.', '0']

/-- The body of `_shortest_decimal`: the digits of a number's text, with no zero at either end, and
the position of the point relative to them. -/
def takeApart (text : List Char) : List Char × ℤ :=
  let (mantissa, exponentDigits) := partitionAt 'e' text
  let exponent := if exponentDigits = [] then 0 else intOfExponent exponentDigits
  let (integerPart, fractionPart) := partitionAt '.' mantissa
  let digits := integerPart ++ fractionPart
  let scale := exponent - fractionPart.length
  let significant := digits.dropWhile (· == '0')
  let trimmed := significant.rdropWhile (· == '0')
  (trimmed, trimmed.length + (scale + (significant.length - trimmed.length)))

/-- `_shortest_decimal`. -/
def shortestDecimal (x : Magnitude) (h : x.mantissa ≠ 0) : List Char × ℤ :=
  takeApart (reprFloat (x.shortest h))

/-! ## `serialize_number` -/

/-- `_require_binary64`: the number, as its sign and magnitude. -/
def requireBinary64 (path : Str) : Value → Except Raised (Bool × Magnitude)
  | .bool _ => throw (.contract (.booleanNumber path))
  | .int n =>
    match Magnitude.nearest n.natAbs with
    | none =>
      if MAX_STR_DIGITS < (Nat.toDigits 10 n.natAbs).length then throw .valueError
      else throw (.contract (.notFinite path))
    | some x => do
      require (⌊x.value⌋₊ = n.natAbs) (.contract (.inexactInteger path n))
      pure (decide (n < 0), x)
  | .float (.finite negative x) => pure (negative, x)
  | .float _ => throw (.contract (.notFinite path))
  | _ => throw (.contract (.expectedNumber path))

def place (digits : List Char) (point : ℤ) : List Char :=
  if digits.length ≤ point ∧ point ≤ 21 then trailingZeros digits point
  else if 0 < point ∧ point ≤ 21 then splitAtPoint digits point
  else if -6 < point ∧ point ≤ 0 then leadingZeros digits point
  else scientific digits ++ 'e' :: exponentText 0 (point - 1)

/-- `serialize_number` of a number that is not negative. -/
def serializeMagnitude (x : Magnitude) : List Char :=
  if h : x.mantissa ≠ 0 then
    let (digits, point) := shortestDecimal x h
    place digits point
  else ['0']

/-- The text of a number: zero has no sign. -/
def signedText (negative : Bool) (x : Magnitude) : List Char :=
  if negative ∧ x.mantissa ≠ 0 then '-' :: serializeMagnitude x else serializeMagnitude x

/-- `serialize_number`. -/
def serializeNumber (path : Str) (value : Value) : Except Raised (List Char) := do
  let (negative, x) ← requireBinary64 path value
  pure (signedText negative x)

/-! ## Taking a placement apart -/

section TakeApart

theorem partitionAt_of_notMem {separator : Char} {text : List Char} (h : separator ∉ text) :
    partitionAt separator text = (text, []) := by
  have hall : ∀ c ∈ text, (c != separator) = true := by
    intro c hc
    simp only [bne_iff_ne, ne_eq]
    rintro rfl
    exact h hc
  rw [partitionAt, List.takeWhile_eq_self_iff.2 hall, List.dropWhile_eq_nil_iff.2 hall]
  rfl

theorem partitionAt_append {separator : Char} {before after : List Char} (h : separator ∉ before) :
    partitionAt separator (before ++ separator :: after) = (before, after) := by
  have hall : ∀ c ∈ before, (c != separator) = true := by
    intro c hc
    simp only [bne_iff_ne, ne_eq]
    rintro rfl
    exact h hc
  rw [partitionAt, List.takeWhile_append_of_pos hall, List.dropWhile_append_of_pos hall]
  simp

theorem intOfExponent_exponentText (width : ℕ) (exponent : ℤ) :
    intOfExponent (exponentText width exponent) = exponent := by
  have hvalue : ∀ n k : ℕ, Nat.ofDigitChars 10 (Decimal.zeros k ++ Nat.toDigits 10 n) 0 = n := by
    intro n k
    rw [Nat.ofDigitChars_append, Decimal.zeros, Nat.ofDigitChars_replicate_zero, Nat.mul_zero,
      Nat.ofDigitChars_ten_toDigits]
  unfold exponentText
  split
  next h =>
    simp only [intOfExponent, hvalue]
    omega
  next h =>
    simp only [intOfExponent, hvalue]
    omega

variable (d : Decimal)

/-- The zeros around the digits of a decimal are stripped, and nothing else. -/
theorem strip_zeros (before after : ℕ) :
    (Decimal.zeros before ++ (d.digits ++ Decimal.zeros after)).dropWhile (· == '0') =
      d.digits ++ Decimal.zeros after ∧
    (d.digits ++ Decimal.zeros after).rdropWhile (· == '0') = d.digits := by
  constructor
  · rw [List.dropWhile_append_of_pos (by simp [Decimal.zeros])]
    cases hdigits : d.digits with
    | nil => exact absurd hdigits d.ne_nil
    | cons c rest =>
      have hhead := d.head_ne
      rw [hdigits, List.head?_cons, ne_eq, Option.some.injEq] at hhead
      simp [hhead]
  · induction after with
    | zero =>
      rw [Decimal.zeros, List.replicate_zero, List.append_nil, List.rdropWhile_eq_self_iff]
      intro hne hzero
      have hlast := d.last_ne
      rw [List.getLast?_eq_getLast_of_ne_nil hne, ne_eq, Option.some.injEq] at hlast
      exact hlast (beq_iff_eq.1 hzero)
    | succ after ih =>
      rw [Decimal.zeros, List.replicate_succ', ← List.append_assoc,
        List.rdropWhile_concat_pos _ _ _ (by rfl)]
      exact ih

variable {d}

theorem notMem_digits {c : Char} (h : c.isDigit = false) : c ∉ d.digits := by
  intro hc
  rw [d.isDigit c hc] at h
  cases h

theorem notMem_zeros {c : Char} (h : c ≠ '0') (n : ℕ) : c ∉ Decimal.zeros n := by
  intro hc
  exact h (List.eq_of_mem_replicate hc)

/-- A text whose parts are known is taken apart into the digits between the zeros. -/
theorem takeApart_eq {text mantissa exponentDigits integerPart fractionPart : List Char}
    (before after : ℕ) (hmantissa : partitionAt 'e' text = (mantissa, exponentDigits))
    (hparts : partitionAt '.' mantissa = (integerPart, fractionPart))
    (hdigits : integerPart ++ fractionPart =
      Decimal.zeros before ++ (d.digits ++ Decimal.zeros after))
    (hpoint : (if exponentDigits = [] then 0 else intOfExponent exponentDigits) -
      fractionPart.length + after + d.digits.length = d.point) :
    takeApart text = (d.digits, d.point) := by
  simp only [takeApart, hmantissa, hparts, hdigits, (strip_zeros d before after).1,
    (strip_zeros d before after).2, Prod.mk.injEq, true_and]
  rw [← hpoint, List.length_append, Decimal.zeros, List.length_replicate]
  push_cast
  ring

theorem takeApart_trailingZeros (h : d.digits.length ≤ d.point) :
    takeApart (trailingZeros d.digits d.point) = (d.digits, d.point) := by
  have hnotMem : ∀ c : Char, c.isDigit = false → c ≠ '0' → c ∉ trailingZeros d.digits d.point := by
    intro c hdigit hzero hc
    rcases List.mem_append.1 hc with hc | hc
    · exact notMem_digits hdigit hc
    · exact notMem_zeros hzero _ hc
  refine takeApart_eq 0 (d.point - d.digits.length).toNat
    (partitionAt_of_notMem (hnotMem 'e' rfl (by decide)))
    (partitionAt_of_notMem (hnotMem '.' rfl (by decide)))
    (by simp [trailingZeros, Decimal.zeros]) ?_
  simp only [if_true, List.length_nil]
  omega

theorem takeApart_trailingZeros_point (h : d.digits.length ≤ d.point) :
    takeApart (trailingZeros d.digits d.point ++ ['.', '0']) = (d.digits, d.point) := by
  have hnotMem : ∀ c : Char, c.isDigit = false → c ≠ '0' → c ∉ trailingZeros d.digits d.point := by
    intro c hdigit hzero hc
    rcases List.mem_append.1 hc with hc | hc
    · exact notMem_digits hdigit hc
    · exact notMem_zeros hzero _ hc
  have hexponent : 'e' ∉ trailingZeros d.digits d.point ++ ['.', '0'] := by
    simp [hnotMem 'e' rfl (by decide)]
  refine takeApart_eq 0 ((d.point - d.digits.length).toNat + 1) (partitionAt_of_notMem hexponent)
    (partitionAt_append (hnotMem '.' rfl (by decide)))
    (by simp [trailingZeros, Decimal.zeros, List.replicate_succ']) ?_
  simp only [if_true, List.length_singleton]
  omega

theorem takeApart_splitAtPoint (hpos : 0 < d.point) (hlt : d.point < d.digits.length) :
    takeApart (splitAtPoint d.digits d.point) = (d.digits, d.point) := by
  have hpoint : '.' ∉ d.digits.take d.point.toNat := fun hc =>
    notMem_digits (d := d) (c := '.') rfl (List.mem_of_mem_take hc)
  have hexponent : 'e' ∉ splitAtPoint d.digits d.point := by
    intro hc
    rcases List.mem_append.1 hc with hc | hc
    · exact notMem_digits (d := d) (c := 'e') rfl (List.mem_of_mem_take hc)
    · rcases List.mem_cons.1 hc with hc | hc
      · cases hc
      · exact notMem_digits (d := d) (c := 'e') rfl (List.mem_of_mem_drop hc)
  refine takeApart_eq 0 0 (partitionAt_of_notMem hexponent) (partitionAt_append hpoint)
    (by simp [Decimal.zeros]) ?_
  simp only [if_true, List.length_drop]
  omega

theorem takeApart_leadingZeros (h : d.point ≤ 0) :
    takeApart (leadingZeros d.digits d.point) = (d.digits, d.point) := by
  have hexponent : 'e' ∉ leadingZeros d.digits d.point := by
    simp [leadingZeros, notMem_zeros (c := 'e') (by decide), notMem_digits (d := d) (c := 'e') rfl]
  have hparts : partitionAt '.' (leadingZeros d.digits d.point) =
      (['0'], Decimal.zeros (-d.point).toNat ++ d.digits) :=
    partitionAt_append (by decide : '.' ∉ ['0'])
  refine takeApart_eq ((-d.point).toNat + 1) 0 (partitionAt_of_notMem hexponent) hparts
    (by simp [Decimal.zeros, List.replicate_succ]) ?_
  simp only [if_true, List.length_append, Decimal.zeros, List.length_replicate]
  omega

theorem takeApart_scientific (width : ℕ) :
    takeApart (scientific d.digits ++ 'e' :: exponentText width (d.point - 1)) =
      (d.digits, d.point) := by
  have hexponent : (if exponentText width (d.point - 1) = [] then 0 else
      intOfExponent (exponentText width (d.point - 1))) = d.point - 1 := by
    rw [if_neg (by simp [exponentText]), intOfExponent_exponentText]
  cases hdigits : d.digits with
  | nil => exact absurd hdigits d.ne_nil
  | cons digit rest =>
    have hnotMem : ∀ c : Char, c.isDigit = false → c ∉ digit :: rest := by
      intro c hc
      rw [← hdigits]
      exact notMem_digits hc
    rw [← hdigits]
    cases hrest : rest with
    | nil =>
      rw [hrest] at hnotMem hdigits
      have hmantissa : partitionAt 'e' (scientific d.digits ++ 'e' :: exponentText width
          (d.point - 1)) = ([digit], exponentText width (d.point - 1)) := by
        rw [hdigits]
        exact partitionAt_append (hnotMem 'e' rfl)
      refine takeApart_eq 0 0 hmantissa (partitionAt_of_notMem (hnotMem '.' rfl))
        (by simp [Decimal.zeros, hdigits]) ?_
      rw [hexponent, hdigits]
      simp
    | cons second others =>
      rw [hrest] at hnotMem hdigits
      have hmantissa : partitionAt 'e' (scientific d.digits ++ 'e' :: exponentText width
          (d.point - 1)) = (digit :: '.' :: second :: others, exponentText width (d.point - 1)) := by
        rw [hdigits]
        refine partitionAt_append ?_
        have he := hnotMem 'e' rfl
        change 'e' ∉ digit :: '.' :: second :: others
        rw [List.mem_cons, not_or] at he ⊢
        exact ⟨he.1, fun h => he.2 (List.mem_of_ne_of_mem (by decide) h)⟩
      have hparts : partitionAt '.' (digit :: '.' :: second :: others) =
          ([digit], second :: others) := by
        refine partitionAt_append (fun hc => hnotMem '.' rfl ?_ : '.' ∉ [digit])
        exact List.mem_cons.2 (.inl (List.mem_singleton.1 hc))
      refine takeApart_eq 0 0 hmantissa hparts (by simp [Decimal.zeros, hdigits]) ?_
      rw [hexponent, hdigits]
      simp only [List.length_cons]
      push_cast
      ring

variable (d)

/-- A placement is taken apart into the digits and the point it was made of. -/
theorem takeApart_place : takeApart (place d.digits d.point) = (d.digits, d.point) := by
  unfold place
  split
  next h => exact takeApart_trailingZeros h.1
  next h =>
    split
    next hsplit => exact takeApart_splitAtPoint hsplit.1 (by omega)
    next =>
      split
      next hleading => exact takeApart_leadingZeros hleading.2
      next => exact takeApart_scientific 0

theorem takeApart_reprFloat : takeApart (reprFloat d) = (d.digits, d.point) := by
  unfold reprFloat
  split
  next => exact takeApart_scientific 2
  next =>
    split
    next h => exact takeApart_leadingZeros h
    next h =>
      split
      next hlt => exact takeApart_splitAtPoint (by omega) hlt
      next hle => exact takeApart_trailingZeros_point (by omega)

end TakeApart

/-! ## The text of a number -/

theorem shortestDecimal_eq {x : Magnitude} (h : x.mantissa ≠ 0) :
    shortestDecimal x h = ((x.shortest h).digits, (x.shortest h).point) :=
  takeApart_reprFloat _

theorem serializeMagnitude_eq {x : Magnitude} (h : x.mantissa ≠ 0) :
    serializeMagnitude x = place (x.shortest h).digits (x.shortest h).point := by
  rw [serializeMagnitude, dif_pos h, shortestDecimal_eq]

theorem isNumberChar_of_isDigit {c : Char} (h : c.isDigit = true) : Tree.isNumberChar c = true := by
  simp [Tree.isNumberChar, h]

theorem isNumberChar_zeros {n : ℕ} : ∀ c ∈ Decimal.zeros n, Tree.isNumberChar c = true := by
  intro c hc
  rw [List.eq_of_mem_replicate hc]
  rfl

theorem isNumberChar_exponentText {width : ℕ} {exponent : ℤ} :
    ∀ c ∈ exponentText width exponent, Tree.isNumberChar c = true := by
  intro c hc
  simp only [exponentText, List.mem_cons, List.mem_append] at hc
  rcases hc with hc | hc | hc
  · split at hc
    next => rw [hc]; rfl
    next => rw [hc]; rfl
  · exact isNumberChar_zeros c hc
  · exact isNumberChar_of_isDigit (Nat.isDigit_of_mem_toDigits (by decide) (by decide) hc)

theorem mem_scientific {digits : List Char} {c : Char} (h : c ∈ scientific digits) :
    c ∈ digits ∨ c = '.' := by
  unfold scientific at h
  split at h
  next => exact .inl h
  next => exact .inl h
  next digit rest _ =>
    simp only [List.mem_cons] at h ⊢
    tauto

theorem isNumberChar_place (d : Decimal) :
    ∀ c ∈ place d.digits d.point, Tree.isNumberChar c = true := by
  have hdigits : ∀ c ∈ d.digits, Tree.isNumberChar c = true := fun c hc =>
    isNumberChar_of_isDigit (d.isDigit c hc)
  intro c hc
  unfold place at hc
  split at hc
  next =>
    rcases List.mem_append.1 hc with hc | hc
    · exact hdigits c hc
    · exact isNumberChar_zeros c hc
  next =>
    split at hc
    next =>
      rcases List.mem_append.1 hc with hc | hc
      · exact hdigits c (List.mem_of_mem_take hc)
      · rcases List.mem_cons.1 hc with rfl | hc
        · rfl
        · exact hdigits c (List.mem_of_mem_drop hc)
    next =>
      split at hc
      next =>
        simp only [leadingZeros, List.mem_cons, List.mem_append] at hc
        rcases hc with rfl | rfl | hc | hc
        · rfl
        · rfl
        · exact isNumberChar_zeros c hc
        · exact hdigits c hc
      next =>
        rcases List.mem_append.1 hc with hc | hc
        · rcases mem_scientific hc with hc | rfl
          · exact hdigits c hc
          · rfl
        · rcases List.mem_cons.1 hc with rfl | hc
          · rfl
          · exact isNumberChar_exponentText c hc

theorem head_place (d : Decimal) : ∃ c text, place d.digits d.point = c :: text ∧ c.isDigit = true := by
  cases hdigits : d.digits with
  | nil => exact absurd hdigits d.ne_nil
  | cons digit rest =>
    have hdigit : digit.isDigit = true := d.isDigit digit (by rw [hdigits]; exact List.mem_cons_self)
    unfold place
    split
    next => exact ⟨digit, _, rfl, hdigit⟩
    next =>
      split
      next h =>
        obtain ⟨k, hk⟩ : ∃ k, d.point.toNat = k + 1 := ⟨d.point.toNat - 1, by omega⟩
        exact ⟨digit, rest.take k ++ '.' :: (digit :: rest).drop (k + 1),
          by rw [splitAtPoint, hk, List.take_succ_cons, List.cons_append], hdigit⟩
      next =>
        split
        next => exact ⟨'0', _, rfl, rfl⟩
        next =>
          cases rest with
          | nil => exact ⟨digit, _, rfl, hdigit⟩
          | cons second others => exact ⟨digit, _, rfl, hdigit⟩

theorem head_serializeMagnitude (x : Magnitude) :
    ∃ c text, serializeMagnitude x = c :: text ∧ c.isDigit = true := by
  by_cases h : x.mantissa ≠ 0
  · rw [serializeMagnitude_eq h]
    exact head_place _
  · rw [serializeMagnitude, dif_neg h]
    exact ⟨'0', [], rfl, rfl⟩

theorem isNumberChar_serializeMagnitude (x : Magnitude) :
    ∀ c ∈ serializeMagnitude x, Tree.isNumberChar c = true := by
  by_cases h : x.mantissa ≠ 0
  · rw [serializeMagnitude_eq h]
    exact isNumberChar_place _
  · rw [serializeMagnitude, dif_neg h]
    intro c hc
    rw [List.mem_singleton.1 hc]
    rfl

theorem isNumberChar_signedText (negative : Bool) (x : Magnitude) :
    ∀ c ∈ signedText negative x, Tree.isNumberChar c = true := by
  intro c hc
  unfold signedText at hc
  split at hc
  next =>
    rcases List.mem_cons.1 hc with rfl | hc
    · rfl
    · exact isNumberChar_serializeMagnitude x c hc
  next => exact isNumberChar_serializeMagnitude x c hc

theorem signedText_ne_nil (negative : Bool) (x : Magnitude) : signedText negative x ≠ [] := by
  obtain ⟨c, text, htext, -⟩ := head_serializeMagnitude x
  unfold signedText
  split
  next => exact List.cons_ne_nil _ _
  next => rw [htext]; exact List.cons_ne_nil _ _

/-! ## One text for each value -/

theorem serializeMagnitude_ne_zero {x : Magnitude} (h : x.mantissa ≠ 0) :
    serializeMagnitude x ≠ ['0'] := by
  intro hzero
  rw [serializeMagnitude_eq h] at hzero
  have happart := takeApart_place (x.shortest h)
  rw [hzero] at happart
  have hdigits : ([] : List Char) = (x.shortest h).digits := congrArg Prod.fst happart
  exact (x.shortest h).ne_nil hdigits.symm

theorem serializeMagnitude_injective : Function.Injective serializeMagnitude := by
  intro x y hxy
  by_cases hx : x.mantissa ≠ 0
  · by_cases hy : y.mantissa ≠ 0
    · rw [serializeMagnitude_eq hx, serializeMagnitude_eq hy] at hxy
      have happart := congrArg takeApart hxy
      rw [takeApart_place, takeApart_place, Prod.mk.injEq] at happart
      exact Magnitude.shortest_injective hx hy happart.1 happart.2
    · have hzero : serializeMagnitude y = ['0'] := dif_neg hy
      exact absurd (hxy.trans hzero) (serializeMagnitude_ne_zero hx)
  · have hzero : serializeMagnitude x = ['0'] := dif_neg hx
    by_cases hy : y.mantissa ≠ 0
    · exact absurd (hxy.symm.trans hzero) (serializeMagnitude_ne_zero hy)
    · rw [not_not] at hx hy
      apply Magnitude.value_injective
      rw [Magnitude.value_eq_zero.2 hx, Magnitude.value_eq_zero.2 hy]

theorem cons_ne_serializeMagnitude (text : List Char) (x : Magnitude) :
    '-' :: text ≠ serializeMagnitude x := by
  intro h
  obtain ⟨c, rest, hrest, hdigit⟩ := head_serializeMagnitude x
  rw [hrest] at h
  rw [← List.head_eq_of_cons_eq h] at hdigit
  cases hdigit

/-- Two numbers have one text exactly when they have one value. -/
theorem signedText_eq_iff {b c : Bool} {x y : Magnitude} :
    signedText b x = signedText c y ↔ x.signedValue b = y.signedValue c := by
  have hx := x.value_nonneg
  have hy := y.value_nonneg
  have hxzero := x.value_eq_zero
  have hyzero := y.value_eq_zero
  have hinjective : serializeMagnitude x = serializeMagnitude y ↔ x.value = y.value :=
    serializeMagnitude_injective.eq_iff.trans Magnitude.value_injective.eq_iff.symm
  have hsigned : ∀ {b : Bool} {x : Magnitude}, ¬(b = true ∧ x.mantissa ≠ 0) →
      x.signedValue b = x.value := by
    intro b x h
    cases b with
    | false => rfl
    | true =>
      have hzero : x.value = 0 := x.value_eq_zero.2 (by simpa using h)
      rw [Magnitude.signedValue, if_pos rfl, hzero, neg_zero]
  unfold signedText
  split
  next h =>
    rw [h.1, Magnitude.signedValue, if_pos rfl]
    split
    next h' =>
      rw [h'.1, Magnitude.signedValue, if_pos rfl, List.cons.injEq, hinjective, neg_inj]
      exact and_iff_right rfl
    next h' =>
      rw [hsigned h']
      refine iff_of_false (cons_ne_serializeMagnitude _ _) fun heq => h.2 (hxzero.1 ?_)
      linarith
  next h =>
    rw [hsigned h]
    split
    next h' =>
      rw [h'.1, Magnitude.signedValue, if_pos rfl]
      refine iff_of_false (cons_ne_serializeMagnitude _ _).symm fun heq => h'.2 (hyzero.1 ?_)
      linarith
    next h' => rw [hsigned h', hinjective]

/-- An integer that is accepted is the value it converts to. -/
theorem requireBinary64_int {path : Str} {n : ℤ} {negative : Bool} {x : Magnitude}
    (h : requireBinary64 path (.int n) = .ok (negative, x)) : x.signedValue negative = n := by
  simp only [requireBinary64] at h
  split at h
  next => split at h <;> cases h
  next y hy =>
    simp only [bind_eq_ok, require_eq_ok, exists_unit, pure_eq_ok, Prod.mk.injEq] at h
    obtain ⟨hfloor, rfl, rfl⟩ := h
    obtain ⟨m, hm⟩ := Magnitude.nearest_natCast hy
    rw [hm, Nat.floor_natCast] at hfloor
    rw [Magnitude.signedValue, hm, hfloor]
    by_cases hneg : n < 0
    · have habs : -(n.natAbs : ℤ) = n := by omega
      rw [if_pos (decide_eq_true hneg), ← Int.cast_natCast, ← Int.cast_neg, habs]
    · have habs : (n.natAbs : ℤ) = n := by omega
      rw [if_neg (by simpa using hneg), ← Int.cast_natCast, habs]

end OmniviaCore.CanonicalJson
