import OmniviaCore.Lib.Binary64

/-!
# Decimals and shortest decimals

A `Decimal` is a positive number `0.d₁d₂… * 10 ^ point` with no zero digit at either end, so a
decimal has one form. `shortest` searches, from one digit on, for the decimal nearest to a magnitude
among those of its length that read back as it, and ends at the magnitude's exact value if no shorter
one does. The shortest decimal determines the magnitude (`shortest_injective`).
-/

namespace OmniviaCore.Lib

/-- A positive decimal, `0.digits * 10 ^ point`. -/
structure Decimal where
  digits : List Char
  point : ℤ
  isDigit : ∀ c ∈ digits, c.isDigit = true
  ne_nil : digits ≠ []
  head_ne : digits.head? ≠ some '0'
  last_ne : digits.getLast? ≠ some '0'

namespace Decimal

def value (d : Decimal) : ℚ := Nat.ofDigitChars 10 d.digits 0 * 10 ^ (d.point - d.digits.length)

/-! ## The digits of a number -/

theorem toDigits_head_ne {n : ℕ} (h : n ≠ 0) : (Nat.toDigits 10 n).head? ≠ some '0' := by
  induction n using Nat.strong_induction_on with
  | _ n ih =>
    by_cases hlt : n < 10
    · rw [Nat.toDigits_of_lt_base hlt, List.head?_cons, ne_eq, Option.some.injEq,
        Nat.digitChar_eq_zero]
      exact h
    · rw [Nat.toDigits_of_base_le (by decide) (by omega),
        List.head?_append_of_ne_nil _ Nat.toDigits_ne_nil]
      exact ih (n / 10) (by omega) (by omega)

def zeros (n : ℕ) : List Char := List.replicate n '0'

/-- The digits of a number without the zeros at their end. -/
def significantDigits (n : ℕ) : List Char := (Nat.toDigits 10 n).rdropWhile (· == '0')

theorem toDigits_eq_significantDigits (n : ℕ) :
    ∃ k, Nat.toDigits 10 n = significantDigits n ++ zeros k := by
  refine ⟨((Nat.toDigits 10 n).rtakeWhile (· == '0')).length, ?_⟩
  have hzeros : (Nat.toDigits 10 n).rtakeWhile (· == '0') =
      zeros ((Nat.toDigits 10 n).rtakeWhile (· == '0')).length := by
    refine List.eq_replicate_of_mem fun c hc => ?_
    simpa using List.mem_rtakeWhile_imp hc
  rw [← hzeros]
  exact (List.rdropWhile_append_rtakeWhile ..).symm

theorem significantDigits_ne_nil {n : ℕ} (h : n ≠ 0) : significantDigits n ≠ [] := by
  intro hnil
  obtain ⟨k, hk⟩ := toDigits_eq_significantDigits n
  rw [hnil, List.nil_append] at hk
  cases k with
  | zero => exact Nat.toDigits_ne_nil hk
  | succ k => exact toDigits_head_ne h (by rw [hk]; rfl)

/-- `n * 10 ^ scale`. -/
def ofScaled (n : ℕ) (scale : ℤ) (h : n ≠ 0) : Decimal where
  digits := significantDigits n
  point := (Nat.toDigits 10 n).length + scale
  isDigit := fun c hc => by
    have hmem : c ∈ Nat.toDigits 10 n := (List.rdropWhile_prefix _ _).subset hc
    exact Nat.isDigit_of_mem_toDigits (by decide) (by decide) hmem
  ne_nil := significantDigits_ne_nil h
  head_ne := by
    obtain ⟨k, hk⟩ := toDigits_eq_significantDigits n
    have hhead := toDigits_head_ne h
    rwa [hk, List.head?_append_of_ne_nil _ (significantDigits_ne_nil h)] at hhead
  last_ne := by
    have hlast := List.rdropWhile_last_not (· == '0') (Nat.toDigits 10 n) (significantDigits_ne_nil h)
    rw [List.getLast?_eq_getLast_of_ne_nil (significantDigits_ne_nil h), ne_eq, Option.some.injEq]
    exact fun hzero => hlast (beq_iff_eq.2 hzero)

theorem value_ofScaled {n : ℕ} {scale : ℤ} (h : n ≠ 0) :
    (ofScaled n scale h).value = n * 10 ^ scale := by
  obtain ⟨k, hk⟩ := toDigits_eq_significantDigits n
  have hvalue : n = 10 ^ k * Nat.ofDigitChars 10 (significantDigits n) 0 := by
    conv_lhs => rw [← Nat.ofDigitChars_ten_toDigits (n := n), hk]
    rw [Nat.ofDigitChars_append]
    exact Nat.ofDigitChars_replicate_zero
  have hlength : ((Nat.toDigits 10 n).length : ℤ) = (significantDigits n).length + k := by
    rw [hk, List.length_append, zeros, List.length_replicate]
    push_cast
    rfl
  have hscale : (ofScaled n scale h).point - (significantDigits n).length = k + scale := by
    simp only [ofScaled, hlength]
    ring
  conv_rhs => rw [hvalue]
  rw [value, show (ofScaled n scale h).digits = significantDigits n from rfl, hscale,
    zpow_add₀ (by norm_num), zpow_natCast]
  push_cast
  ring

end Decimal

/-! ## The shortest decimal of a magnitude -/

namespace Magnitude

/-- The value of a magnitude as a natural number scaled by a power of ten. -/
def exactScaled (x : Magnitude) : ℕ × ℤ :=
  if 0 ≤ x.exponent then (x.mantissa * 2 ^ x.exponent.toNat, 0)
  else (x.mantissa * 5 ^ (-x.exponent).toNat, x.exponent)

/-- A decimal that reads back as the magnitude. -/
def readsBack (x : Magnitude) (n : ℕ) (scale : ℤ) : Bool := nearest (n * 10 ^ scale) = some x

/-- The nearest decimal that reads back, among those that drop `drop` digits of the exact value or
fewer. -/
def shortestFrom (x : Magnitude) (exact : ℕ) (scale : ℤ) : ℕ → ℕ × ℤ
  | 0 => (exact, scale)
  | drop + 1 =>
    let unit := 10 ^ (drop + 1)
    let below := exact / unit
    let lower := x.readsBack below (scale + (drop + 1))
    let upper := x.readsBack (below + 1) (scale + (drop + 1))
    let twice := 2 * (exact % unit)
    if lower ∧ (¬ upper ∨ twice < unit ∨ (twice = unit ∧ below % 2 = 0)) then
      (below, scale + (drop + 1))
    else if upper then (below + 1, scale + (drop + 1))
    else shortestFrom x exact scale drop

/-- The shortest decimal that reads back, as a natural number and a power of ten. -/
def shortestScaled (x : Magnitude) : ℕ × ℤ :=
  let (exact, scale) := x.exactScaled
  x.shortestFrom exact scale ((Nat.toDigits 10 exact).length - 1)

theorem value_exactScaled (x : Magnitude) :
    (x.exactScaled.1 : ℚ) * 10 ^ x.exactScaled.2 = x.value := by
  unfold exactScaled value
  split
  next h =>
    obtain ⟨k, hk⟩ := Int.eq_ofNat_of_zero_le h
    rw [hk]
    simp
  next h =>
    obtain ⟨k, hk⟩ := Int.eq_ofNat_of_zero_le (Int.neg_nonneg.2 (Int.not_le.1 h).le)
    have hexponent : x.exponent = -(k : ℤ) := by omega
    rw [hexponent, neg_neg, Int.toNat_natCast, zpow_neg, zpow_neg, zpow_natCast, zpow_natCast]
    push_cast
    rw [show (10 : ℚ) = 2 * 5 by norm_num, mul_pow]
    field_simp

theorem readsBack_exactScaled (x : Magnitude) :
    nearest (x.exactScaled.1 * 10 ^ x.exactScaled.2) = some x := by
  rw [value_exactScaled, nearest_value]

theorem nearest_shortestFrom {x : Magnitude} {exact : ℕ} {scale : ℤ}
    (h : nearest (exact * 10 ^ scale) = some x) (drop : ℕ) :
    nearest ((x.shortestFrom exact scale drop).1 * 10 ^ (x.shortestFrom exact scale drop).2) =
      some x := by
  induction drop with
  | zero => exact h
  | succ drop ih =>
    simp only [shortestFrom]
    split
    next hlower => exact of_decide_eq_true hlower.1
    next =>
      split
      next hupper => exact of_decide_eq_true hupper
      next => exact ih

theorem nearest_shortestScaled (x : Magnitude) :
    nearest (x.shortestScaled.1 * 10 ^ x.shortestScaled.2) = some x :=
  nearest_shortestFrom (readsBack_exactScaled x) _

theorem shortestScaled_ne_zero {x : Magnitude} (h : x.mantissa ≠ 0) : x.shortestScaled.1 ≠ 0 := by
  intro hzero
  have hback := nearest_shortestScaled x
  rw [hzero, Nat.cast_zero, zero_mul, show (0 : ℚ) = zero.value by simp [value, zero],
    nearest_value] at hback
  obtain rfl := Option.some.inj hback
  exact h rfl

/-- The shortest decimal of a magnitude that is not zero. -/
def shortest (x : Magnitude) (h : x.mantissa ≠ 0) : Decimal :=
  .ofScaled x.shortestScaled.1 x.shortestScaled.2 (shortestScaled_ne_zero h)

theorem nearest_shortest {x : Magnitude} (h : x.mantissa ≠ 0) :
    nearest (x.shortest h).value = some x := by
  rw [shortest, Decimal.value_ofScaled, nearest_shortestScaled]

theorem shortest_injective {x y : Magnitude} (hx : x.mantissa ≠ 0) (hy : y.mantissa ≠ 0)
    (hdigits : (x.shortest hx).digits = (y.shortest hy).digits)
    (hpoint : (x.shortest hx).point = (y.shortest hy).point) : x = y := by
  have hvalue : (x.shortest hx).value = (y.shortest hy).value := by
    rw [Decimal.value, Decimal.value, hdigits, hpoint]
  rw [← Option.some.injEq, ← nearest_shortest hx, ← nearest_shortest hy, hvalue]

end Magnitude

end OmniviaCore.Lib
