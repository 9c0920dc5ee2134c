import Mathlib

/-!
# The binary64 format

A `Magnitude` is a nonnegative finite binary64: a mantissa and an exponent in the one form the
format has for each value, so `value` is injective (`Magnitude.value_injective`). `nearest` rounds a
rational to the nearest magnitude, ties to the even mantissa, and is `none` where the format
overflows.
-/

namespace OmniviaCore.Lib

/-- A nonnegative finite binary64: `mantissa * 2 ^ exponent`. -/
@[ext]
structure Magnitude where
  mantissa : ℕ
  exponent : ℤ
  mantissa_lt : mantissa < 2 ^ 53
  exponent_mem : -1074 ≤ exponent ∧ exponent ≤ 971
  normal : 2 ^ 52 ≤ mantissa ∨ exponent = -1074
  deriving DecidableEq

/-- A binary64. -/
inductive Binary64 where
  | finite (negative : Bool) (magnitude : Magnitude)
  | infinite (negative : Bool)
  | nan

namespace Magnitude

def value (x : Magnitude) : ℚ := x.mantissa * 2 ^ x.exponent

def signedValue (negative : Bool) (x : Magnitude) : ℚ := if negative then -x.value else x.value

def zero : Magnitude := ⟨0, -1074, by decide, by decide, .inr rfl⟩

/-- A mantissa and an exponent in the format's form. -/
def pack (mantissa : ℕ) (exponent : ℤ) : Option Magnitude :=
  if h : mantissa < 2 ^ 53 ∧ (-1074 ≤ exponent ∧ exponent ≤ 971) ∧
      (2 ^ 52 ≤ mantissa ∨ exponent = -1074) then
    some ⟨mantissa, exponent, h.1, h.2.1, h.2.2⟩
  else none

/-- The exponent of the last place of the format at a rational. -/
def exponentAt (q : ℚ) : ℤ := if q = 0 then -1074 else max (-1074) (Int.log 2 q - 52)

/-- The nearest natural number, ties to the even one. -/
def roundHalfEven (q : ℚ) : ℕ :=
  let below := ⌊q⌋₊
  let rest := q - below
  if rest < 1 / 2 then below
  else if 1 / 2 < rest then below + 1
  else if below % 2 = 0 then below
  else below + 1

/-- The nearest magnitude to a nonnegative rational, ties to the even mantissa. -/
def nearest (q : ℚ) : Option Magnitude :=
  let exponent := exponentAt q
  let mantissa := roundHalfEven (q * 2 ^ (-exponent))
  -- the mantissa may round up to the next power of two
  if mantissa = 2 ^ 53 then pack (2 ^ 52) (exponent + 1) else pack mantissa exponent

theorem pack_eq_some {mantissa : ℕ} {exponent : ℤ} {x : Magnitude} :
    pack mantissa exponent = some x ↔ x.mantissa = mantissa ∧ x.exponent = exponent := by
  unfold pack
  constructor
  · intro h
    split at h
    · obtain rfl := Option.some.inj h
      exact ⟨rfl, rfl⟩
    · cases h
  · rintro ⟨rfl, rfl⟩
    rw [dif_pos ⟨x.mantissa_lt, x.exponent_mem, x.normal⟩]

/-! ## Values -/

theorem value_nonneg (x : Magnitude) : 0 ≤ x.value := by
  unfold value
  positivity

theorem value_eq_zero {x : Magnitude} : x.value = 0 ↔ x.mantissa = 0 := by
  have hpow : (2 : ℚ) ^ x.exponent ≠ 0 := by positivity
  rw [value, mul_eq_zero, or_iff_left hpow, Nat.cast_eq_zero]

/-- The lower logarithm of a magnitude that is not zero. -/
theorem log_value {x : Magnitude} (h : x.mantissa ≠ 0) :
    Int.log 2 x.value = Nat.log 2 x.mantissa + x.exponent := by
  have hpos : 0 < x.value := lt_of_le_of_ne x.value_nonneg fun h0 => h (value_eq_zero.1 h0.symm)
  have hlow : (2 : ℚ) ^ Nat.log 2 x.mantissa ≤ x.mantissa :=
    mod_cast Nat.pow_log_le_self 2 h
  have hhigh : (x.mantissa : ℚ) < 2 ^ (Nat.log 2 x.mantissa + 1) :=
    mod_cast Nat.lt_pow_succ_log_self (by decide) x.mantissa
  have hpow : (0 : ℚ) < 2 ^ x.exponent := by positivity
  have hadd : ∀ k : ℕ, (2 : ℚ) ^ ((k : ℤ) + x.exponent) = 2 ^ k * 2 ^ x.exponent := by
    intro k
    rw [zpow_add₀ (by norm_num), zpow_natCast]
  apply le_antisymm
  · rw [← Int.lt_add_one_iff, ← Int.lt_zpow_iff_log_lt (by decide) hpos]
    have hstep := hadd (Nat.log 2 x.mantissa + 1)
    rw [show ((Nat.log 2 x.mantissa + 1 : ℕ) : ℤ) + x.exponent =
      Nat.log 2 x.mantissa + x.exponent + 1 by push_cast; ring] at hstep
    rw [Nat.cast_ofNat, hstep]
    exact mul_lt_mul_of_pos_right hhigh hpow
  · rw [← Int.zpow_le_iff_le_log (by decide) hpos, Nat.cast_ofNat, hadd]
    exact mul_le_mul_of_nonneg_right hlow hpow.le

theorem exponentAt_value (x : Magnitude) : exponentAt x.value = x.exponent := by
  obtain ⟨hmin, -⟩ := x.exponent_mem
  unfold exponentAt
  split
  next h =>
    rcases x.normal with hnormal | hexponent
    · rw [value_eq_zero.1 h] at hnormal
      exact absurd hnormal (by decide)
    · exact hexponent.symm
  next h =>
    have hmantissa : x.mantissa ≠ 0 := fun h0 => h (value_eq_zero.2 h0)
    have hlog : Nat.log 2 x.mantissa < 53 := Nat.log_lt_of_lt_pow hmantissa x.mantissa_lt
    rw [log_value hmantissa]
    rcases x.normal with hnormal | hexponent
    · have hge : 52 ≤ Nat.log 2 x.mantissa := Nat.le_log_of_pow_le (by decide) hnormal
      omega
    · omega

theorem value_mul_exponent (x : Magnitude) : x.value * 2 ^ (-x.exponent) = x.mantissa := by
  rw [value, mul_assoc, ← zpow_add₀ (by norm_num), add_neg_cancel, zpow_zero, mul_one]

theorem value_injective : Function.Injective value := by
  intro x y h
  have hexponent : x.exponent = y.exponent := by
    rw [← exponentAt_value x, h, exponentAt_value y]
  have hmantissa : (x.mantissa : ℚ) = y.mantissa := by
    rw [← value_mul_exponent x, h, hexponent, value_mul_exponent y]
  exact Magnitude.ext (Nat.cast_injective hmantissa) hexponent

/-! ## Rounding -/

theorem roundHalfEven_natCast (n : ℕ) : roundHalfEven n = n := by
  simp [roundHalfEven]

theorem nearest_value (x : Magnitude) : nearest x.value = some x := by
  have hlt := x.mantissa_lt
  simp only [nearest, exponentAt_value, value_mul_exponent, roundHalfEven_natCast]
  rw [if_neg (by omega), pack_eq_some]
  exact ⟨rfl, rfl⟩

/-- A scaled natural number is a natural number, when the scale is no fraction. -/
theorem exists_natCast_scaled (n : ℕ) {e : ℤ} (h : 0 ≤ e) : ∃ m : ℕ, (n : ℚ) * 2 ^ e = m := by
  obtain ⟨k, rfl⟩ := Int.eq_ofNat_of_zero_le h
  exact ⟨n * 2 ^ k, by rw [zpow_natCast]; push_cast; rfl⟩

/-- The nearest magnitude to a natural number is a natural number. -/
theorem nearest_natCast {n : ℕ} {x : Magnitude} (h : nearest n = some x) :
    ∃ m : ℕ, x.value = m := by
  by_cases hexponent : 0 ≤ x.exponent
  · exact exists_natCast_scaled x.mantissa hexponent
  · -- below 2 ^ 53 a natural number is scaled to a natural number and not rounded
    have hunscale : ∀ e : ℤ, (n : ℚ) * 2 ^ (-e) * 2 ^ e = n := by
      intro e
      rw [mul_assoc, ← zpow_add₀ (by norm_num), neg_add_cancel, zpow_zero, mul_one]
    have hnonneg : 0 ≤ -exponentAt (n : ℚ) := by
      simp only [nearest] at h
      split at h
      all_goals
        have hx := (pack_eq_some.1 h).2
        omega
    obtain ⟨m, hm⟩ := exists_natCast_scaled n hnonneg
    have hvalue : (m : ℚ) * 2 ^ exponentAt (n : ℚ) = n := by rw [← hm, hunscale]
    simp only [nearest, hm, roundHalfEven_natCast] at h
    refine ⟨n, ?_⟩
    split at h
    next hround =>
      obtain ⟨hmantissa, hx⟩ := pack_eq_some.1 h
      rw [← hvalue, hround, value, hmantissa, hx, zpow_add_one₀ (by norm_num)]
      norm_num
      ring
    next =>
      obtain ⟨hmantissa, hx⟩ := pack_eq_some.1 h
      rw [value, hmantissa, hx, hvalue]

end Magnitude

end OmniviaCore.Lib
