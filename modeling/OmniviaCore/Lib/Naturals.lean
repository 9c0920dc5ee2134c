import OmniviaCore.Lib.Decimal

/-!
# Natural numbers in binary64

A natural number below `2 ^ 53` is a magnitude of its own (`nearest_natCast_of_lt`), and no other
natural number is nearest to that magnitude (`value_of_nearest_natCast`). So the shortest decimal of
such a magnitude is the number itself (`toDigits_shortest`).
-/

namespace OmniviaCore.Lib

namespace Magnitude

/-! ## Nearest magnitudes -/

/-- The exponent of the last place at a natural number of the format. -/
theorem exponentAt_natCast {n : ℕ} (h : n ≠ 0) : exponentAt (n : ℚ) = Nat.log 2 n - 52 := by
  have hne : (n : ℚ) ≠ 0 := Nat.cast_ne_zero.2 h
  have hlog : Int.log 2 (n : ℚ) = Nat.log 2 n := Int.log_natCast 2 n
  rw [exponentAt, if_neg hne, hlog, max_eq_right]
  omega

/-- A natural number below `2 ^ 53` is a magnitude. -/
theorem nearest_natCast_of_lt {n : ℕ} (h : n < 2 ^ 53) :
    ∃ x, nearest (n : ℚ) = some x ∧ x.value = n := by
  by_cases hn : n = 0
  · subst hn
    have hzero : zero.value = ((0 : ℕ) : ℚ) := by simp [value, zero]
    exact ⟨zero, by rw [← hzero, nearest_value], hzero⟩
  · have hlog : Nat.log 2 n < 53 := Nat.log_lt_of_lt_pow hn h
    obtain ⟨k, hk⟩ : ∃ k, Nat.log 2 n + k = 52 := ⟨52 - Nat.log 2 n, by omega⟩
    have hlow : 2 ^ Nat.log 2 n ≤ n := Nat.pow_log_le_self 2 hn
    have hhigh : n < 2 ^ (Nat.log 2 n + 1) := Nat.lt_pow_succ_log_self (by decide) n
    have hmantissa : 2 ^ 52 ≤ n * 2 ^ k ∧ n * 2 ^ k < 2 ^ 53 := by
      constructor
      · rw [← hk, pow_add]
        exact Nat.mul_le_mul_right _ hlow
      · rw [show 53 = Nat.log 2 n + 1 + k by omega, pow_add 2 (Nat.log 2 n + 1)]
        exact Nat.mul_lt_mul_of_pos_right hhigh (Nat.two_pow_pos k)
    let x : Magnitude := ⟨n * 2 ^ k, -k, hmantissa.2, by omega, .inl hmantissa.1⟩
    have hvalue : x.value = n := by
      simp only [x, value, zpow_neg, zpow_natCast]
      push_cast
      field_simp
    exact ⟨x, by rw [← hvalue, nearest_value], hvalue⟩

theorem le_roundHalfEven {q : ℚ} {n : ℕ} (h : (n : ℚ) ≤ q) : n ≤ roundHalfEven q := by
  have hfloor : n ≤ ⌊q⌋₊ := Nat.le_floor h
  unfold roundHalfEven
  dsimp only
  split
  · exact hfloor
  · split
    · omega
    · split <;> omega

/-- What is nearest to a natural number, when that is below `2 ^ 53`, is that number. -/
theorem value_of_nearest_natCast {n : ℕ} {x : Magnitude} (h : nearest (n : ℚ) = some x)
    (hlt : x.value < 2 ^ 53) : x.value = n := by
  by_cases hn : n < 2 ^ 53
  · obtain ⟨y, hy, hvalue⟩ := nearest_natCast_of_lt hn
    rw [h] at hy
    obtain rfl := Option.some.inj hy
    exact hvalue
  · exfalso
    have hne : n ≠ 0 := by omega
    have hlog : 53 ≤ Nat.log 2 n := Nat.le_log_of_pow_le (by decide) (by omega)
    have hexponent := exponentAt_natCast hne
    -- the mantissa is not less than that of the power of two below the number
    have hscaled : ((2 ^ 52 : ℕ) : ℚ) ≤ (n : ℚ) * 2 ^ (-exponentAt (n : ℚ)) := by
      have hlow : ((2 : ℚ) ^ Nat.log 2 n) ≤ n := mod_cast Nat.pow_log_le_self 2 hne
      have hpow : (0 : ℚ) < 2 ^ (-exponentAt (n : ℚ)) := by positivity
      calc ((2 ^ 52 : ℕ) : ℚ) = 2 ^ Nat.log 2 n * 2 ^ (-exponentAt (n : ℚ)) := by
            rw [hexponent, ← zpow_natCast, ← zpow_add₀ (by norm_num)]
            rw [show ((Nat.log 2 n : ℕ) : ℤ) + -((Nat.log 2 n : ℤ) - 52) = (52 : ℕ) by ring,
              zpow_natCast]
            norm_num
        _ ≤ n * 2 ^ (-exponentAt (n : ℚ)) := mul_le_mul_of_nonneg_right hlow hpow.le
    have hmantissa := le_roundHalfEven hscaled
    have hlarge : ∀ (m : ℕ) (e : ℤ), 2 ^ 52 ≤ m → 1 ≤ e → (2 : ℚ) ^ 53 ≤ m * 2 ^ e := by
      intro m e hm he
      have hm' : (2 : ℚ) ^ 52 ≤ m := mod_cast hm
      have he' : (2 : ℚ) ^ (1 : ℤ) ≤ 2 ^ e := zpow_le_zpow_right₀ (by norm_num) he
      calc (2 : ℚ) ^ 53 = (2 : ℚ) ^ 52 * (2 : ℚ) ^ (1 : ℤ) := by norm_num
        _ ≤ m * (2 : ℚ) ^ e := mul_le_mul hm' he' (by positivity) (by positivity)
    simp only [nearest] at h
    split at h
    · obtain ⟨hm, he⟩ := pack_eq_some.1 h
      have hge := hlarge x.mantissa x.exponent (by omega) (by omega)
      rw [value] at hlt
      linarith
    · obtain ⟨hm, he⟩ := pack_eq_some.1 h
      have hge := hlarge x.mantissa x.exponent (by omega) (by omega)
      rw [value] at hlt
      linarith

/-! ## Shortest decimals -/

/-- The exact decimal of a magnitude that is a natural number: the number, with zeros that its scale
takes back. -/
theorem exactScaled_natCast {x : Magnitude} {n : ℕ} (h : x.value = n) :
    ∃ k : ℕ, x.exactScaled = (n * 10 ^ k, -(k : ℤ)) := by
  unfold exactScaled
  split
  · next hexponent =>
    obtain ⟨k, hk⟩ := Int.eq_ofNat_of_zero_le hexponent
    refine ⟨0, ?_⟩
    rw [value, hk, zpow_natCast] at h
    have hnat : x.mantissa * 2 ^ k = n := mod_cast h
    rw [hk, Int.toNat_natCast, hnat]
    simp
  · next hexponent =>
    obtain ⟨k, hk⟩ := Int.eq_ofNat_of_zero_le (Int.neg_nonneg.2 (Int.not_le.1 hexponent).le)
    refine ⟨k, ?_⟩
    have hmantissa := x.value_mul_exponent
    rw [h, hk, zpow_natCast] at hmantissa
    have hnat : n * 2 ^ k = x.mantissa := mod_cast hmantissa
    rw [hk, Int.toNat_natCast, ← hnat, mul_assoc, ← mul_pow, Prod.mk.injEq]
    exact ⟨by norm_num, by omega⟩

/-- The search for the shortest decimal of a natural number stops at the number itself, or at a natural
number before. -/
theorem shortestFrom_natCast {x : Magnitude} {n k : ℕ} (h : x.value = n) (hlt : n < 2 ^ 53)
    (drop : ℕ) (hdrop : k ≤ drop) :
    ∃ s : ℕ, (x.shortestFrom (n * 10 ^ k) (-(k : ℤ)) drop).2 = s ∧
      (x.shortestFrom (n * 10 ^ k) (-(k : ℤ)) drop).1 * 10 ^ s = n := by
  -- a natural number that reads back is the number
  have hback : ∀ (m : ℕ) (s : ℤ), 0 ≤ s → x.readsBack m s = true → m * 10 ^ s.toNat = n := by
    intro m s hs hreads
    obtain ⟨t, rfl⟩ := Int.eq_ofNat_of_zero_le hs
    have hnearest := of_decide_eq_true hreads
    rw [zpow_natCast] at hnearest
    have hcast : ((m * 10 ^ t : ℕ) : ℚ) = (m : ℚ) * 10 ^ t := by push_cast; rfl
    rw [← hcast] at hnearest
    have hvalue := value_of_nearest_natCast hnearest (by rw [h]; exact_mod_cast hlt)
    rw [h] at hvalue
    rw [Int.toNat_natCast]
    exact_mod_cast hvalue.symm
  induction drop with
  | zero =>
    obtain rfl : k = 0 := by omega
    exact ⟨0, by simp [shortestFrom], by simp [shortestFrom]⟩
  | succ drop ih =>
    have hscale : (0 : ℤ) ≤ -(k : ℤ) + (drop + 1) := by omega
    simp only [shortestFrom]
    split
    · next hlower =>
      exact ⟨(-(k : ℤ) + (drop + 1)).toNat, by rw [Int.toNat_of_nonneg hscale],
        hback _ _ hscale hlower.1⟩
    · next hlower =>
      split
      · next hupper =>
        exact ⟨(-(k : ℤ) + (drop + 1)).toNat, by rw [Int.toNat_of_nonneg hscale],
          hback _ _ hscale hupper⟩
      · refine ih ?_
        by_contra hnot
        -- with exactly the zeros dropped, the number itself would have been taken
        obtain rfl : k = drop + 1 := by omega
        refine hlower ⟨?_, .inr (.inl ?_)⟩
        · rw [Nat.mul_div_cancel _ (by positivity)]
          refine decide_eq_true ?_
          rw [show -((drop + 1 : ℕ) : ℤ) + (drop + 1) = 0 by push_cast; ring, zpow_zero, mul_one, ← h,
            nearest_value]
        · rw [Nat.mul_mod_left]
          positivity

/-- The shortest decimal of a natural number is that number. -/
theorem shortestScaled_natCast {x : Magnitude} {n : ℕ} (h : x.value = n) (hlt : n < 2 ^ 53)
    (hn : n ≠ 0) : ∃ s : ℕ, x.shortestScaled.2 = s ∧ x.shortestScaled.1 * 10 ^ s = n := by
  obtain ⟨k, hk⟩ := exactScaled_natCast h
  have hlength : k ≤ (Nat.toDigits 10 (n * 10 ^ k)).length - 1 := by
    have hsize : k < (Nat.toDigits 10 (n * 10 ^ k)).length := by
      by_cases hk : k = 0
      · rw [hk]
        exact Nat.length_toDigits_pos
      · rw [← not_le, Nat.length_toDigits_le_iff (by decide) (by omega), not_lt]
        exact Nat.le_mul_of_pos_left _ (Nat.pos_of_ne_zero hn)
    omega
  have hfrom := shortestFrom_natCast h hlt _ hlength
  rw [shortestScaled, hk]
  exact hfrom

/-! ## The digits of a natural number -/

theorem toDigits_mul_pow {n : ℕ} (hn : n ≠ 0) (s : ℕ) :
    Nat.toDigits 10 (n * 10 ^ s) = Nat.toDigits 10 n ++ Decimal.zeros s := by
  induction s with
  | zero => simp [Decimal.zeros]
  | succ s ih =>
    have hlarge : 10 ≤ n * 10 ^ (s + 1) := by
      rw [pow_succ, ← mul_assoc]
      exact Nat.le_mul_of_pos_left _ (by positivity)
    have hdiv : n * 10 ^ (s + 1) / 10 = n * 10 ^ s := by
      rw [pow_succ, ← mul_assoc, Nat.mul_div_cancel _ (by decide)]
    have hmod : n * 10 ^ (s + 1) % 10 = 0 := by
      rw [pow_succ, ← mul_assoc, Nat.mul_mod_left]
    rw [Nat.toDigits_of_base_le (by decide) hlarge, hdiv, hmod, ih, List.append_assoc, Decimal.zeros,
      Decimal.zeros, List.replicate_succ']
    rfl

/-- The digits of the shortest decimal and the zeros up to the point are the digits of the number. -/
theorem toDigits_shortest {x : Magnitude} {n : ℕ} (h : x.value = n) (hlt : n < 2 ^ 53)
    (hx : x.mantissa ≠ 0) :
    ∃ k : ℕ, (x.shortest hx).point = (x.shortest hx).digits.length + k ∧
      Nat.toDigits 10 n = (x.shortest hx).digits ++ Decimal.zeros k := by
  have hn : n ≠ 0 := by
    rintro rfl
    exact hx (value_eq_zero.1 (by rw [h, Nat.cast_zero]))
  obtain ⟨s, hscale, hvalue⟩ := shortestScaled_natCast h hlt hn
  obtain ⟨k, hk⟩ := Decimal.toDigits_eq_significantDigits x.shortestScaled.1
  refine ⟨k + s, ?_, ?_⟩
  · show ((Nat.toDigits 10 x.shortestScaled.1).length : ℤ) + x.shortestScaled.2 =
      (Decimal.significantDigits x.shortestScaled.1).length + ((k + s : ℕ) : ℤ)
    rw [hscale, hk, List.length_append, Decimal.zeros, List.length_replicate]
    push_cast
    ring
  · show Nat.toDigits 10 n = Decimal.significantDigits x.shortestScaled.1 ++ Decimal.zeros (k + s)
    rw [← hvalue, toDigits_mul_pow (shortestScaled_ne_zero hx), hk, List.append_assoc, Decimal.zeros,
      Decimal.zeros, Decimal.zeros, List.replicate_append_replicate]

end Magnitude

end OmniviaCore.Lib
