import Mathlib

/-!
# Prefix codes

In a prefix code no code word begins another. Texts are then encoded injectively
(`PrefixCode.flatMap_injective`), and a text closed by a letter that begins no code word can be told from
what comes after it (`PrefixCode.unambiguous_of_stop`). Parts that do not contain their separator are joined
injectively (`intercalate_inj`), also when the joined text is encoded (`joinedBytes_inj`).
-/

namespace OmniviaCore.Lib

section

variable {α β : Type}

/-- An encoding of letters that can be taken off the front of a text in one way only. -/
structure PrefixCode (encode : α → List β) : Prop where
  ne_nil : ∀ a, encode a ≠ []
  unambiguous : ∀ a b r s, encode a ++ r = encode b ++ s → a = b ∧ r = s

namespace PrefixCode

variable {encode : α → List β}

theorem flatMap_injective (code : PrefixCode encode) :
    Function.Injective fun letters : List α => letters.flatMap encode := by
  intro l
  induction l with
  | nil =>
    intro m h
    cases m with
    | nil => rfl
    | cons b m =>
      have hnil : encode b ++ m.flatMap encode = [] := h.symm
      exact absurd (List.append_eq_nil_iff.1 hnil).1 (code.ne_nil b)
  | cons a l ih =>
    intro m h
    cases m with
    | nil =>
      have hnil : encode a ++ l.flatMap encode = [] := h
      exact absurd (List.append_eq_nil_iff.1 hnil).1 (code.ne_nil a)
    | cons b m =>
      have happend : encode a ++ l.flatMap encode = encode b ++ m.flatMap encode := h
      obtain ⟨rfl, hrest⟩ := code.unambiguous _ _ _ _ happend
      rw [ih hrest]

theorem ne_append_stop (code : PrefixCode encode) {stop : β}
    (hstop : ∀ a, (encode a).head? ≠ some stop) (a : α) (r s : List β) :
    encode a ++ r ≠ stop :: s := by
  intro h
  apply hstop a
  rw [← List.head?_append_of_ne_nil _ (code.ne_nil a), h]
  rfl

/-- A text closed by a letter that begins no code word. -/
theorem unambiguous_of_stop (code : PrefixCode encode) {stop : β}
    (hstop : ∀ a, (encode a).head? ≠ some stop) {l m : List α} {r s : List β}
    (h : l.flatMap encode ++ stop :: r = m.flatMap encode ++ stop :: s) : l = m ∧ r = s := by
  induction l generalizing m with
  | nil =>
    cases m with
    | nil => exact ⟨rfl, List.tail_eq_of_cons_eq h⟩
    | cons b m =>
      rw [List.flatMap_cons, List.append_assoc] at h
      exact absurd h.symm (code.ne_append_stop hstop _ _ _)
  | cons a l ih =>
    cases m with
    | nil =>
      rw [List.flatMap_cons, List.append_assoc] at h
      exact absurd h (code.ne_append_stop hstop _ _ _)
    | cons b m =>
      rw [List.flatMap_cons, List.flatMap_cons, List.append_assoc, List.append_assoc] at h
      obtain ⟨rfl, hrest⟩ := code.unambiguous _ _ _ _ h
      obtain ⟨rfl, hrs⟩ := ih hrest
      exact ⟨rfl, hrs⟩

end PrefixCode

/-! ## Separated parts -/

/-- A text is told from what follows its first separator. -/
theorem append_separator_inj {stop : α} {l m r s : List α} (hl : stop ∉ l) (hm : stop ∉ m)
    (h : l ++ stop :: r = m ++ stop :: s) : l = m ∧ r = s := by
  induction l generalizing m with
  | nil =>
    cases m with
    | nil => exact ⟨rfl, (List.cons.inj h).2⟩
    | cons b m => exact absurd (List.cons.inj h).1 (fun heq => hm (heq ▸ List.mem_cons_self))
  | cons a l ih =>
    cases m with
    | nil => exact absurd (List.cons.inj h).1.symm (fun heq => hl (heq ▸ List.mem_cons_self))
    | cons b m =>
      obtain ⟨rfl, hrest⟩ := List.cons.inj h
      obtain ⟨rfl, hrs⟩ := ih (fun h => hl (List.mem_cons_of_mem _ h))
        (fun h => hm (List.mem_cons_of_mem _ h)) hrest
      exact ⟨rfl, hrs⟩

/-- Parts without the separator are joined injectively. -/
theorem intercalate_inj {stop : α} {ps qs : List (List α)} (hp : ∀ p ∈ ps, stop ∉ p)
    (hq : ∀ q ∈ qs, stop ∉ q) (hps : ps ≠ []) (hqs : qs ≠ [])
    (h : [stop].intercalate ps = [stop].intercalate qs) : ps = qs := by
  induction ps generalizing qs with
  | nil => exact absurd rfl hps
  | cons p ps ih =>
    obtain ⟨q, qs, rfl⟩ := List.exists_cons_of_ne_nil hqs
    have hp' := hp p List.mem_cons_self
    have hq' := hq q List.mem_cons_self
    rcases ps with - | ⟨p₂, ps⟩ <;> rcases qs with - | ⟨q₂, qs⟩
    · simpa [List.intercalate] using h
    · refine absurd (?_ : stop ∈ p) hp'
      have hp : p = q ++ stop :: [stop].intercalate (q₂ :: qs) := by
        simpa [List.intercalate] using h
      rw [hp]
      simp
    · refine absurd (?_ : stop ∈ q) hq'
      have hq : q = p ++ stop :: [stop].intercalate (p₂ :: ps) := by
        simpa [List.intercalate] using h.symm
      rw [hq]
      simp
    · have hsplit : p ++ stop :: [stop].intercalate (p₂ :: ps) =
          q ++ stop :: [stop].intercalate (q₂ :: qs) := by
        simpa [List.intercalate] using h
      obtain ⟨rfl, hrest⟩ := append_separator_inj hp' hq' hsplit
      rw [ih (fun r hr => hp r (List.mem_cons_of_mem _ hr))
        (fun r hr => hq r (List.mem_cons_of_mem _ hr)) (List.cons_ne_nil _ _)
        (List.cons_ne_nil _ _) hrest]

theorem utf8EncodeChar_prefixCode : PrefixCode String.utf8EncodeChar where
  ne_nil c := by
    have hchar := c.utf8Size_pos
    rw [← String.length_utf8EncodeChar] at hchar
    exact List.ne_nil_of_length_pos hchar
  unambiguous c d r s h := by
    have hdecode : ∀ (c : Char) (r : List UInt8),
        (String.utf8EncodeChar c ++ r).toByteArray.utf8DecodeChar? 0 = some c := by
      intro c r
      rw [List.toByteArray_append, ByteArray.utf8DecodeChar?_utf8EncodeChar_append]
    obtain rfl : c = d := by
      rw [← Option.some.injEq, ← hdecode c r, ← hdecode d s, h]
    exact ⟨rfl, List.append_cancel_left h⟩

/-- `separator.join(parts).encode("utf-8")`. -/
def joinedBytes (separator : Char) (parts : List String) : List UInt8 :=
  ([separator].intercalate (parts.map String.toList)).flatMap String.utf8EncodeChar

/-- Texts without the separator are told apart by the bytes they are joined to. -/
theorem joinedBytes_inj {separator : Char} {ps qs : List String}
    (hp : ∀ p ∈ ps, separator ∉ p.toList) (hq : ∀ q ∈ qs, separator ∉ q.toList) (hps : ps ≠ [])
    (hqs : qs ≠ []) (h : joinedBytes separator ps = joinedBytes separator qs) : ps = qs := by
  have hjoined := utf8EncodeChar_prefixCode.flatMap_injective h
  have hparts := intercalate_inj (by simpa using hp) (by simpa using hq) (by simpa using hps)
    (by simpa using hqs) hjoined
  exact List.map_injective_iff.2 (fun _ _ => String.toList_injective) hparts

end

/-! ## Big-endian integers -/

section

/-- `n` in `width` bytes, modulo what they can hold. -/
def toBigEndian : ℕ → ℕ → List UInt8
  | 0, _ => []
  | width + 1, n => toBigEndian width (n / 256) ++ [UInt8.ofNat (n % 256)]

def ofBigEndian (bytes : List UInt8) : ℕ := bytes.foldl (fun n byte => n * 256 + byte.toNat) 0

@[simp] theorem length_toBigEndian (width n : ℕ) : (toBigEndian width n).length = width := by
  induction width generalizing n with
  | zero => rfl
  | succ width ih => rw [toBigEndian, List.length_append, ih, List.length_singleton]

theorem ofBigEndian_append (bytes : List UInt8) (byte : UInt8) :
    ofBigEndian (bytes ++ [byte]) = ofBigEndian bytes * 256 + byte.toNat := by
  rw [ofBigEndian, List.foldl_append]
  rfl

theorem ofBigEndian_toBigEndian {width n : ℕ} (h : n < 256 ^ width) :
    ofBigEndian (toBigEndian width n) = n := by
  induction width generalizing n with
  | zero =>
    rw [pow_zero, Nat.lt_one_iff] at h
    rw [h]
    rfl
  | succ width ih =>
    have hquotient : n / 256 < 256 ^ width := by
      rw [pow_succ] at h
      exact Nat.div_lt_of_lt_mul (by rwa [Nat.mul_comm])
    rw [toBigEndian, ofBigEndian_append, ih hquotient, UInt8.toNat_ofNat']
    omega

theorem toBigEndian_ofBigEndian (bytes : List UInt8) :
    toBigEndian bytes.length (ofBigEndian bytes) = bytes := by
  induction bytes using List.reverseRecOn with
  | nil => rfl
  | append_singleton bytes byte ih =>
    have hbyte := byte.toNat_lt
    have hquotient : (ofBigEndian bytes * 256 + byte.toNat) / 256 = ofBigEndian bytes := by omega
    have hrest : (ofBigEndian bytes * 256 + byte.toNat) % 256 = byte.toNat := by omega
    rw [List.length_append, List.length_singleton, ofBigEndian_append, toBigEndian, hquotient, hrest, ih,
      UInt8.ofNat_toNat]

end

end OmniviaCore.Lib
