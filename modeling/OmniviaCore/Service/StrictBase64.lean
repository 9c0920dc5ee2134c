import OmniviaCore.Connector.Snapshots

/-!
# What a strict base64 decoder reads

`base64.b64decode` with `validate=True`: the two alternative characters are translated, and
`binascii.a2b_base64` reads the result in its strict mode. It takes more padding after a whole number of
groups, and drops the bits a final group does not use. A text is the encoding of what is read exactly
when its unused bits are zero (`unpadded_eq_iff`).
-/

namespace OmniviaCore.Service

open Connector

/-- `bytes.translate` of `altchars=b"-_"`. -/
def translateAltchars (byte : UInt8) : UInt8 :=
  if byte = 45 then 43 else if byte = 95 then 47 else byte

/-- `table_a2b_base64`. -/
def tableA2bBase64 (byte : UInt8) : Option Nat :=
  if 65 ≤ byte ∧ byte ≤ 90 then some (byte.toNat - 65)
  else if 97 ≤ byte ∧ byte ≤ 122 then some (byte.toNat - 71)
  else if 48 ≤ byte ∧ byte ≤ 57 then some (byte.toNat + 4)
  else if byte = 43 then some 62
  else if byte = 47 then some 63
  else none

/-- The loop of `a2b_base64` in strict mode: the position in the group, the bits left of the last
character, the padding read, and whether padding has started. -/
def a2bStrict : Nat → Nat → Nat → Bool → Bytes → Option Bytes
  | quad, _, _, _, [] => if quad = 0 then some [] else none
  | quad, left, pads, started, c :: rest =>
    if c = 61 then
      -- a pad sequence ends the text; before the third character of a group it is skipped
      if 2 ≤ quad ∧ 4 ≤ quad + (pads + 1) then (if rest = [] then some [] else none)
      else a2bStrict quad left (if 2 ≤ quad then pads + 1 else pads) true rest
    else
      match tableA2bBase64 c with
      | none => none
      | some v =>
        if started then none
        else
          match quad with
          | 0 => a2bStrict 1 v 0 started rest
          | 1 => (a2bStrict 2 (v % 16) 0 started rest).map (UInt8.ofNat (left * 4 + v / 16) :: ·)
          | 2 => (a2bStrict 3 (v % 4) 0 started rest).map (UInt8.ofNat (left * 16 + v / 4) :: ·)
          | _ => (a2bStrict 0 0 0 started rest).map (UInt8.ofNat (left * 64 + v) :: ·)

/-- `base64.b64decode(text, altchars=b"-_", validate=True)`. -/
def b64decode (text : Bytes) : Option Bytes :=
  let translated := text.map translateAltchars
  if translated.head? = some 61 then none else a2bStrict 0 0 0 false translated

/-- `"=" * (-length % 4)`. -/
def padding (length : Nat) : Bytes := List.replicate ((4 - length % 4) % 4) 61

def UrlSafe (text : Bytes) : Prop := ∀ byte ∈ text, (base64Value byte).isSome = true

/-- The bits that a final partial group does not use are zero. -/
def SpareBitsZero : Bytes → Prop
  | _ :: _ :: _ :: _ :: rest => SpareBitsZero rest
  | [_, _, c] => ∃ v, base64Value c = some v ∧ v % 4 = 0
  | [_, b] => ∃ v, base64Value b = some v ∧ v % 16 = 0
  | _ => True

/-! ## Characters -/

theorem forall_byte {P : UInt8 → Prop} (h : ∀ n : Fin 256, P (UInt8.ofNat n.val)) (byte : UInt8) :
    P byte := by
  have hbyte := h ⟨byte.toNat, byte.toNat_lt⟩
  rwa [UInt8.ofNat_toNat] at hbyte

theorem tableA2b_translate (byte : UInt8) {v : Nat} (h : base64Value byte = some v) :
    tableA2bBase64 (translateAltchars byte) = some v ∧ translateAltchars byte ≠ 61 ∧ v < 64 ∧
      base64Byte 45 95 v = byte := by
  have hall : ∀ byte : UInt8, ∀ v ∈ base64Value byte,
      tableA2bBase64 (translateAltchars byte) = some v ∧ translateAltchars byte ≠ 61 ∧ v < 64 ∧
        base64Byte 45 95 v = byte := by
    apply forall_byte
    decide +kernel
  exact hall byte v h

theorem a2bStrict_value {byte : UInt8} {v : Nat} (h : base64Value byte = some v)
    (quad left pads : Nat) (rest : Bytes) :
    a2bStrict quad left pads false (translateAltchars byte :: rest) =
      match quad with
      | 0 => a2bStrict 1 v 0 false rest
      | 1 => (a2bStrict 2 (v % 16) 0 false rest).map (UInt8.ofNat (left * 4 + v / 16) :: ·)
      | 2 => (a2bStrict 3 (v % 4) 0 false rest).map (UInt8.ofNat (left * 16 + v / 4) :: ·)
      | _ => (a2bStrict 0 0 0 false rest).map (UInt8.ofNat (left * 64 + v) :: ·) := by
  obtain ⟨htable, hpad, -, -⟩ := tableA2b_translate byte h
  rw [a2bStrict.eq_def]
  simp only [if_neg hpad, htable, Bool.false_eq_true, if_false]

theorem ofNat_eq {m n : Nat} (h : m % 256 = n % 256) : UInt8.ofNat m = UInt8.ofNat n := by
  apply UInt8.toNat_inj.1
  rw [UInt8.toNat_ofNat', UInt8.toNat_ofNat', h]

/-! ## Texts -/

theorem UrlSafe.head {byte : UInt8} {rest : Bytes} (h : UrlSafe (byte :: rest)) :
    ∃ v, base64Value byte = some v ∧ UrlSafe rest := by
  obtain ⟨v, hv⟩ := Option.isSome_iff_exists.mp (h byte List.mem_cons_self)
  exact ⟨v, hv, fun b hb => h b (List.mem_cons_of_mem _ hb)⟩

theorem base64Decode_group {a b c d : UInt8} {va vb vc vd : Nat} (ha : base64Value a = some va)
    (hb : base64Value b = some vb) (hc : base64Value c = some vc) (hd : base64Value d = some vd)
    (rest : Bytes) :
    base64Decode (a :: b :: c :: d :: rest) =
      (base64Decode rest).map fun bytes =>
        UInt8.ofNat ((va * 262144 + vb * 4096 + vc * 64 + vd) / 65536) ::
          UInt8.ofNat ((va * 262144 + vb * 4096 + vc * 64 + vd) / 256) ::
            UInt8.ofNat (va * 262144 + vb * 4096 + vc * 64 + vd) :: bytes := by
  rw [base64Decode]
  simp only [ha, hb, hc, hd, Option.bind_eq_bind, Option.bind_some, Option.pure_def]
  cases base64Decode rest <;> rfl

theorem a2bStrict_padded {text : Bytes} (h : UrlSafe text) :
    a2bStrict 0 0 0 false ((text ++ padding text.length).map translateAltchars) =
      base64Decode text := by
  induction text using base64Decode.induct with
  | case1 a b c d rest ih =>
    obtain ⟨va, ha, h⟩ := h.head
    obtain ⟨vb, hb, h⟩ := h.head
    obtain ⟨vc, hc, h⟩ := h.head
    obtain ⟨vd, hd, h⟩ := h.head
    have hva := (tableA2b_translate a ha).2.2.1
    have hvb := (tableA2b_translate b hb).2.2.1
    have hvc := (tableA2b_translate c hc).2.2.1
    have hvd := (tableA2b_translate d hd).2.2.1
    have hlength : padding (a :: b :: c :: d :: rest).length = padding rest.length := by
      unfold padding
      rw [List.length_cons, List.length_cons, List.length_cons, List.length_cons]
      congr 1
      omega
    rw [hlength]
    simp only [List.cons_append, List.map_cons, a2bStrict_value ha, a2bStrict_value hb,
      a2bStrict_value hc, a2bStrict_value hd, ih h]
    have h1 : (va * 262144 + vb * 4096 + vc * 64 + vd) / 65536 = va * 4 + vb / 16 := by omega
    have h2 : UInt8.ofNat ((va * 262144 + vb * 4096 + vc * 64 + vd) / 256) =
        UInt8.ofNat (vb % 16 * 16 + vc / 4) := ofNat_eq (by omega)
    have h3 : UInt8.ofNat (va * 262144 + vb * 4096 + vc * 64 + vd) =
        UInt8.ofNat (vc % 4 * 64 + vd) := ofNat_eq (by omega)
    rw [base64Decode_group ha hb hc hd, h1, h2, h3]
    simp only [Option.map_map]
    rfl
  | case2 a b c =>
    obtain ⟨va, ha, h⟩ := h.head
    obtain ⟨vb, hb, h⟩ := h.head
    obtain ⟨vc, hc, -⟩ := h.head
    have hvb := (tableA2b_translate b hb).2.2.1
    have hvc := (tableA2b_translate c hc).2.2.1
    have h1 : (va * 262144 + vb * 4096 + vc * 64) / 65536 = va * 4 + vb / 16 := by omega
    have h2 : UInt8.ofNat ((va * 262144 + vb * 4096 + vc * 64) / 256) =
        UInt8.ofNat (vb % 16 * 16 + vc / 4) := ofNat_eq (by omega)
    have hpads : ([a, b, c] ++ padding [a, b, c].length).map translateAltchars =
        [translateAltchars a, translateAltchars b, translateAltchars c, 61] := rfl
    have hdone : ∀ left, a2bStrict 3 left 0 false [61] = some [] := fun _ => rfl
    rw [hpads]
    simp only [a2bStrict_value ha, a2bStrict_value hb, a2bStrict_value hc, hdone]
    rw [base64Decode]
    simp only [ha, hb, hc, Option.bind_eq_bind, Option.bind_some, Option.pure_def, h1, h2]
    rfl
  | case3 a b =>
    obtain ⟨va, ha, h⟩ := h.head
    obtain ⟨vb, hb, -⟩ := h.head
    have hvb := (tableA2b_translate b hb).2.2.1
    have h1 : (va * 262144 + vb * 4096) / 65536 = va * 4 + vb / 16 := by omega
    have hpads : ([a, b] ++ padding [a, b].length).map translateAltchars =
        [translateAltchars a, translateAltchars b, 61, 61] := rfl
    have hdone : ∀ left, a2bStrict 2 left 0 false [61, 61] = some [] := fun _ => rfl
    rw [hpads]
    simp only [a2bStrict_value ha, a2bStrict_value hb, hdone]
    rw [base64Decode]
    simp only [ha, hb, Option.bind_eq_bind, Option.bind_some, Option.pure_def, h1]
    rfl
  | case4 a =>
    obtain ⟨va, ha, -⟩ := h.head
    have hpads : ([a] ++ padding [a].length).map translateAltchars =
        [translateAltchars a, 61, 61, 61] := rfl
    rw [hpads, a2bStrict_value ha]
    rfl
  | case5 => rfl

theorem b64decode_padded {text : Bytes} (h : UrlSafe text) :
    b64decode (text ++ padding text.length) = base64Decode text := by
  have hhead : ((text ++ padding text.length).map translateAltchars).head? ≠ some 61 := by
    cases text with
    | nil => decide
    | cons byte rest =>
      obtain ⟨v, hv, -⟩ := h.head
      simpa using (tableA2b_translate byte hv).2.1
  rw [b64decode, if_neg hhead, a2bStrict_padded h]

/-! ## One spelling -/

theorem base64Value_byte {n : Nat} (h : n < 64) : (base64Value (base64Byte 45 95 n)).isSome = true := by
  rw [base64Value_base64Byte h]
  rfl

theorem base64Unpadded_spelling (bytes : Bytes) :
    UrlSafe (base64Unpadded bytes) ∧ SpareBitsZero (base64Unpadded bytes) := by
  have hmod : ∀ n, (base64Value (base64Byte 45 95 (n % 64))).isSome = true := fun n =>
    base64Value_byte (Nat.mod_lt n (by decide))
  induction bytes using base64Unpadded.induct with
  | case1 a b c rest ih =>
    have hfirst := base64Value_byte (@base64Digits_lt a b c)
    rw [base64Unpadded]
    refine ⟨?_, ih.2⟩
    intro byte hbyte
    simp only [List.mem_cons] at hbyte
    rcases hbyte with rfl | rfl | rfl | rfl | hbyte
    · exact hfirst
    · exact hmod _
    · exact hmod _
    · exact hmod _
    · exact ih.1 byte hbyte
  | case2 a b =>
    have hfirst := base64Value_byte (@base64Digits_lt a b 0)
    rw [UInt8.toNat_zero, Nat.add_zero] at hfirst
    rw [base64Unpadded]
    refine ⟨?_, (a.toNat * 65536 + b.toNat * 256) / 64 % 64,
      base64Value_base64Byte (Nat.mod_lt _ (by decide)), by omega⟩
    intro byte hbyte
    simp only [List.mem_cons, List.not_mem_nil, or_false] at hbyte
    rcases hbyte with rfl | rfl | rfl
    · exact hfirst
    · exact hmod _
    · exact hmod _
  | case3 a =>
    have hfirst := base64Value_byte (@base64Digits_lt a 0 0)
    simp only [UInt8.toNat_zero, Nat.zero_mul, Nat.add_zero] at hfirst
    rw [base64Unpadded]
    refine ⟨?_, a.toNat * 65536 / 4096 % 64,
      base64Value_base64Byte (Nat.mod_lt _ (by decide)), by omega⟩
    intro byte hbyte
    simp only [List.mem_cons, List.not_mem_nil, or_false] at hbyte
    rcases hbyte with rfl | rfl
    · exact hfirst
    · exact hmod _
  | case4 => exact ⟨fun _ h => absurd h List.not_mem_nil, trivial⟩

/-- The digits of three bytes read from one group are the group's. -/
theorem group_digits {va vb vc vd : Nat} (ha : va < 64) (hb : vb < 64) (hc : vc < 64) (hd : vd < 64) :
    let n := va * 262144 + vb * 4096 + vc * 64 + vd
    (UInt8.ofNat (n / 65536)).toNat * 65536 + (UInt8.ofNat (n / 256)).toNat * 256 +
        (UInt8.ofNat n).toNat = n ∧
      n / 262144 = va ∧ n / 4096 % 64 = vb ∧ n / 64 % 64 = vc ∧ n % 64 = vd := by
  simp only [UInt8.toNat_ofNat']
  refine ⟨?_, ?_, ?_, ?_, ?_⟩ <;> omega

/-- A text of the alphabet whose unused bits are zero is the encoding of what is read of it. -/
theorem unpadded_of_decode {text bytes : Bytes} (hsafe : UrlSafe text) (hspare : SpareBitsZero text)
    (h : base64Decode text = some bytes) : base64Unpadded bytes = text := by
  induction text using base64Decode.induct generalizing bytes with
  | case1 a b c d rest ih =>
    obtain ⟨va, ha, hsafe⟩ := hsafe.head
    obtain ⟨vb, hb, hsafe⟩ := hsafe.head
    obtain ⟨vc, hc, hsafe⟩ := hsafe.head
    obtain ⟨vd, hd, hsafe⟩ := hsafe.head
    obtain ⟨-, -, hva, hbyteA⟩ := tableA2b_translate a ha
    obtain ⟨-, -, hvb, hbyteB⟩ := tableA2b_translate b hb
    obtain ⟨-, -, hvc, hbyteC⟩ := tableA2b_translate c hc
    obtain ⟨-, -, hvd, hbyteD⟩ := tableA2b_translate d hd
    rw [base64Decode_group ha hb hc hd, Option.map_eq_some_iff] at h
    obtain ⟨more, hmore, rfl⟩ := h
    obtain ⟨hsum, hA, hB, hC, hD⟩ := group_digits hva hvb hvc hvd
    rw [base64Unpadded, hsum, hA, hB, hC, hD, hbyteA, hbyteB, hbyteC, hbyteD, ih hsafe hspare hmore]
  | case2 a b c =>
    obtain ⟨va, ha, hsafe⟩ := hsafe.head
    obtain ⟨vb, hb, hsafe⟩ := hsafe.head
    obtain ⟨vc, hc, -⟩ := hsafe.head
    obtain ⟨-, -, hva, hbyteA⟩ := tableA2b_translate a ha
    obtain ⟨-, -, hvb, hbyteB⟩ := tableA2b_translate b hb
    obtain ⟨-, -, hvc, hbyteC⟩ := tableA2b_translate c hc
    obtain ⟨v, hv, hzero⟩ := hspare
    obtain rfl : vc = v := Option.some.inj (hc.symm.trans hv)
    rw [base64Decode] at h
    simp only [ha, hb, hc, Option.bind_eq_bind, Option.bind_some, Option.pure_def,
      Option.some.injEq] at h
    subst h
    have hsum : (UInt8.ofNat ((va * 262144 + vb * 4096 + vc * 64) / 65536)).toNat * 65536 +
        (UInt8.ofNat ((va * 262144 + vb * 4096 + vc * 64) / 256)).toNat * 256 =
          va * 262144 + vb * 4096 + vc * 64 := by
      rw [UInt8.toNat_ofNat', UInt8.toNat_ofNat']
      omega
    obtain ⟨-, hA, hB, hC, -⟩ := group_digits hva hvb hvc (by decide : 0 < 64)
    rw [Nat.add_zero] at hA hB hC
    rw [base64Unpadded, hsum, hA, hB, hC, hbyteA, hbyteB, hbyteC]
  | case3 a b =>
    obtain ⟨va, ha, hsafe⟩ := hsafe.head
    obtain ⟨vb, hb, -⟩ := hsafe.head
    obtain ⟨-, -, hva, hbyteA⟩ := tableA2b_translate a ha
    obtain ⟨-, -, hvb, hbyteB⟩ := tableA2b_translate b hb
    obtain ⟨v, hv, hzero⟩ := hspare
    obtain rfl : vb = v := Option.some.inj (hb.symm.trans hv)
    rw [base64Decode] at h
    simp only [ha, hb, Option.bind_eq_bind, Option.bind_some, Option.pure_def,
      Option.some.injEq] at h
    subst h
    have hsum : (UInt8.ofNat ((va * 262144 + vb * 4096) / 65536)).toNat * 65536 =
        va * 262144 + vb * 4096 := by
      rw [UInt8.toNat_ofNat']
      omega
    obtain ⟨-, hA, hB, -, -⟩ := group_digits hva hvb (by decide : 0 < 64) (by decide : 0 < 64)
    simp only [Nat.zero_mul, Nat.add_zero] at hA hB
    rw [base64Unpadded, hsum, hA, hB, hbyteA, hbyteB]
  | case4 a => cases h
  | case5 =>
    cases h
    rfl

/-- What the strict decoder reads of a padded text encodes to the text exactly when the text is of the
alphabet and its unused bits are zero. -/
theorem unpadded_eq_iff {text bytes : Bytes} (h : b64decode (text ++ padding text.length) = some bytes) :
    base64Unpadded bytes = text ↔ UrlSafe text ∧ SpareBitsZero text := by
  constructor
  · intro heq
    rw [← heq]
    exact base64Unpadded_spelling bytes
  · intro hspelling
    rw [b64decode_padded hspelling.1] at h
    exact unpadded_of_decode hspelling.1 hspelling.2 h

theorem b64decode_unpadded (bytes : Bytes) :
    b64decode (base64Unpadded bytes ++ padding (base64Unpadded bytes).length) = some bytes := by
  rw [b64decode_padded (base64Unpadded_spelling bytes).1, base64Decode_unpadded]

end OmniviaCore.Service
