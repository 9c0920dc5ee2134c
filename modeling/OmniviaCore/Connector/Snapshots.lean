import OmniviaCore.CanonicalJson.Values
import OmniviaCore.Connector.Batches
import OmniviaCore.Lib.SortBy

/-!
# Snapshot payloads

The cursor payload of `connector/filesystem.py`: the relative paths of a scan, sorted, joined by
newlines, encoded as UTF-8 and spelled in unpadded base64url. Decoding a payload gives back the paths
it encodes when none of them has a newline in it (`decodeSnapshot_encodeSnapshot`).
-/

namespace OmniviaCore.Connector

open Lib

/-- A relative POSIX path that UTF-8 can encode. -/
abbrev RelativePath := List Char

inductive PollError where
  | refused (refusal : ConnectorRefused)
  | contractError (message : String)
  | unicodeEncodeError
  deriving DecidableEq

/-- `sorted` on paths: by their code points. -/
def sortPaths (paths : List RelativePath) : List RelativePath :=
  sortBy (fun path => path.map Char.toNat) paths

/-- `rstrip(b"=")`. -/
def rstripPadding (encoded : Bytes) : Bytes := (encoded.reverse.dropWhile (· = 61)).reverse

/-- `_encode_snapshot`. -/
def encodeSnapshot (paths : List RelativePath) : Bytes :=
  rstripPadding (base64Encode 45 95
    ((['\n'].intercalate (sortPaths paths)).flatMap String.utf8EncodeChar))

/-- The value of a byte of the base64url alphabet. -/
def base64Value (byte : UInt8) : Option Nat :=
  if 65 ≤ byte ∧ byte ≤ 90 then some (byte.toNat - 65)
  else if 97 ≤ byte ∧ byte ≤ 122 then some (byte.toNat - 71)
  else if 48 ≤ byte ∧ byte ≤ 57 then some (byte.toNat + 4)
  else if byte = 45 then some 62
  else if byte = 95 then some 63
  else none

/-- `urlsafe_b64decode` of a payload, padded. -/
def base64Decode : Bytes → Option Bytes
  | a :: b :: c :: d :: rest => do
    let n := (← base64Value a) * 262144 + (← base64Value b) * 4096 + (← base64Value c) * 64 +
      (← base64Value d)
    return UInt8.ofNat (n / 65536) :: UInt8.ofNat (n / 256) :: UInt8.ofNat n :: (← base64Decode rest)
  | [a, b, c] => do
    let n := (← base64Value a) * 262144 + (← base64Value b) * 4096 + (← base64Value c) * 64
    return [UInt8.ofNat (n / 65536), UInt8.ofNat (n / 256)]
  | [a, b] => do
    let n := (← base64Value a) * 262144 + (← base64Value b) * 4096
    return [UInt8.ofNat (n / 65536)]
  | [_] => none
  | [] => some []

/-- `.decode("utf-8")`. -/
def decodeUtf8 (bytes : Bytes) : Option (List Char) := bytes.toByteArray.utf8Decode?.map Array.toList

/-- `_decode_snapshot`: the lines of the text, without the empty ones. -/
def decodeSnapshot (payload : Bytes) : Except PollError (List RelativePath) :=
  match (base64Decode payload).bind decodeUtf8 with
  | none => .error (.refused ⟨ERROR_CONNECTOR_STATE_INVALID,
      "cursor payload is not a filesystem snapshot"⟩)
  | some text => .ok ((text.splitOn '\n').filter (· ≠ []))

/-! ## The round trip -/

/-- The encoding without its padding. -/
def base64Unpadded : Bytes → Bytes
  | a :: b :: c :: rest =>
    let n := a.toNat * 65536 + b.toNat * 256 + c.toNat
    base64Byte 45 95 (n / 262144) :: base64Byte 45 95 (n / 4096 % 64) ::
      base64Byte 45 95 (n / 64 % 64) :: base64Byte 45 95 (n % 64) :: base64Unpadded rest
  | [a, b] =>
    let n := a.toNat * 65536 + b.toNat * 256
    [base64Byte 45 95 (n / 262144), base64Byte 45 95 (n / 4096 % 64), base64Byte 45 95 (n / 64 % 64)]
  | [a] =>
    let n := a.toNat * 65536
    [base64Byte 45 95 (n / 262144), base64Byte 45 95 (n / 4096 % 64)]
  | [] => []

theorem base64Value_base64Byte {n : Nat} (h : n < 64) : base64Value (base64Byte 45 95 n) = some n := by
  have hall : ∀ n : Fin 64, base64Value (base64Byte 45 95 n) = some n.val := by decide
  exact hall ⟨n, h⟩

theorem base64Byte_ne_padding {n : Nat} (h : n < 64) : base64Byte 45 95 n ≠ 61 := by
  intro heq
  have hvalue := base64Value_base64Byte h
  rw [heq] at hvalue
  cases hvalue

theorem rstripPadding_of_ne {encoded : Bytes} (h : ∀ byte ∈ encoded.getLast?, byte ≠ 61) :
    rstripPadding encoded = encoded := by
  rcases List.eq_nil_or_concat' encoded with rfl | ⟨init, last, rfl⟩
  · rfl
  · have hlast : last ≠ 61 := h last (by simp)
    simp [rstripPadding, hlast]

theorem rstripPadding_append {init encoded : Bytes} (h : rstripPadding encoded ≠ []) :
    rstripPadding (init ++ encoded) = init ++ rstripPadding encoded := by
  unfold rstripPadding at h ⊢
  rw [List.reverse_append, List.dropWhile_append]
  have hne : encoded.reverse.dropWhile (· = 61) ≠ [] := fun heq => h (by rw [heq, List.reverse_nil])
  rw [if_neg (by simpa using hne), List.reverse_append, List.reverse_reverse]

theorem base64Digits_lt {a b c : UInt8} :
    (a.toNat * 65536 + b.toNat * 256 + c.toNat) / 262144 < 64 := by
  have ha := a.toNat_lt
  have hb := b.toNat_lt
  have hc := c.toNat_lt
  omega

theorem rstripPadding_base64Encode (bytes : Bytes) :
    rstripPadding (base64Encode 45 95 bytes) = base64Unpadded bytes := by
  induction bytes using base64Unpadded.induct with
  | case1 a b c rest ih =>
    unfold base64Encode base64Unpadded
    rcases hrest : base64Unpadded rest with - | ⟨first, more⟩
    · cases rest with
      | nil =>
        refine rstripPadding_of_ne fun byte hbyte => ?_
        simp only [base64Encode, List.getLast?_cons_cons, List.getLast?_singleton, Option.mem_some_iff]
          at hbyte
        rw [← hbyte]
        exact base64Byte_ne_padding (Nat.mod_lt _ (by decide))
      | cons d rest =>
        rcases rest with - | ⟨e, - | ⟨f, rest⟩⟩ <;> simp [base64Unpadded] at hrest
    · have hne : rstripPadding (base64Encode 45 95 rest) ≠ [] := by
        rw [ih, hrest]
        exact List.cons_ne_nil _ _
      rw [← hrest, ← ih]
      exact @rstripPadding_append [_, _, _, _] _ hne
  | case2 a b =>
    unfold base64Encode base64Unpadded
    simp [rstripPadding, base64Byte_ne_padding (Nat.mod_lt _ (by decide : 0 < 64))]
  | case3 a =>
    unfold base64Encode base64Unpadded
    simp [rstripPadding, base64Byte_ne_padding (Nat.mod_lt _ (by decide : 0 < 64))]
  | case4 => rfl

/-- Four digits are the number they are taken from, and its bytes the ones it is made of. -/
theorem base64Digits_sum (n : Nat) :
    n / 262144 * 262144 + n / 4096 % 64 * 4096 + n / 64 % 64 * 64 + n % 64 = n := by omega

theorem base64Bytes (a b c : UInt8) :
    UInt8.ofNat ((a.toNat * 65536 + b.toNat * 256 + c.toNat) / 65536) = a ∧
      UInt8.ofNat ((a.toNat * 65536 + b.toNat * 256 + c.toNat) / 256) = b ∧
      UInt8.ofNat (a.toNat * 65536 + b.toNat * 256 + c.toNat) = c := by
  have ha := a.toNat_lt
  have hb := b.toNat_lt
  have hc := c.toNat_lt
  refine ⟨?_, ?_, ?_⟩ <;> apply UInt8.toNat_inj.1 <;> rw [UInt8.toNat_ofNat'] <;> omega

theorem base64Decode_unpadded (bytes : Bytes) : base64Decode (base64Unpadded bytes) = some bytes := by
  have hdigit : ∀ n, base64Value (base64Byte 45 95 (n % 64)) = some (n % 64) :=
    fun n => base64Value_base64Byte (Nat.mod_lt n (by decide))
  induction bytes using base64Unpadded.induct with
  | case1 a b c rest ih =>
    obtain ⟨ha, hb, hc⟩ := base64Bytes a b c
    unfold base64Unpadded base64Decode
    simp only [base64Value_base64Byte base64Digits_lt, hdigit, ih, Option.bind_eq_bind,
      Option.bind_some, Option.pure_def, base64Digits_sum, ha, hb, hc]
  | case2 a b =>
    obtain ⟨ha, hb, -⟩ := base64Bytes a b 0
    have hsum := base64Digits_sum (a.toNat * 65536 + b.toNat * 256)
    have hlast : (a.toNat * 65536 + b.toNat * 256) % 64 = 0 := by omega
    have hfirst : (a.toNat * 65536 + b.toNat * 256) / 262144 < 64 := by
      have ha := a.toNat_lt
      have hb := b.toNat_lt
      omega
    rw [hlast, Nat.add_zero] at hsum
    rw [UInt8.toNat_zero, Nat.add_zero] at ha hb
    unfold base64Unpadded base64Decode
    simp only [base64Value_base64Byte hfirst, hdigit, Option.bind_eq_bind, Option.bind_some,
      Option.pure_def, hsum, ha, hb]
  | case3 a =>
    obtain ⟨ha, -, -⟩ := base64Bytes a 0 0
    have hsum := base64Digits_sum (a.toNat * 65536)
    have hlast : a.toNat * 65536 % 64 = 0 ∧ a.toNat * 65536 / 64 % 64 = 0 := by omega
    have hfirst : a.toNat * 65536 / 262144 < 64 := by
      have ha := a.toNat_lt
      omega
    simp only [hlast.1, hlast.2, Nat.zero_mul, Nat.add_zero] at hsum
    simp only [UInt8.toNat_zero, Nat.zero_mul, Nat.add_zero] at ha
    unfold base64Unpadded base64Decode
    simp only [base64Value_base64Byte hfirst, hdigit, Option.bind_eq_bind, Option.bind_some,
      Option.pure_def, hsum, ha]
  | case4 => rfl

theorem mem_sortPaths {paths : List RelativePath} {path : RelativePath} :
    path ∈ sortPaths paths ↔ path ∈ paths :=
  mem_sortBy

/-- The payload of a scan decodes to its paths, when no path is empty or has a newline in it. -/
theorem decodeSnapshot_encodeSnapshot {paths : List RelativePath} (hne : ∀ path ∈ paths, path ≠ [])
    (hlines : ∀ path ∈ paths, '\n' ∉ path) :
    decodeSnapshot (encodeSnapshot paths) = .ok (sortPaths paths) := by
  have htext : ∀ text : List Char, (base64Decode (rstripPadding (base64Encode 45 95
      (text.flatMap String.utf8EncodeChar)))).bind decodeUtf8 = some text := by
    intro text
    have hbytes : (text.flatMap String.utf8EncodeChar).toByteArray = text.utf8Encode := rfl
    rw [rstripPadding_base64Encode, base64Decode_unpadded, Option.bind_some, decodeUtf8, hbytes,
      List.utf8Decode?_utf8Encode, Option.map_some]
  unfold decodeSnapshot encodeSnapshot
  rw [htext]
  simp only [Except.ok.injEq]
  by_cases hnil : sortPaths paths = []
  · rw [hnil]
    rfl
  · rw [List.splitOn_intercalate '\n' (fun path h => hlines path (mem_sortPaths.1 h)) hnil,
      List.filter_eq_self]
    intro path hpath
    exact decide_eq_true (hne path (mem_sortPaths.1 hpath))

theorem not_mem_of_mem_splitOn {α : Type} [DecidableEq α] {separator : α} {text : List α} :
    ∀ line ∈ text.splitOn separator, separator ∉ line := by
  induction text with
  | nil => simp
  | cons a text ih =>
    rw [List.splitOn_cons_eq_if_modifyHead]
    split
    · intro line hline
      rcases List.mem_cons.1 hline with rfl | hline
      · exact List.not_mem_nil
      · exact ih line hline
    next hne =>
      obtain ⟨first, rest, hsplit⟩ := List.exists_cons_of_ne_nil (List.splitOn_ne_nil separator text)
      rw [hsplit] at ih ⊢
      intro line hline
      rcases List.mem_cons.1 hline with rfl | hline
      · rw [List.mem_cons, not_or]
        exact ⟨fun heq => hne (beq_iff_eq.2 heq.symm), ih first List.mem_cons_self⟩
      · exact ih line (List.mem_cons_of_mem _ hline)

/-- No path that a payload decodes to has a newline in it. -/
theorem not_mem_of_decodeSnapshot {payload : Bytes} {paths : List RelativePath}
    (h : decodeSnapshot payload = .ok paths) : ∀ path ∈ paths, '\n' ∉ path := by
  unfold decodeSnapshot at h
  split at h
  · cases h
  · cases h
    exact fun path hpath => not_mem_of_mem_splitOn path (List.mem_filter.1 hpath).1

end OmniviaCore.Connector
