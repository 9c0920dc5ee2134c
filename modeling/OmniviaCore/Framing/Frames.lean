import OmniviaCore.CanonicalJson.ContentAddress
import OmniviaCore.CanonicalJson.Parse
import OmniviaCore.Lib.PrefixCode

/-!
# Frames

`omnivia_core_client/framing.py`. A frame is a magic, the length of its body and the body, which is the
canonical JSON of an object. Both halves of the codec admit a body by one function, so what is encoded
is decoded again, to a value with the same canonical bytes, and a decoded frame is what its value is
encoded to (`frame_codec_inverse`).
-/

namespace OmniviaCore.Framing

open Lib CanonicalJson

def MAGIC : List UInt8 := [0x4F, 0x56, 0x43, 0x31]

def LENGTH_BYTES : ℕ := 4

def HEADER_BYTES : ℕ := 8

def MAXIMUM_JSON_BYTES : ℕ := 4 * 1024 * 1024

/-- `ProtocolError`, by its reason and what the reason quotes. -/
inductive ProtocolError where
  | notUtf8 (offset : ℕ)
  | notJson
  | unparseableNumber
  | notAdmissibleDocument
  | notObject (kind : String)
  | notAdmissibleValue
  | unrenderableValue
  | notCanonical
  | payloadNotMapping
  | notDecodableOnceEncoded
  | aboveMaximum (length : ℕ)
  | tooShort (length : ℕ)
  | noMagic
  | zeroLength
  | declaresAboveMaximum (length : ℕ)
  | truncated (declared carried : ℕ)
  | trailing (extra declared : ℕ)
  deriving DecidableEq

/-! ## Bodies -/

/-- The code point a UTF-8 sequence of its length would stand for. -/
def codeOfUtf8 : List UInt8 → ℕ
  | [a] => a.toNat
  | [a, b] => a.toNat % 32 * 64 + b.toNat % 64
  | [a, b, c] => (a.toNat % 16 * 64 + b.toNat % 64) * 64 + c.toNat % 64
  | [a, b, c, d] => ((a.toNat % 8 * 64 + b.toNat % 64) * 64 + c.toNat % 64) * 64 + d.toNat % 64
  | _ => 0

/-- The character a sequence is the encoding of. -/
def charOfUtf8 (sequence : List UInt8) : Option Char :=
  let c := Char.ofNat (codeOfUtf8 sequence)
  if String.utf8EncodeChar c = sequence then some c else none

/-- `_decode_utf8`, from a byte offset and with the bytes of an unfinished character. -/
def decodeUtf8From (offset : ℕ) (sequence : List UInt8) : List UInt8 → Except ProtocolError (List Char)
  | [] => if sequence = [] then pure [] else throw (.notUtf8 offset)
  | byte :: rest =>
    match charOfUtf8 (sequence ++ [byte]) with
    | some c => do
      let chars ← decodeUtf8From (offset + sequence.length + 1) [] rest
      pure (c :: chars)
    | none =>
      if sequence.length < 3 then decodeUtf8From offset (sequence ++ [byte]) rest
      else throw (.notUtf8 offset)

/-- `_decode_utf8`. -/
def decodeUtf8 (body : List UInt8) : Except ProtocolError (List Char) := decodeUtf8From 0 [] body

/-- `_parse_rejection`. -/
def parseRejection : ParseError → ProtocolError
  | .decode => .notJson
  | .digits => .unparseableNumber
  | .duplicateName => .notAdmissibleDocument
  | .constant => .notAdmissibleDocument
  | .fuel => .notJson

/-- `_parse_document`. -/
def parseDocument (text : List Char) : Except ProtocolError Value :=
  (loads text).mapError parseRejection

/-- `_canonicalize`. -/
def canonicalize (value : Value) : Except ProtocolError (List UInt8) :=
  (canonicalBytes value (ofChars ['$'])).mapError fun
    | .contract _ => .notAdmissibleValue
    | .valueError => .unrenderableValue

/-- `_json_kind`. -/
def jsonKind : Value → String
  | .none => "JSON null"
  | .bool _ => "a JSON boolean"
  | .int _ => "a JSON number"
  | .float _ => "a JSON number"
  | .str _ => "a JSON string"
  | .mapping _ => "a JSON object"
  | .sequence _ => "a JSON array"
  | .binary => "a non-JSON value"
  | .other _ => "a non-JSON value"

/-- `isinstance(value, dict)`. -/
def isMapping : Value → Bool
  | .mapping _ => true
  | _ => false

/-- `_admit_body`. -/
def admitBody (body : List UInt8) : Except ProtocolError Value := do
  let text ← decodeUtf8 body
  let value ← parseDocument text
  require (isMapping value = true) (.notObject (jsonKind value))
  let canonical ← canonicalize value
  require (canonical = body) .notCanonical
  pure value

/-! ## The codec -/

/-- `canonical_json_bytes`. -/
def canonicalJsonBytes (payload : Value) : Except ProtocolError (List UInt8) := do
  require (isMapping payload = true) .payloadNotMapping
  let body ← canonicalize payload
  let _ ← (admitBody body).mapError fun _ => .notDecodableOnceEncoded
  pure body

/-- `encode_frame`. -/
def encodeFrame (payload : Value) : Except ProtocolError (List UInt8) := do
  let body ← canonicalJsonBytes payload
  require (body.length ≤ MAXIMUM_JSON_BYTES) (.aboveMaximum body.length)
  pure (MAGIC ++ toBigEndian LENGTH_BYTES body.length ++ body)

/-- `decode_frame`. -/
def decodeFrame (raw : List UInt8) : Except ProtocolError Value := do
  require (HEADER_BYTES ≤ raw.length) (.tooShort raw.length)
  require (raw.take MAGIC.length = MAGIC) .noMagic
  let length := ofBigEndian ((raw.take HEADER_BYTES).drop MAGIC.length)
  require (length ≠ 0) .zeroLength
  require (length ≤ MAXIMUM_JSON_BYTES) (.declaresAboveMaximum length)
  let body := raw.drop HEADER_BYTES
  require (length ≤ body.length) (.truncated length body.length)
  require (body.length ≤ length) (.trailing (body.length - length) length)
  admitBody body

/-! ## What the two halves accept -/

theorem admitBody_eq_ok {body : List UInt8} {value : Value} :
    admitBody body = .ok value ↔ (∃ text, decodeUtf8 body = .ok text ∧ parseDocument text = .ok value) ∧
      isMapping value = true ∧ canonicalize value = .ok body := by
  simp only [admitBody, bind_eq_ok, require_eq_ok, exists_unit, pure_eq_ok]
  constructor
  · rintro ⟨text, htext, value, hvalue, hmapping, body, hbody, rfl, rfl⟩
    exact ⟨⟨text, htext, hvalue⟩, hmapping, hbody⟩
  · rintro ⟨⟨text, htext, hvalue⟩, hmapping, hbody⟩
    exact ⟨text, htext, value, hvalue, hmapping, body, hbody, rfl, rfl⟩

theorem canonicalJsonBytes_eq_ok {payload : Value} {body : List UInt8} :
    canonicalJsonBytes payload = .ok body ↔
      isMapping payload = true ∧ canonicalize payload = .ok body ∧ ∃ value, admitBody body = .ok value := by
  simp only [canonicalJsonBytes, bind_eq_ok, require_eq_ok, exists_unit, pure_eq_ok, mapError_eq_ok]
  constructor
  · rintro ⟨hmapping, body, hbody, value, hvalue, rfl⟩
    exact ⟨hmapping, hbody, value, hvalue⟩
  · rintro ⟨hmapping, hbody, value, hvalue⟩
    exact ⟨hmapping, body, hbody, value, hvalue, rfl⟩

/-- A header and the body it declares. -/
def frame (body : List UInt8) : List UInt8 :=
  MAGIC ++ toBigEndian LENGTH_BYTES body.length ++ body

theorem encodeFrame_eq_ok {payload : Value} {f : List UInt8} :
    encodeFrame payload = .ok f ↔ ∃ body, canonicalJsonBytes payload = .ok body ∧
      body.length ≤ MAXIMUM_JSON_BYTES ∧ f = frame body := by
  simp only [encodeFrame, bind_eq_ok, require_eq_ok, exists_unit, pure_eq_ok]
  constructor
  · rintro ⟨body, hbody, hlength, rfl⟩
    exact ⟨body, hbody, hlength, rfl⟩
  · rintro ⟨body, hbody, hlength, rfl⟩
    exact ⟨body, hbody, hlength, rfl⟩

theorem header_frame (body : List UInt8) : (frame body).take HEADER_BYTES =
    MAGIC ++ toBigEndian LENGTH_BYTES body.length :=
  List.take_left' (by simp [MAGIC, HEADER_BYTES, LENGTH_BYTES])

theorem drop_frame (body : List UInt8) : (frame body).drop HEADER_BYTES = body :=
  List.drop_left' (by simp [MAGIC, HEADER_BYTES, LENGTH_BYTES])

/-- A byte string whose header declares the length of the rest is a frame. -/
theorem eq_frame {raw : List UInt8} (hlength : HEADER_BYTES ≤ raw.length)
    (hmagic : raw.take MAGIC.length = MAGIC)
    (hdeclared : ofBigEndian ((raw.take HEADER_BYTES).drop MAGIC.length) =
      (raw.drop HEADER_BYTES).length) : raw = frame (raw.drop HEADER_BYTES) := by
  have hwidth : ((raw.take HEADER_BYTES).drop MAGIC.length).length = LENGTH_BYTES := by
    rw [List.length_drop, List.length_take, Nat.min_eq_left hlength]
    rfl
  have hheader : raw.take HEADER_BYTES = MAGIC ++ (raw.take HEADER_BYTES).drop MAGIC.length := by
    conv_lhs => rw [← List.take_append_drop MAGIC.length (raw.take HEADER_BYTES)]
    rw [List.take_take, Nat.min_eq_left (by decide), hmagic]
  calc raw = raw.take HEADER_BYTES ++ raw.drop HEADER_BYTES := (List.take_append_drop _ _).symm
    _ = frame (raw.drop HEADER_BYTES) := by
      rw [frame, ← hdeclared, ← hwidth, toBigEndian_ofBigEndian, ← hheader]

theorem decodeFrame_eq_ok {f : List UInt8} {value : Value} :
    decodeFrame f = .ok value ↔ ∃ body, f = frame body ∧ body ≠ [] ∧
      body.length ≤ MAXIMUM_JSON_BYTES ∧ admitBody body = .ok value := by
  simp only [decodeFrame, bind_eq_ok, require_eq_ok, exists_unit]
  constructor
  · rintro ⟨hlength, hmagic, hzero, hmax, htruncated, htrailing, hvalue⟩
    have hdeclared := Nat.le_antisymm htruncated htrailing
    refine ⟨f.drop HEADER_BYTES, eq_frame hlength hmagic hdeclared, ?_, by rwa [← hdeclared], hvalue⟩
    intro hnil
    rw [hdeclared, hnil] at hzero
    exact hzero rfl
  · rintro ⟨body, rfl, hnil, hmax, hvalue⟩
    have hdeclared : ofBigEndian (((frame body).take HEADER_BYTES).drop MAGIC.length) = body.length := by
      rw [header_frame, List.drop_left]
      exact ofBigEndian_toBigEndian (Nat.lt_of_le_of_lt hmax (by decide))
    have hlength : HEADER_BYTES ≤ (frame body).length := by
      simp [frame, MAGIC, HEADER_BYTES, LENGTH_BYTES]
    have hmagic : (frame body).take MAGIC.length = MAGIC := by
      rw [frame, List.append_assoc, List.take_left]
    rw [hdeclared, drop_frame]
    exact ⟨hlength, hmagic, mt List.length_eq_zero_iff.1 hnil, hmax, le_rfl, le_rfl, hvalue⟩

/-- Canonical bytes are never empty. -/
theorem canonicalize_ne_nil {value : Value} {body : List UInt8} (h : canonicalize value = .ok body) :
    body ≠ [] := by
  simp only [canonicalize, mapError_eq_ok, canonicalBytes, bind_eq_ok, pure_eq_ok] at h
  obtain ⟨text, htext, rfl⟩ := h
  obtain ⟨haccepted, rfl⟩ := (canonicalizeInto_eq_ok value _ 0 text).1 htext
  obtain ⟨c, rest, hrender, -⟩ := Tree.kindAt_render escape haccepted.tokens
  rw [hrender, List.flatMap_cons]
  exact List.append_ne_nil_of_left_ne_nil (utf8EncodeChar_prefixCode.ne_nil c) _

/-! ## The codec is one bijection -/

/-- What is encoded is decoded, to a value with the same canonical bytes that is encoded to the same
frame; a decoded frame is the encoding of its value; and frames whose values have the same canonical
bytes are one frame. -/
theorem frame_codec_inverse :
    (∀ payload f, encodeFrame payload = .ok f → ∃ value, decodeFrame f = .ok value ∧
      canonicalize value = canonicalize payload ∧ encodeFrame value = .ok f) ∧
    (∀ f value, decodeFrame f = .ok value → encodeFrame value = .ok f) ∧
    ∀ f g v w, decodeFrame f = .ok v → decodeFrame g = .ok w → canonicalize v = canonicalize w →
      f = g := by
  have hencode : ∀ f value, decodeFrame f = .ok value → encodeFrame value = .ok f := by
    intro f value h
    obtain ⟨body, rfl, -, hmax, hvalue⟩ := decodeFrame_eq_ok.1 h
    obtain ⟨-, hmapping, hbody⟩ := admitBody_eq_ok.1 hvalue
    exact encodeFrame_eq_ok.2
      ⟨body, canonicalJsonBytes_eq_ok.2 ⟨hmapping, hbody, value, hvalue⟩, hmax, rfl⟩
  refine ⟨?_, hencode, ?_⟩
  · intro payload f h
    obtain ⟨body, hbytes, hmax, rfl⟩ := encodeFrame_eq_ok.1 h
    obtain ⟨-, hbody, value, hvalue⟩ := canonicalJsonBytes_eq_ok.1 hbytes
    have hdecode : decodeFrame (frame body) = .ok value :=
      decodeFrame_eq_ok.2 ⟨body, rfl, canonicalize_ne_nil hbody, hmax, hvalue⟩
    exact ⟨value, hdecode, (admitBody_eq_ok.1 hvalue).2.2.trans hbody.symm, hencode _ _ hdecode⟩
  · intro f g v w hf hg hvw
    obtain ⟨body, rfl, -, -, hv⟩ := decodeFrame_eq_ok.1 hf
    obtain ⟨body', rfl, -, -, hw⟩ := decodeFrame_eq_ok.1 hg
    have hbody := (admitBody_eq_ok.1 hv).2.2
    have hbody' := (admitBody_eq_ok.1 hw).2.2
    rw [hvw, hbody', Except.ok.injEq] at hbody
    rw [hbody]

/-- A frame with a nested payload, there and back. -/
theorem frame_codec_inverse_nested :
    ∃ value, decodeFrame [0x4F, 0x56, 0x43, 0x31, 0, 0, 0, 14, 123, 34, 97, 34, 58, 91, 49, 44, 110, 117,
        108, 108, 93, 125] = .ok value ∧
      encodeFrame value = .ok [0x4F, 0x56, 0x43, 0x31, 0, 0, 0, 14, 123, 34, 97, 34, 58, 91, 49, 44, 110,
        117, 108, 108, 93, 125] := by
  have hencode : encodeFrame (.mapping [(.name (ofChars ['a']), .sequence [.int 1, .none])]) =
      .ok [0x4F, 0x56, 0x43, 0x31, 0, 0, 0, 14, 123, 34, 97, 34, 58, 91, 49, 44, 110, 117, 108, 108, 93,
        125] := by
    decide +kernel
  obtain ⟨value, hdecode, -, -⟩ := frame_codec_inverse.1 _ _ hencode
  exact ⟨value, hdecode, frame_codec_inverse.2.1 _ _ hdecode⟩

end OmniviaCore.Framing
